namespace Optima

/-!
# Tables

A table gives values to names.  It keeps the order in which the names were first
entered, and entering a name again replaces its value in place.
-/

/-- Values by name, in the order in which the names were first entered. -/
structure Table (β : Type) where
  entries : List (String × β)
  deriving Repr, BEq, DecidableEq

namespace Table

variable {β γ : Type}

/-- The table without names. -/
def empty : Table β := ⟨[]⟩

instance : EmptyCollection (Table β) := ⟨empty⟩

instance : Inhabited (Table β) := ⟨empty⟩

/-- The value of a name. -/
def get? (table : Table β) (name : String) : Option β :=
  table.entries.lookup name

/-- Whether a name has a value. -/
def contains (table : Table β) (name : String) : Bool :=
  table.entries.any (·.1 == name)

/-- The names in order. -/
def names (table : Table β) : List String :=
  table.entries.map (·.1)

/-- The values in the order of their names. -/
def values (table : Table β) : List β :=
  table.entries.map (·.2)

/-- Replace the value of the first entry of a name, or add an entry at the end. -/
def enter (name : String) (value : β) : List (String × β) → List (String × β)
  | [] => [(name, value)]
  | entry :: rest =>
    if entry.1 == name then (name, value) :: rest else entry :: enter name value rest

/-- The table in which a name has a value. -/
def insert (table : Table β) (name : String) (value : β) : Table β :=
  ⟨enter name value table.entries⟩

/-- The table without a name. -/
def erase (table : Table β) (name : String) : Table β :=
  ⟨table.entries.filter (·.1 != name)⟩

/-- Enter the entries of a list one after the other. -/
def insertAll (table : Table β) (entries : List (String × β)) : Table β :=
  entries.foldl (fun current entry => current.insert entry.1 entry.2) table

/-- The table of a list of entries; of two entries of a name the later counts. -/
def ofList (entries : List (String × β)) : Table β :=
  empty.insertAll entries

/-- Enter every entry of the second table into the first. -/
def merge (table other : Table β) : Table β :=
  table.insertAll other.entries

/-- Change every value. -/
def map (change : β → γ) (table : Table β) : Table γ :=
  ⟨table.entries.map fun entry => (entry.1, change entry.2)⟩

/-- Keep the entries that pass a test. -/
def filter (keep : String → β → Bool) (table : Table β) : Table β :=
  ⟨table.entries.filter fun entry => keep entry.1 entry.2⟩

/-- Number of names. -/
def size (table : Table β) : Nat :=
  table.entries.length

end Table

end Optima
