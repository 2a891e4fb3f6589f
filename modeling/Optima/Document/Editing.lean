import Optima.Document.Basic

namespace Optima

/-!
# Editing documents

Small changes to documents: leaving out or changing fields of mappings, and changing
the items of a list or all numbers.
-/

namespace Document

variable {α : Type}

/-- The fields of a mapping except those of some names. -/
def without (names : List String) (document : Document α) : Document α :=
  .mapping (document.entries.filter fun entry => !names.contains entry.1)

/-- A mapping with further fields. -/
def withFields (document : Document α) (fields : List (String × Document α)) : Document α :=
  .mapping (document.entries ++ fields)

/-- A mapping with one field changed. -/
def mapField (name : String) (change : Document α → Document α) (document : Document α) :
    Document α :=
  .mapping (document.entries.map fun entry =>
    (entry.1, if entry.1 == name then change entry.2 else entry.2))

/-- A list with every item changed. -/
def mapItems (change : Document α → Document α) (document : Document α) : Document α :=
  .list (document.items.map change)

mutual

/-- A document with every number changed. -/
def mapNumbers (change : α → α) : Document α → Document α
  | .number value => .number (change value)
  | .list items => .list (mapNumbersInItems change items)
  | .mapping entries => .mapping (mapNumbersInEntries change entries)
  | document => document

/-- Items with every number changed. -/
def mapNumbersInItems (change : α → α) : List (Document α) → List (Document α)
  | [] => []
  | item :: rest => mapNumbers change item :: mapNumbersInItems change rest

/-- Entries with every number changed. -/
def mapNumbersInEntries (change : α → α) :
    List (String × Document α) → List (String × Document α)
  | [] => []
  | (name, value) :: rest => (name, mapNumbers change value) :: mapNumbersInEntries change rest

end

mutual

/-- A document in which the integers at some names, however deep below them, are numbers. -/
def measured (toNumber : Int → α) (names : List String) (within : Bool) :
    Document α → Document α
  | .integer value => if within then .number (toNumber value) else .integer value
  | .list items => .list (measuredItems toNumber names within items)
  | .mapping entries => .mapping (measuredEntries toNumber names within entries)
  | document => document

/-- Items in which the integers at some names are numbers. -/
def measuredItems (toNumber : Int → α) (names : List String) (within : Bool) :
    List (Document α) → List (Document α)
  | [] => []
  | item :: rest =>
    measured toNumber names within item :: measuredItems toNumber names within rest

/-- Entries in which the integers at some names are numbers. -/
def measuredEntries (toNumber : Int → α) (names : List String) (within : Bool) :
    List (String × Document α) → List (String × Document α)
  | [] => []
  | (name, value) :: rest =>
    (name, measured toNumber names (within || names.contains name) value)
      :: measuredEntries toNumber names within rest

end

end Document

end Optima
