import Optima.Label
import Optima.Table
import Optima.Text.Basic

namespace Optima

/-!
# Documents

Problems, configurations and solutions come and go as documents: nested lists
and mappings of texts, truth values and numbers.  Whole numbers without a point
are kept apart from the numbers that the library computes with.
-/

/-- A tree of values, over a type of numbers. -/
inductive Document (α : Type) where
  | null
  | boolean (value : Bool)
  | integer (value : Int)
  | number (value : α)
  | text (value : String)
  | list (items : List (Document α))
  | mapping (entries : List (String × Document α))
  deriving Repr

namespace Document

variable {α β : Type}

instance : Inhabited (Document α) := ⟨.null⟩

/-- The mapping that a table is. -/
def ofTable (table : Table (Document α)) : Document α :=
  .mapping table.entries

/-- A list of texts. -/
def texts (values : List String) : Document α :=
  .list (values.map .text)

/-- The label of a value. -/
def labelled [Labelled β] (value : β) : Document α :=
  .text (label value)

/-- The list of what a function writes for each value. -/
def listOf (write : β → Document α) (values : List β) : Document α :=
  .list (values.map write)

/-- The mapping of what a function writes for each value of a table. -/
def tableOf (write : β → Document α) (table : Table β) : Document α :=
  .mapping (table.map write).entries

/-- The number that a natural number is. -/
def natural (value : Nat) : Document α :=
  .integer value

/-- An optional value: `null` where there is none. -/
def optional (write : β → Document α) : Option β → Document α
  | none => .null
  | some value => write value

/-- The document at a name of a mapping. -/
def field? (name : String) : Document α → Option (Document α)
  | .mapping entries => entries.lookup name
  | _ => none

/-- Whether a document is a mapping that has a name. -/
def hasField (name : String) (document : Document α) : Bool :=
  (document.field? name).isSome

/-- The entries of a mapping; other documents have none. -/
def entries : Document α → List (String × Document α)
  | .mapping entries => entries
  | _ => []

/-- The items of a list; other documents have none. -/
def items : Document α → List (Document α)
  | .list items => items
  | _ => []

/-- The text that a document is. -/
def text? : Document α → Option String
  | .text value => some value
  | _ => none

/-- Texts in order as a document. -/
def sortedTexts (values : List String) : Document α :=
  .texts (values.mergeSort fun first second => decide (first ≤ second))

/-- A list of numbers as a document. -/
def numbers (values : List α) : Document α :=
  .listOf .number values

/-- A list of natural numbers as a document. -/
def naturals (values : List Nat) : Document α :=
  .listOf .natural values

/-- The ends of an interval as a document. -/
def interval (ends : α × α) : Document α :=
  .numbers [ends.1, ends.2]

/-- The document at a name, or null. -/
def valueAt (document : Document α) (name : String) : Document α :=
  (document.field? name).getD .null

/-- The document at a name, unless it is null. -/
def presentAt? (document : Document α) (name : String) : Option (Document α) :=
  match document.field? name with
  | none | some .null => none
  | found => found

/-- The text at a name, if there is one. -/
def textAt? (document : Document α) (name : String) : Option String :=
  (document.field? name).bind text?

/-- The text at a name, or the empty text. -/
def textAt (document : Document α) (name : String) : String :=
  (document.textAt? name).getD ""

/-- The natural number that a document is, or zero. -/
def toNatural : Document α → Nat
  | .integer value => value.toNat
  | _ => 0

/-- The items at a name. -/
def itemsAt (document : Document α) (name : String) : List (Document α) :=
  (document.valueAt name).items

/-- The natural number at a name, or zero. -/
def naturalAt (document : Document α) (name : String) : Nat :=
  (document.valueAt name).toNatural

/-- Whether a document says yes at a name. -/
def isTrueAt (document : Document α) (name : String) : Bool :=
  match document.valueAt name with
  | .boolean value => value
  | _ => false

end Document

end Optima
