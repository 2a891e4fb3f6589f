import Optima.Decimal
import Optima.Failure
import Optima.Label
import Optima.Scalar.Basic
import Optima.Text.Basic

namespace Optima

/-!
# Decision variables

A variable takes real numbers, whole numbers, zero or one, or one of finitely
many named categories.  Searches work on numbers: a category is encoded by its
position, and every variable has an interval to be searched.
-/

/-- A number or a text. -/
inductive Datum (α : Type) where
  | number (value : α)
  | text (value : String)
  deriving Repr, BEq

/-- The values that a variable takes. -/
inductive VariableKind where
  | continuous
  | integer
  | binary
  | categorical
  deriving Repr, DecidableEq

instance : Labelled VariableKind where
  all := [.continuous, .integer, .binary, .categorical]
  label
    | .continuous => "continuous"
    | .integer => "integer"
    | .binary => "binary"
    | .categorical => "categorical"

/-- A decision variable. -/
structure Variable (α : Type) where
  identifier : String
  name : String
  kind : VariableKind
  lower : Option α
  upper : Option α
  initial : Option (Datum α)
  categories : Option (List String)
  description : String
  deriving Repr

/-- Why the parts of a variable do not fit together. -/
inductive VariableFault (α : Type) where
  | noCategories (name : String)
  | repeatedCategory (name : String)
  | initialNotCategory (name : String) (initial : Datum α)
  | textInitial (name : String)
  | boundsReversed (name : String) (lower upper : α)
  | binaryBound (name : String) (bound : α)
  deriving Repr

namespace VariableFault

/-- The quoted form of a number or a text. -/
def shown : Datum Float → String
  | .number value => Decimal.shortestText value
  | .text value => quoted value

/-- The message of a fault. -/
def message : VariableFault Float → String
  | .noCategories name => "categorical variable '" ++ name ++ "' needs categories"
  | .repeatedCategory name => "categorical variable '" ++ name ++ "' has duplicate categories"
  | .initialNotCategory name initial =>
    "initial value " ++ shown initial ++ " of '" ++ name ++ "' is not a category"
  | .textInitial name => "numeric variable '" ++ name ++ "' has a string initial value"
  | .boundsReversed name lower upper =>
    "variable '" ++ name ++ "' has lower bound " ++ Decimal.shortestText lower
      ++ " above upper bound " ++ Decimal.shortestText upper
  | .binaryBound name bound =>
    "binary variable '" ++ name ++ "' has bound " ++ Decimal.shortestText bound

end VariableFault

namespace Variable

variable {α : Type}

/-- The categories of a variable; none for a numeric one. -/
def categoryNames (decision : Variable α) : List String :=
  decision.categories.getD []

/-- Whether a variable takes separate values only. -/
def isDiscrete (decision : Variable α) : Bool :=
  decision.kind != .continuous

variable [Scalar α]

/-- The fault of a categorical variable. -/
def categoricalFault? (decision : Variable α) : Option (VariableFault α) :=
  let names := decision.categoryNames
  if names.isEmpty then some (.noCategories decision.name)
  else if names.eraseDups.length != names.length then some (.repeatedCategory decision.name)
  else
    match decision.initial with
    | none => none
    | some (.text value) =>
      if names.contains value then none
      else some (.initialNotCategory decision.name (.text value))
    | some initial => some (.initialNotCategory decision.name initial)

/-- Whether a bound is zero or one. -/
def isBinaryBound (bound : α) : Bool :=
  bound == 0 || bound == 1

/-- The fault of a numeric variable. -/
def numericFault? (decision : Variable α) : Option (VariableFault α) :=
  let reversed? : Option (VariableFault α) :=
    match decision.lower, decision.upper with
    | some lower, some upper =>
      if upper < lower then some (.boundsReversed decision.name lower upper) else none
    | _, _ => none
  let binary? : Option (VariableFault α) :=
    if decision.kind = .binary then
      ((decision.lower.toList ++ decision.upper.toList).find? fun bound => !isBinaryBound bound).map
        (.binaryBound decision.name)
    else none
  match decision.initial with
  | some (.text _) => some (.textInitial decision.name)
  | _ => reversed?.or binary?

/-- The first fault of a variable. -/
def fault? (decision : Variable α) : Option (VariableFault α) :=
  if decision.kind = .categorical then decision.categoricalFault? else decision.numericFault?

/-- A rounded number, which only a finite number has. -/
def wholePart (round : α → α) (value : α) : Except Breakdown α :=
  if Scalar.isNaN value then .error .malformedNumber
  else if !Scalar.isFinite value then .error .numberTooLarge
  else .ok (round value)

/-- The interval of a real or whole variable, before whole numbers are asked for. -/
def openBounds (decision : Variable α) (defaultBounds : α × α) : α × α :=
  let span := defaultBounds.2 - defaultBounds.1
  match decision.lower, decision.upper with
  | some lower, some upper => (lower, upper)
  | none, some upper => (upper - span, upper)
  | some lower, none => (lower, lower + span)
  | none, none =>
    match decision.initial with
    | some (.number anchor) => (anchor - span / Scalar.two, anchor + span / Scalar.two)
    | _ => defaultBounds

/-- The interval to be searched; a category is counted by its position. -/
def bounds (decision : Variable α) (defaultBounds : α × α) : Except Breakdown (α × α) :=
  match decision.kind with
  | .binary => .ok (decision.lower.getD 0, decision.upper.getD 1)
  | .categorical => .ok (0, Scalar.ofInt (decision.categoryNames.length - 1 : Int))
  | .continuous => .ok (decision.openBounds defaultBounds)
  | .integer => do
    let (lower, upper) := decision.openBounds defaultBounds
    let first ← wholePart Scalar.ceiling lower
    let last ← wholePart Scalar.floor upper
    return (first, last)

/-- The interval that unbounded variables are searched in unless told otherwise. -/
def usualBounds : α × α := (0, Scalar.ofInt 100)

/-- The number of a value: a category by its position. -/
def encode (decision : Variable α) : Datum α → Except Breakdown α
  | .number value => .ok value
  | .text value =>
    if decision.kind = .categorical then
      match decision.categoryNames.findIdx? (· == value) with
      | some position => .ok (Scalar.ofInt position)
      | none => .error .notInList
    else .error .malformedNumber

/-- The position of the category nearest to a number. -/
def categoryPosition (decision : Variable α) (value : α) : Except Breakdown Nat := do
  let whole ← wholePart Scalar.nearest value
  let position := ((Scalar.toRat? whole).map Rat.floor).getD 0
  return min (max position 0) (decision.categoryNames.length - 1 : Int) |>.toNat

/-- The value that a number of the search stands for. -/
def decode (decision : Variable α) (value : α) : Except Breakdown (Datum α) :=
  match decision.kind with
  | .categorical => do
    let position ← decision.categoryPosition value
    return .text (decision.categoryNames.getD position "")
  | .integer | .binary => do
    let whole ← wholePart Scalar.nearest value
    return .number (whole + 0)
  | .continuous => .ok (.number value)

end Variable

end Optima
