import Optima.Comparison
import Optima.Failure
import Optima.Scalar.Basic
import Optima.Table

namespace Optima

/-!
# Expressions and assignments

An assignment gives values to names, and an expression has a value on an assignment.
-/

/-!
## Assignments

An assignment gives values to the names that expressions read.  A solver binds
numbers only; a caller may bind anything, and reading it as a number may fail.
-/

/-- What a name is bound to. -/
inductive Value (α : Type) where
  | number (value : α)
  | text (value : String)
  /-- Something that breaks down when it is read as a number. -/
  | unusable (breakdown : Breakdown)
  deriving Repr

/-- Values of names. -/
abbrev Assignment (α : Type) := Table (Value α)

namespace Assignment

variable {α : Type}

/-- The assignment that binds numbers to names. -/
def ofNumbers (numbers : List (String × α)) : Assignment α :=
  ⟨numbers.map fun entry => (entry.1, .number entry.2)⟩

/-- The number that a name is bound to. -/
def read (assignment : Assignment α) (name : String) : Except (EvalFailure α) α :=
  match assignment.get? name with
  | none => .error (.rejected (.unbound name))
  | some (.number value) => .ok value
  | some (.text value) => .error (.rejected (.textValue name value))
  | some (.unusable breakdown) => .error (.broken breakdown)

end Assignment

/-!
## Expressions

Objectives and constraints are algebraic expressions over named values.  An
expression that is evaluated gives a number or says why it has none.
-/

/-- An algebraic expression. -/
inductive Expr (α : Type) where
  | constant (value : α)
  | variable (name : String)
  | linear (coefficients : Table α) (constant : α)
  | sum (terms : List (Expr α))
  | product (factors : List (Expr α))
  | power (base : Expr α) (exponent : α)
  | absolute (operand : Expr α)
  | condition (operand : Expr α) (comparison : Comparison) (target : α)
  deriving Repr

namespace Expr

variable {α : Type}

instance [Zero α] : Inhabited (Expr α) := ⟨.constant 0⟩

mutual

/-- The names that an expression reads, each once. -/
def names : Expr α → List String
  | .constant _ => []
  | .variable name => [name]
  | .linear coefficients _ => coefficients.names.eraseDups
  | .sum terms => (namesOfAll terms).eraseDups
  | .product factors => (namesOfAll factors).eraseDups
  | .power base _ => base.names
  | .absolute operand => operand.names
  | .condition operand _ _ => operand.names

/-- The names that the expressions of a list read, in order. -/
def namesOfAll : List (Expr α) → List String
  | [] => []
  | expression :: rest => expression.names ++ namesOfAll rest

end

mutual

/-- Whether an expression adds up nothing at all, or is the distance of such a one from zero. -/
def isEmptySum : Expr α → Bool
  | .sum terms => areEmptySums terms
  | .absolute operand => operand.isEmptySum
  | _ => false

/-- Whether all expressions of a list add up nothing at all. -/
def areEmptySums : List (Expr α) → Bool
  | [] => true
  | expression :: rest => expression.isEmptySum && areEmptySums rest

end

variable [Scalar α]

/-- Raise a number to a power, within the real numbers. -/
def raise (bare : Bool) (base exponent : α) : Except (EvalError α) α :=
  let finite := Scalar.isFinite base && Scalar.isFinite exponent
  let result := Scalar.power base exponent
  if finite && base == 0 && exponent < 0 then
    .error (.zeroToNegative (if bare then none else some base) exponent)
  else if finite && base < 0 && !(Scalar.floor exponent == exponent) then
    if Scalar.isFinite (Scalar.power (-base) exponent) then .error (.noRealPower base exponent)
    else .error (.complexPowerTooLarge base exponent)
  else if finite && !Scalar.isFinite result then .error (.powerTooLarge base exponent)
  else .ok result

/-- The value of a linear combination: the constant, then term by term. -/
def evaluateTerms (assignment : Assignment α) :
    α → List (String × α) → Except (EvalFailure α) α
  | total, [] => .ok total
  | total, (name, coefficient) :: rest => do
    let value ← assignment.read name
    evaluateTerms assignment (total + coefficient * value) rest

mutual

/-- The value of an expression on an assignment. -/
def evaluate (assignment : Assignment α) : Expr α → Except (EvalFailure α) α
  | .constant value => .ok value
  | .variable name => assignment.read name
  | .linear coefficients offset => evaluateTerms assignment offset coefficients.entries
  | .sum terms => evaluateSum assignment 0 terms
  | .product factors => evaluateProduct assignment 1 factors
  | .power base exponent => do
    let value ← evaluate assignment base
    (raise base.isEmptySum value exponent).mapError .rejected
  | .absolute operand => do
    let value ← evaluate assignment operand
    return Scalar.magnitude value
  | .condition operand comparison target => do
    let value ← evaluate assignment operand
    return Scalar.indicator (comparison.holds value target Comparison.usualTolerance)

/-- Add the values of expressions to a total, from left to right. -/
def evaluateSum (assignment : Assignment α) :
    α → List (Expr α) → Except (EvalFailure α) α
  | total, [] => .ok total
  | total, expression :: rest => do
    let value ← evaluate assignment expression
    evaluateSum assignment (total + value) rest

/-- Multiply a number by the values of expressions, from left to right. -/
def evaluateProduct (assignment : Assignment α) :
    α → List (Expr α) → Except (EvalFailure α) α
  | result, [] => .ok result
  | result, expression :: rest => do
    let value ← evaluate assignment expression
    evaluateProduct assignment (result * value) rest

end

end Expr

end Optima
