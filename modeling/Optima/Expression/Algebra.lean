import Optima.Expression.LinearForm

namespace Optima

/-!
# Arithmetic on expressions

Expressions are combined with the arithmetic operations.  A combination of linear
expressions is written as one linear combination again; anything else becomes a
sum, a product or a power of its parts.
-/

/-- What stands at a leaf of an arithmetic term. -/
inductive Operand (α : Type) where
  | expression (value : Expr α)
  | number (value : α)
  /-- Something that is no expression, by the name of its kind. -/
  | unusable (kind : String)
  deriving Repr

/-- Why a term cannot be built. -/
inductive BuildFailure (α : Type) where
  | unusable (kind : String)
  | failed (failure : EvalFailure α)
  deriving Repr

namespace Operand

variable {α : Type}

/-- The expression that an operand stands for. -/
def toExpr : Operand α → Except (BuildFailure α) (Expr α)
  | .expression value => .ok value
  | .number value => .ok (.constant value)
  | .unusable kind => .error (.unusable kind)

end Operand

namespace Expr

variable {α : Type} [Scalar α]

/-- The sum of two expressions. -/
def add (left right : Expr α) : Except (EvalFailure α) (Expr α) := do
  let leftForm? ← left.linearForm?
  let rightForm? ← right.linearForm?
  match leftForm?, rightForm? with
  | some leftForm, some rightForm => return (leftForm.add rightForm).toExpr
  | _, _ => return .sum [left, right]

/-- The linear form of an expression multiplied by a constant, where the first of two is one. -/
def scaledBy? (scalar expression : Expr α) : Except (EvalFailure α) (Option (Expr α)) :=
  match scalar with
  | .constant factor => do
    let form? ← expression.linearForm?
    return form?.map fun form => (form.scale factor).toExpr
  | _ => .ok none

/-- The product of two expressions. -/
def multiply (left right : Expr α) : Except (EvalFailure α) (Expr α) := do
  match ← scaledBy? right left with
  | some scaled => return scaled
  | none =>
    match ← scaledBy? left right with
    | some scaled => return scaled
    | none => return .product [left, right]

/-- An expression with the opposite sign. -/
def negate (operand : Expr α) : Except (EvalFailure α) (Expr α) :=
  multiply operand (.constant (-1))

/-- The difference of two expressions. -/
def subtract (left right : Expr α) : Except (EvalFailure α) (Expr α) := do
  add left (← negate right)

end Expr

/-- An arithmetic term over expressions and numbers. -/
inductive ArithmeticTerm (α : Type) where
  | leaf (operand : Operand α)
  | negation (operand : ArithmeticTerm α)
  | addition (left right : ArithmeticTerm α)
  | subtraction (left right : ArithmeticTerm α)
  | multiplication (left right : ArithmeticTerm α)
  | exponentiation (base : ArithmeticTerm α) (exponent : α)
  deriving Repr

namespace ArithmeticTerm

variable {α : Type} [Scalar α]

/-- Take over the outcome of an operation on expressions. -/
private def operated {β : Type} : Except (EvalFailure α) β → Except (BuildFailure α) β
  | .ok value => .ok value
  | .error failure => .error (.failed failure)

/-- The expression that a term builds. -/
def build : ArithmeticTerm α → Except (BuildFailure α) (Expr α)
  | .leaf operand => operand.toExpr
  | .negation operand => do
    operated (← operand.build).negate
  | .addition left right => do
    let first ← left.build
    let second ← right.build
    operated (first.add second)
  | .subtraction left right => do
    let first ← left.build
    let second ← right.build
    operated (first.subtract second)
  | .multiplication left right => do
    let first ← left.build
    let second ← right.build
    operated (first.multiply second)
  | .exponentiation base exponent => do
    return .power (← base.build) exponent

end ArithmeticTerm

end Optima
