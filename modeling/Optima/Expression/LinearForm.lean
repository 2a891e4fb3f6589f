import Optima.Expression.Basic

namespace Optima

/-!
# Linear forms

A linear form is a constant and a coefficient for each of finitely many names.
`Expr.linearForm?` finds the linear form of an expression that is visibly linear:
a product counts as linear where at most one of its factors reads a name, and a
power where its exponent is one or zero.
-/

/-- A linear function of named values. -/
structure LinearForm (α : Type) where
  coefficients : Table α
  constant : α
  deriving Repr, DecidableEq

namespace LinearForm

variable {α : Type} [Scalar α]

/-- The linear form that is the same everywhere. -/
def ofConstant (constant : α) : LinearForm α := ⟨{}, constant⟩

/-- Add a coefficient to the one that a name already has. -/
def addTerm (coefficients : Table α) (name : String) (coefficient : α) : Table α :=
  coefficients.insert name ((coefficients.get? name).getD 0 + coefficient)

/-- Add coefficients, the constants left aside. -/
def addTerms (coefficients : Table α) (added : List (String × α)) : Table α :=
  added.foldl (fun current entry => addTerm current entry.1 entry.2) coefficients

/-- The sum of two linear forms. -/
def add (left right : LinearForm α) : LinearForm α :=
  ⟨addTerms left.coefficients right.coefficients.entries, left.constant + right.constant⟩

/-- A linear form multiplied by a number. -/
def scale (form : LinearForm α) (factor : α) : LinearForm α :=
  ⟨form.coefficients.map (· * factor), form.constant * factor⟩

/-- The linear form as an expression. -/
def toExpr (form : LinearForm α) : Expr α :=
  .linear form.coefficients form.constant

end LinearForm

namespace Expr

variable {α : Type} [Scalar α]

mutual

/-- The linear form of an expression, if it is visibly linear. -/
def linearForm? : Expr α → Except (EvalFailure α) (Option (LinearForm α))
  | .constant value => .ok (some (.ofConstant value))
  | .variable name => .ok (some ⟨⟨[(name, 1)]⟩, 0⟩)
  | .linear coefficients offset => .ok (some ⟨coefficients, offset⟩)
  | .sum terms => sumForm? (.ofConstant 0) terms
  | .product factors => productForm? 1 none factors
  | .power base exponent =>
    if exponent == 1 then linearForm? base
    else if exponent == 0 then .ok (some (.ofConstant 1))
    else .ok none
  | .absolute _ => .ok none
  | .condition _ _ _ => .ok none

/-- The linear form of a sum, given the form of the terms before. -/
def sumForm? : LinearForm α → List (Expr α) → Except (EvalFailure α) (Option (LinearForm α))
  | form, [] => .ok (some form)
  | form, expression :: rest => do
    match ← linearForm? expression with
    | none => return none
    | some added => sumForm? (form.add added) rest

/--
The linear form of a product, given the product of the factors before that read
no name, and what the analysis of the one that does has given.  That outcome
counts only when every factor has been looked at.
-/
def productForm? : α → Option (Except (EvalFailure α) (Option (LinearForm α))) → List (Expr α) →
    Except (EvalFailure α) (Option (LinearForm α))
  | scale, none, [] => .ok (some (.ofConstant scale))
  | scale, some outcome, [] => outcome.map fun form => form.map (·.scale scale)
  | scale, varying, expression :: rest =>
    if expression.names.isEmpty then do
      let value ← expression.evaluate {}
      productForm? (scale * value) varying rest
    else
      match varying with
      | some _ => .ok none
      | none => productForm? scale (some (linearForm? expression)) rest

end

end Expr

end Optima
