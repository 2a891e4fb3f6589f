import Optima.Problem.Goal
import Optima.Solution.Basic

namespace Optima

/-!
# Feasibility

How far an assignment is from satisfying constraints.  A magnitude of zero means
that a constraint is satisfied.  A strict comparison asks for a distance of one
tolerance from the target; without tolerance a value on the target misses it by
the smallest step above one.
-/

namespace Severity

variable {α : Type} [Scalar α]

/-- The severity of missing a target, by the size of the miss relative to the target. -/
def ofMagnitude (magnitude target : α) : Severity :=
  let relative := magnitude / Scalar.larger 1 (Scalar.magnitude target)
  if relative < Scalar.decimal 1 2 then .low
  else if relative < Scalar.decimal 1 1 then .medium
  else if relative < Scalar.decimal 5 1 then .high
  else .critical

end Severity

namespace Constraint

variable {α : Type} [Scalar α]

/-- The distance from one to the next larger double precision number. -/
def strictStep : α := 1 / Scalar.ofInt (Nat.pow 2 52)

/-- How far a value is beyond what a constraint allows; negative inside. -/
def excess (constraint : Constraint α) (tolerance value : α) : α :=
  match constraint.comparison with
  | .equal => Scalar.magnitude (value - constraint.target) - tolerance
  | .atMost => value - (constraint.target + tolerance)
  | .atLeast => (constraint.target - tolerance) - value
  | .below => value - (constraint.target - tolerance)
  | .above => (constraint.target + tolerance) - value

/-- Whether a comparison excludes its target. -/
def isStrict (constraint : Constraint α) : Bool :=
  constraint.comparison = .below || constraint.comparison = .above

/-- The magnitude by which a value violates a constraint, under a tolerance in force. -/
def magnitudeOf (constraint : Constraint α) (tolerance value : α) : α :=
  let own := constraint.toleranceOr tolerance
  let beyond := constraint.excess own value
  if beyond == 0 && own == 0 && constraint.isStrict then strictStep
  else Scalar.larger 0 beyond

/-- The magnitude by which an assignment violates a constraint. -/
def violation (tolerance : α) (assignment : Assignment α) (constraint : Constraint α) :
    Except (EvalFailure α) α :=
  (constraint.evaluate assignment).map (constraint.magnitudeOf tolerance)

/-- Whether an assignment satisfies a constraint. -/
def isSatisfied (tolerance : α) (assignment : Assignment α) (constraint : Constraint α) :
    Except (EvalFailure α) Bool :=
  (constraint.violation tolerance assignment).map (· == 0)

end Constraint

namespace Constraints

variable {α : Type} [Scalar α]

/-- Whether an assignment satisfies every constraint; the first that it misses decides. -/
def feasible (tolerance : α) (assignment : Assignment α) :
    List (Constraint α) → Except (EvalFailure α) Bool
  | [] => .ok true
  | constraint :: rest => do
    if ← constraint.isSatisfied tolerance assignment then feasible tolerance assignment rest
    else return false

/-- Add the magnitudes of violations to a total. -/
def totalFrom (tolerance : α) (assignment : Assignment α) :
    α → List (Constraint α) → Except (EvalFailure α) α
  | total, [] => .ok total
  | total, constraint :: rest => do
    let magnitude ← constraint.violation tolerance assignment
    totalFrom tolerance assignment (total + magnitude) rest

/-- The sum of the magnitudes of all violations. -/
def totalViolation (tolerance : α) (assignment : Assignment α)
    (constraints : List (Constraint α)) : Except (EvalFailure α) α :=
  totalFrom tolerance assignment 0 constraints

/-- The violation of a constraint by a magnitude. -/
def reported (constraint : Constraint α) (magnitude : α) : Violation α where
  identifier := constraint.identifier
  magnitude := magnitude
  severity := .ofMagnitude magnitude constraint.target
  reason := some (.missed constraint.name constraint.comparison constraint.target magnitude)

/-- Every violated constraint in order. -/
def violations (tolerance : α) (assignment : Assignment α) :
    List (Constraint α) → Except (EvalFailure α) (List (Violation α))
  | [] => .ok []
  | constraint :: rest => do
    let magnitude ← constraint.violation tolerance assignment
    let others ← violations tolerance assignment rest
    return if 0 < magnitude then reported constraint magnitude :: others else others

end Constraints

end Optima
