import Optima.Problem.Basic
import Optima.Problem.Goal
import Optima.Solution.Basic

namespace Optima

/-!
# Sensitivity

Prices and ranges around an assignment, in units of the weighted cost.  Prices are
estimated from finite differences; a constraint that is not binding has no price
but a range in which its target may move.
-/

namespace Constraint

variable {α : Type} [Scalar α]

/-- Distance of a value from the target in the direction that a constraint allows. -/
def slackOf (constraint : Constraint α) (value tolerance : α) : α :=
  match constraint.comparison with
  | .equal =>
    let residual := Scalar.magnitude (value - constraint.target)
    if residual ≤ tolerance then 0 else -residual
  | .atMost | .below => constraint.target - value
  | .atLeast | .above => value - constraint.target

/-- How far the target may go up and down while there is slack. -/
def slackRanges (constraint : Constraint α) (slack : α) : α × α :=
  match constraint.comparison with
  | .atMost | .below => (Scalar.infinity, Scalar.larger slack 0)
  | .equal | .atLeast | .above => (Scalar.larger slack 0, Scalar.infinity)

/-- The account of a constraint that has slack and no price. -/
def withSlack (constraint : Constraint α) (slack : α) : ConstraintSensitivity α :=
  let (increase, decrease) := constraint.slackRanges slack
  ⟨constraint.identifier, 0, slack, some increase, some decrease⟩

end Constraint

namespace Sensitivity

variable {α : Type} [Scalar α]

/-- The price of each objective's weight: its value, turned so that lower is better. -/
def ofObjectives (objectives : List (Objective α)) (values : Table α) :
    List (ObjectiveSensitivity α) :=
  objectives.map fun objective =>
    ⟨objective.identifier, -objective.sense * Objectives.valueOf values objective,
      none, none⟩

/-- The slack of every constraint on given metrics. -/
def slacksOn (tolerance : α) (metrics : Assignment α) :
    List (Constraint α) → Except (EvalFailure α) (List (ConstraintSensitivity α))
  | [] => .ok []
  | constraint :: rest => do
    let value ← constraint.evaluate metrics
    let others ← slacksOn tolerance metrics rest
    let slack := constraint.slackOf value (constraint.toleranceOr tolerance)
    return constraint.withSlack slack :: others

/-- Prices and slacks of a plan that is judged by metrics; no price of a constraint exists. -/
def ofMetrics (problem : Problem α) (metrics : Assignment α) (tolerance : α) :
    Except (EvalFailure α) (Sensitivity α) := do
  let values ← Objectives.values problem.objectives metrics
  let constraints ← slacksOn tolerance metrics problem.constraints
  return ⟨ofObjectives problem.objectives values, constraints, []⟩

/-- The number that a name is bound to, as arithmetic needs it. -/
def numberAt (assignment : Assignment α) (name : String) : Except Breakdown α :=
  match assignment.get? name with
  | some (.number value) => .ok value
  | some (.text _) => .error .notANumber
  | some (.unusable breakdown) => .error breakdown
  | none => .error (.missingName name)

/-- The ends of the probe around a value, which stays within an interval. -/
def probe (decision : Variable α) (step value : α) (interval : α × α) : α × α :=
  let width :=
    if decision.isDiscrete then 1 else step * Scalar.larger 1 (Scalar.magnitude value)
  (Scalar.smaller (value + width) interval.2, Scalar.larger (value - width) interval.1)

/-- The slope of a function along one variable; zero where the probe fails or has no width. -/
def slope (function : Assignment α → Except (EvalFailure α) α) (assignment : Assignment α)
    (defaultBounds : α × α) (step : α) (decision : Variable α) : Except Breakdown α := do
  if decision.kind = .categorical then return 0
  else
    let interval ← decision.bounds defaultBounds
    let value ← numberAt assignment decision.name
    let (up, down) := probe decision step value interval
    if up ≤ down then return 0
    else
      match function (assignment.insert decision.name (.number up)) with
      | .error (.rejected _) => return 0
      | .error (.broken breakdown) => .error breakdown
      | .ok above =>
        match function (assignment.insert decision.name (.number down)) with
        | .error (.rejected _) => return 0
        | .error (.broken breakdown) => .error breakdown
        | .ok below => return (above - below) / (up - down)

/-- The slopes of a function along all variables. -/
def gradientInto (function : Assignment α → Except (EvalFailure α) α)
    (assignment : Assignment α) (defaultBounds : α × α) (step : α) :
    Table α → List (Variable α) → Except Breakdown (Table α)
  | slopes, [] => .ok slopes
  | slopes, decision :: rest => do
    let value ← slope function assignment defaultBounds step decision
    gradientInto function assignment defaultBounds step (slopes.insert decision.name value) rest

/-- The slope at a name. -/
def slopeAt (gradient : Table α) (name : String) : α :=
  (gradient.get? name).getD 0

/-- The square of the length of a gradient. -/
def normSquared (gradient : Table α) : α :=
  Scalar.total (gradient.values.map fun slope => slope * slope)

/-- The inner product of two gradients. -/
def innerProduct (first second : Table α) : α :=
  Scalar.total (second.entries.map fun entry => slopeAt first entry.1 * entry.2)

/-- A constraint with a price, and the gradient of its left-hand side. -/
structure Binding (α : Type) where
  price : α
  gradient : Table α

/-- Prices around an assignment are taken with these settings. -/
structure Probing (α : Type) where
  tolerance : α
  defaultBounds : α × α
  /-- Share of a value by which a real variable is moved. -/
  step : α

/-- The share by which real variables are moved unless told otherwise. -/
def usualStep : α := Scalar.decimal 1 4

/-- The account of one constraint, and its price and gradient where it is binding. -/
def ofConstraint (problem : Problem α) (probing : Probing α) (assignment : Assignment α)
    (costGradient : Table α) (constraint : Constraint α) :
    Except (EvalFailure α) (ConstraintSensitivity α × Option (Binding α)) := do
  let value ← constraint.evaluate assignment
  let tolerance :=
    Scalar.larger (constraint.toleranceOr probing.tolerance) (Scalar.decimal 1 9)
  let slack := constraint.slackOf value tolerance
  let isBinding := constraint.comparison = .equal || Scalar.magnitude slack ≤ tolerance
  if !isBinding then return (constraint.withSlack slack, none)
  else
    let gradient ← (gradientInto (fun other => constraint.evaluate other) assignment
      probing.defaultBounds probing.step {} problem.decisions).mapError .broken
    let norm := normSquared gradient
    if 0 < norm then
      let price := innerProduct costGradient gradient / norm
      return (⟨constraint.identifier, price, slack, none, none⟩,
        some ⟨price, gradient⟩)
    else return (⟨constraint.identifier, 0, slack, none, none⟩, none)

/-- The accounts of constraints, and the binding ones among them. -/
def ofConstraints (problem : Problem α) (probing : Probing α) (assignment : Assignment α)
    (costGradient : Table α) : List (Constraint α) →
      Except (EvalFailure α) (List (ConstraintSensitivity α) × List (Binding α))
  | [] => .ok ([], [])
  | constraint :: rest => do
    let (account, binding?) ← ofConstraint problem probing assignment costGradient constraint
    let (accounts, bindings) ← ofConstraints problem probing assignment costGradient rest
    return (account :: accounts, binding?.toList ++ bindings)

/-- The account of a variable, given the binding constraints. -/
def ofVariable (probing : Probing α) (assignment : Assignment α) (costGradient : Table α)
    (bindings : List (Binding α)) (decision : Variable α) :
    Except Breakdown (VariableSensitivity α) := do
  let share := Scalar.total (bindings.map fun binding =>
    binding.price * slopeAt binding.gradient decision.name)
  let reduced := slopeAt costGradient decision.name - share
  if decision.kind = .categorical then
    return ⟨decision.identifier, reduced, none, none⟩
  else
    let (lower, upper) ← decision.bounds probing.defaultBounds
    let value ← numberAt assignment decision.name
    return ⟨decision.identifier, reduced, some (Scalar.larger (upper - value) 0),
      some (Scalar.larger (value - lower) 0)⟩

/-- The accounts of variables. -/
def ofVariables (probing : Probing α) (assignment : Assignment α) (costGradient : Table α)
    (bindings : List (Binding α)) :
    List (Variable α) → Except Breakdown (List (VariableSensitivity α))
  | [] => .ok []
  | decision :: rest => do
    let account ← ofVariable probing assignment costGradient bindings decision
    let others ← ofVariables probing assignment costGradient bindings rest
    return account :: others

/-- Prices and ranges around an assignment. -/
def around (problem : Problem α) (probing : Probing α) (assignment : Assignment α) :
    Except (EvalFailure α) (Sensitivity α) := do
  let values ← Objectives.values problem.objectives assignment
  let costGradient ← (gradientInto (Objectives.costOf problem.objectives) assignment
    probing.defaultBounds probing.step {} problem.decisions).mapError .broken
  let (constraints, bindings) ←
    ofConstraints problem probing assignment costGradient problem.constraints
  let decisions ←
    (ofVariables probing assignment costGradient bindings problem.decisions).mapError .broken
  return ⟨ofObjectives problem.objectives values, constraints, decisions⟩

end Sensitivity

end Optima
