import Optima.Problem.Feasibility
import Optima.Problem.Goal
import Optima.Problem.Propagation
import Optima.Ranking.Fronts
import Optima.Scalar.Basic

namespace Optima

/-!
# Candidates

The searches over decision variables work on vectors of numbers, one for each
variable in order.  A candidate that has no value counts as infinitely bad; it
does not end the search.
-/

/-- The search space of a problem. -/
structure Candidates (α : Type) where
  problem : Problem α
  tolerance : α
  reduction : Reduction α

/-- What a candidate is worth. -/
structure Evaluation (α : Type) where
  objectiveValues : Table α
  violation : α
  /-- The weighted sum of the objectives, for which higher is better. -/
  score : α
  deriving Repr

namespace Evaluation

variable {α : Type} [Scalar α]

/-- Whether a candidate violates nothing. -/
def isFeasible (evaluation : Evaluation α) : Bool :=
  evaluation.violation == 0

end Evaluation

namespace Candidates

variable {α : Type}

/-- The names of the variables in order. -/
def names (candidates : Candidates α) : List String :=
  candidates.problem.variableNames

/-- Number of variables. -/
def size (candidates : Candidates α) : Nat :=
  candidates.problem.decisions.length

variable [Scalar α]

/-- The search space of a problem, its intervals tightened by the bounds among the constraints. -/
def ofProblem (problem : Problem α) (defaultBounds : α × α) (tolerance : α) :
    Except (EvalFailure α) (Candidates α) := do
  return ⟨problem, tolerance, ← Propagation.reduce problem defaultBounds tolerance⟩

/-- The intervals of the variables in order. -/
def bounds (candidates : Candidates α) : List (α × α) :=
  candidates.names.map fun name => (candidates.reduction.boundsOf? name).getD (0, 0)

/-- The lower ends of the intervals. -/
def lower (candidates : Candidates α) : List α :=
  candidates.bounds.map (·.1)

/-- The upper ends of the intervals. -/
def upper (candidates : Candidates α) : List α :=
  candidates.bounds.map (·.2)

/-- Which variables take separate values only. -/
def discrete (candidates : Candidates α) : List Bool :=
  candidates.problem.decisions.map (·.isDiscrete)

/-- The assignment that a vector is. -/
def assignment (candidates : Candidates α) (vector : List α) : Assignment α :=
  Table.ofList ((candidates.names.zip vector).map fun entry => (entry.1, .number entry.2))

/-- The values that a vector stands for, categories by name. -/
def decode (candidates : Candidates α) (vector : List α) :
    Except Breakdown (Table (Datum α)) := do
  let values ← (candidates.problem.decisions.zip vector).mapM fun (decision, value) => do
    return (decision.name, ← decision.decode value)
  return Table.ofList values

/-- One component moved into its interval, and to a whole number where the variable is discrete. -/
def repairOne (interval : α × α) (isDiscrete : Bool) (value : α) : α :=
  let clipped := Scalar.clip value interval.1 interval.2
  if isDiscrete then Scalar.nearest clipped else clipped

/-- Repair the components of a vector one by one. -/
def repairAll : List ((α × α) × Bool) → List α → List α
  | (interval, isDiscrete) :: rest, value :: others =>
    repairOne interval isDiscrete value :: repairAll rest others
  | _, _ => []

/-- A vector moved into the search space. -/
def repair (candidates : Candidates α) (vector : List α) : List α :=
  repairAll (candidates.bounds.zip candidates.discrete) vector

/-- The repaired vector of the initial values, if every variable has one. -/
def initial? (candidates : Candidates α) : Except Breakdown (Option (List α)) := do
  let values? := candidates.problem.decisions.mapM fun decision =>
    decision.initial.map fun initial => (decision, initial)
  match values? with
  | none => return none
  | some values =>
    let encoded ← values.mapM fun (decision, initial) => decision.encode initial
    return some (candidates.repair encoded)

/-- The values of a variable at which one constraint switches. -/
def switches (tolerance : α) (constraint : Constraint α) (term : SingleTerm α) : List α :=
  let threshold := constraint.threshold term
  if constraint.isStrict then
    let margin := constraint.toleranceOr tolerance
    let width := Scalar.two * margin / Scalar.magnitude term.coefficient
    let step := if width == 0 then Scalar.slack else width
    [threshold - step, threshold + step]
  else [threshold]

/-- The values at which the constraints on a single variable switch. -/
def thresholdsOf (tolerance : α) (name : String) :
    List (Constraint α) → Except (EvalFailure α) (List α)
  | [] => .ok []
  | constraint :: rest => do
    let term? ← constraint.singleTerm?
    let others ← thresholdsOf tolerance name rest
    match term? with
    | none => return others
    | some term =>
      if term.name == name then return switches tolerance constraint term ++ others
      else return others

/-- The values of a variable at which constraints on it alone switch. -/
def thresholds (candidates : Candidates α) (name : String) : Except (EvalFailure α) (List α) :=
  thresholdsOf candidates.tolerance name candidates.problem.constraints

/-- The lower corner with one component moved onto each of its thresholds. -/
def thresholdVectors (candidates : Candidates α) : Except (EvalFailure α) (List (List α)) := do
  let corner := candidates.lower
  let vectors ← (candidates.names.zipIdx.zip candidates.bounds).mapM
    fun ((name, position), interval) => do
      let thresholds ← candidates.thresholds name
      return (thresholds.filter fun value => Scalar.within value interval.1 interval.2).map
        fun value => candidates.repair (corner.set position value)
  return vectors.flatten

/-- What a candidate without a value is worth. -/
def worst (objectives : List (Objective α)) : Evaluation α where
  objectiveValues := Table.ofList (objectives.map fun objective =>
    (objective.name, -objective.sense * Scalar.infinity))
  violation := Scalar.infinity
  score := -Scalar.infinity

/-- What an assignment is worth. -/
def evaluateOn (candidates : Candidates α) (assignment : Assignment α) :
    Except (EvalFailure α) (Evaluation α) := do
  let values ← Objectives.values candidates.problem.objectives assignment
  let violation ←
    Constraints.totalViolation candidates.tolerance assignment candidates.problem.constraints
  return ⟨values, violation, Objectives.score candidates.problem.objectives values⟩

/-- What a vector is worth. -/
def evaluate (candidates : Candidates α) (vector : List α) : Except Breakdown (Evaluation α) :=
  match candidates.evaluateOn (candidates.assignment vector) with
  | .ok evaluation => .ok evaluation
  | .error (.rejected _) => .ok (worst candidates.problem.objectives)
  | .error (.broken breakdown) => .error breakdown

/-- What the constraints say of a vector; without values they are violated altogether. -/
def violations (candidates : Candidates α) (vector : List α) :
    Except Breakdown (List (Violation α)) :=
  match Constraints.violations candidates.tolerance (candidates.assignment vector)
      candidates.problem.constraints with
  | .ok violations => .ok violations
  | .error (.rejected error) =>
    .ok [⟨"evaluation", Scalar.infinity, .critical, some (.cannotEvaluate error)⟩]
  | .error (.broken breakdown) => .error breakdown

/-- The objectives of a candidate, each turned so that lower is better. -/
def minimizationVector (candidates : Candidates α) (evaluation : Evaluation α) : List α :=
  Objectives.minimizationVector candidates.problem.objectives evaluation.objectiveValues

/-- What candidates are compared by. -/
def standing (candidates : Candidates α) (evaluation : Evaluation α) : Standing α :=
  ⟨candidates.minimizationVector evaluation, evaluation.violation⟩

/-- A score in the direction of the primary objective. -/
def traceValue (candidates : Candidates α) (score : α) : Except Breakdown α :=
  match Objectives.primary? candidates.problem.objectives with
  | none => .error .notInList
  | some primary => .ok (if 0 < primary.sense then score else -score)

end Candidates

end Optima
