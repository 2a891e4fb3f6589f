import Optima.Routing.Decoding
import Optima.Scheduling.Decoding

namespace Optima

/-!
# Problems of any sort

A problem is a routing problem, a scheduling problem or one of neither sort, and
the kind that its document names decides which.
-/

/-- A problem of one of the three sorts. -/
inductive AnyProblem (α : Type) where
  | generic (problem : Problem α)
  | routing (problem : RoutingProblem α)
  | scheduling (problem : SchedulingProblem α)

namespace AnyProblem

variable {α : Type}

/-- What problems of every sort have. -/
def base : AnyProblem α → Problem α
  | .generic problem => problem
  | .routing problem => problem.toProblem
  | .scheduling problem => problem.toProblem

/-- The same problem with something changed that every sort has. -/
def mapBase (change : Problem α → Problem α) : AnyProblem α → AnyProblem α
  | .generic problem => .generic (change problem)
  | .routing problem => .routing { problem with toProblem := change problem.toProblem }
  | .scheduling problem => .scheduling { problem with toProblem := change problem.toProblem }

/-- The name of the sort. -/
def sortName : AnyProblem α → String
  | .generic _ => "Problem"
  | .routing _ => "RouteOptimizationProblem"
  | .scheduling _ => "SchedulingProblem"

/-- The names that expressions may read. -/
def knownNames : AnyProblem α → List String
  | .generic problem => problem.variableNames.eraseDups
  | .routing problem => (problem.variableNames ++ RoutingProblem.metricNames).eraseDups
  | .scheduling problem => (problem.variableNames ++ SchedulingProblem.metricNames).eraseDups

/-- Move a problem along its lifecycle. -/
def mark (problem : AnyProblem α) (next : Lifecycle) : Except MarkFailure (AnyProblem α) := do
  let marked ← problem.base.mark next
  return problem.mapBase fun base => { base with status := marked.status }

/-- Move a problem to a status given by its label. -/
def markLabel (problem : AnyProblem α) (status : String) : Except MarkFailure (AnyProblem α) := do
  let marked ← problem.base.markLabel status
  return problem.mapBase fun base => { base with status := marked.status }

/-- A problem as a document. -/
def toDocument : AnyProblem α → Document α
  | .generic problem => problem.toDocument
  | .routing problem => problem.toDocument
  | .scheduling problem => problem.toDocument

/-- A problem of the sort that its document names. -/
def decoder (closures : Closures) : Decoder (AnyProblem Float) :=
  fun place document => do
    match (document.field? "problem_type").bind Document.text? with
    | some "route_optimization" =>
      return (← RoutingProblem.decoder closures place document).map .routing
    | some "scheduling" =>
      return (← SchedulingProblem.decoder closures place document).map .scheduling
    | _ => return (← Problem.decoder closures place document).map .generic

end AnyProblem

/-!
## Validation

Before a solver runs, a problem is checked for what single fields cannot say:
repeated names, references to names that do not exist, empty domains, negative
weights and sizes beyond the configured limits.
-/

/-- Limits that problems are checked against. -/
structure ValidationLimits where
  maxVariables : Int
  maxConstraints : Int
  nonnegativeWeights : Bool
  deriving Repr, DecidableEq

namespace ValidationLimits

/-- The limits that hold unless configured otherwise. -/
def usual : ValidationLimits := ⟨100000, 100000, true⟩

end ValidationLimits

/-- A structural issue of a problem. -/
inductive StructuralIssue (α : Type) where
  | noObjectives
  | repeated (noun name : String)
  | tooMany (noun : String) (count : Nat) (limit : Int)
  | emptyDomain (name : String)
  | unknownReference (noun item name : String)
  | negativeWeight (name : String) (weight : α)
  deriving Repr

namespace StructuralIssue

/-- The message of an issue. -/
def message : StructuralIssue Float → String
  | .noObjectives => "problem has no objectives"
  | .repeated noun name => "duplicate " ++ noun ++ " '" ++ name ++ "'"
  | .tooMany noun count limit =>
    "too many " ++ noun ++ ": " ++ toString count ++ " (max: " ++ toString limit ++ ")"
  | .emptyDomain name => "integer variable '" ++ name ++ "' has an empty domain"
  | .unknownReference noun item name =>
    noun ++ " '" ++ item ++ "' references unknown variable '" ++ name ++ "'"
  | .negativeWeight name weight =>
    "objective '" ++ name ++ "' has negative weight " ++ Decimal.shortestText weight

end StructuralIssue

namespace Validation

variable {α : Type}

/-- The names that occur more than once, in the order of their first occurrence. -/
def repeatedNames (names : List String) : List String :=
  names.eraseDups.filter fun name => 1 < names.count name

/-- Every name that occurs more than once. -/
def repetitions (noun : String) (names : List String) : List (StructuralIssue α) :=
  (repeatedNames names).map (.repeated noun)

/-- A count above its limit. -/
def excesses (noun : String) (count : Nat) (limit : Int) : List (StructuralIssue α) :=
  if limit < count then [.tooMany noun count limit] else []

/-- The names that a rule reads and that are not known, in alphabetical order. -/
def unknownReferences (noun item : String) (rule : Rule α) (known : List String) :
    List (StructuralIssue α) :=
  match rule.names? with
  | none => []
  | some names =>
    ((names.filter fun name => !known.contains name).mergeSort fun a b => decide (a ≤ b)).map
      (.unknownReference noun item)

variable [Scalar α]

/-- The integer variables without a value between their bounds. -/
def emptyDomains : List (Variable α) → Except Breakdown (List (StructuralIssue α))
  | [] => .ok []
  | decision :: rest => do
    if decision.kind = .integer then
      let (lower, upper) ← decision.bounds Variable.usualBounds
      let others ← emptyDomains rest
      return if upper < lower then .emptyDomain decision.name :: others else others
    else emptyDomains rest

/-- Every structural issue of a problem. -/
def issues (limits : ValidationLimits) (problem : AnyProblem α) :
    Except Breakdown (List (StructuralIssue α)) := do
  let base := problem.base
  let objectives := if base.objectives.isEmpty then [StructuralIssue.noObjectives] else []
  let repeated :=
    repetitions "variable name" base.variableNames
      ++ repetitions "objective name" (base.objectives.map (·.name))
      ++ repetitions "constraint id" (base.constraints.map (·.identifier))
  let sizes :=
    excesses "variables" base.decisions.length limits.maxVariables
      ++ excesses "constraints" base.constraints.length limits.maxConstraints
  let domains ← emptyDomains base.decisions
  let known := problem.knownNames
  let references :=
    (base.objectives.flatMap fun objective =>
      unknownReferences "objective" objective.name objective.rule known)
      ++ base.constraints.flatMap fun constraint =>
        unknownReferences "constraint" constraint.name constraint.rule known
  let weights :=
    if limits.nonnegativeWeights then
      (base.objectives.filter fun objective => decide (objective.weight < 0)).map
        fun objective => .negativeWeight objective.name objective.weight
    else []
  return objectives ++ repeated ++ sizes ++ domains ++ references ++ weights

end Validation

end Optima
