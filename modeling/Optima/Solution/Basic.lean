import Optima.Comparison
import Optima.Document.Basic
import Optima.Failure
import Optima.Problem.Variable

namespace Optima

/-!
# Solutions

A solve ends with a status, and with values, violations and an account of the
search as far as the status allows.
-/

/-- How a solve ended. -/
inductive SolutionStatus where
  | optimal
  | feasible
  | infeasible
  | unbounded
  | timeLimit
  | iterationLimit
  | cancelled
  deriving Repr, DecidableEq

instance : Labelled SolutionStatus where
  all := [.optimal, .feasible, .infeasible, .unbounded, .timeLimit, .iterationLimit, .cancelled]
  label
    | .optimal => "optimal"
    | .feasible => "feasible"
    | .infeasible => "infeasible"
    | .unbounded => "unbounded"
    | .timeLimit => "time_limit"
    | .iterationLimit => "iteration_limit"
    | .cancelled => "cancelled"

/-- How grave a violation is. -/
inductive Severity where
  | low
  | medium
  | high
  | critical
  deriving Repr, DecidableEq

instance : Labelled Severity where
  all := [.low, .medium, .high, .critical]
  label
    | .low => "low"
    | .medium => "medium"
    | .high => "high"
    | .critical => "critical"

/-- Why something counts as violated. -/
inductive Reason (α : Type) where
  /-- A constraint misses its target. -/
  | missed (name : String) (comparison : Comparison) (target magnitude : α)
  /-- A bound leaves nothing of what other bounds allow. -/
  | contradictsBounds
  /-- The constraints have no value. -/
  | cannotEvaluate (error : EvalError α)
  /-- No vehicle can serve a location. -/
  | unservable
  /-- A task depends on itself, or on one that does. -/
  | cyclicTask
  /-- A task waits for tasks that are not placed. -/
  | blockedTask (prerequisites : List String)
  /-- A task cannot be placed. -/
  | noPlacement
  /-- All capacity together is below all demand; without suppliers there is no capacity at all. -/
  | capacityShort (capacity : Option α) (demand : α)
  /-- A reason that a document states. -/
  | stated (text : String)
  deriving Repr

namespace Reason

/-- The message of a reason. -/
def message : Reason Float → String
  | .missed name comparison target magnitude =>
    name ++ ": " ++ label comparison ++ " " ++ Decimal.shortestText target
      ++ " missed by " ++ Decimal.briefText 6 magnitude
  | .contradictsBounds => "contradicts other bound constraints"
  | .cannotEvaluate error => error.message
  | .unservable => "no vehicle can serve this location within its limits and time windows"
  | .cyclicTask => "task is part of (or waits on) a dependency cycle"
  | .blockedTask prerequisites =>
    "blocked by unscheduled prerequisites " ++ quotedList prerequisites
  | .noPlacement => "no resource combination satisfies skill, capacity and window constraints"
  | .capacityShort capacity demand =>
    "total capacity " ++ (capacity.map Decimal.shortestText).getD "0"
      ++ " is below total demand " ++ Decimal.shortestText demand
  | .stated text => text

end Reason

/-- A constraint, task or location that a solution does not satisfy. -/
structure Violation (α : Type) where
  identifier : String
  magnitude : α
  severity : Severity
  reason : Option (Reason α)
  deriving Repr

/-- The best that was known at an iteration. -/
structure ConvergencePoint (α : Type) where
  iteration : Int
  objectiveValue : α
  constraintViolation : α
  elapsed : α
  deriving Repr

/-- An account of the search. -/
structure SearchAccount (α : Type) where
  algorithm : String
  iterations : Int
  runtime : α
  history : List (ConvergencePoint α)
  /-- What only this strategy has to say. -/
  details : Table (Document α)
  deriving Repr

/-- Another assignment worth knowing. -/
structure Alternative (α : Type) where
  rank : Int
  objectiveValues : Table α
  variableValues : Table (Datum α)
  fitness : Option α
  constraintViolation : α
  /-- How many candidates it dominates. -/
  dominationCount : Int
  crowdingDistance : α
  deriving Repr

/-- What the weight of an objective is worth. -/
structure ObjectiveSensitivity (α : Type) where
  identifier : String
  shadowPrice : α
  allowableIncrease : Option α
  allowableDecrease : Option α
  deriving Repr

/-- What the target of a constraint is worth, and how far it may move. -/
structure ConstraintSensitivity (α : Type) where
  identifier : String
  shadowPrice : α
  slack : α
  allowableIncrease : Option α
  allowableDecrease : Option α
  deriving Repr

/-- What moving a variable costs, and how far it may move. -/
structure VariableSensitivity (α : Type) where
  identifier : String
  reducedCost : α
  allowableIncrease : Option α
  allowableDecrease : Option α
  deriving Repr

/-- Prices and ranges around a solution. -/
structure Sensitivity (α : Type) where
  objectives : List (ObjectiveSensitivity α)
  constraints : List (ConstraintSensitivity α)
  decisions : List (VariableSensitivity α)
  deriving Repr

namespace Sensitivity

/-- Nothing to say. -/
def empty {α : Type} : Sensitivity α := ⟨[], [], []⟩

end Sensitivity

/-- The result of a solve. -/
structure Solution (α : Type) where
  problem : String
  status : SolutionStatus
  objectiveValues : Table α
  variableValues : Table (Datum α)
  violations : List (Violation α)
  account : SearchAccount α
  alternatives : List (Alternative α)
  sensitivity : Sensitivity α
  deriving Repr

namespace Solution

variable {α : Type}

/-- A solution that has an account of the search and nothing else. -/
def bare (problem : String) (status : SolutionStatus) (account : SearchAccount α) : Solution α where
  problem := problem
  status := status
  objectiveValues := {}
  variableValues := {}
  violations := []
  account := account
  alternatives := []
  sensitivity := .empty

/-- Whether the solution is known to be the best. -/
def isOptimal (solution : Solution α) : Bool :=
  solution.status = .optimal

/-- Whether the solution carries an assignment without violations. -/
def isFeasible (solution : Solution α) : Bool :=
  solution.status != .infeasible && solution.status != .unbounded
    && solution.status != .cancelled && solution.violations.isEmpty

end Solution

end Optima
