import Optima.Problem.Goal
import Optima.Problem.Parameters
import Optima.Problem.Variable

namespace Optima

/-!
# Problems

A problem has variables, objectives and constraints, may carry parameters for a
strategy, and goes through a lifecycle: it waits, runs, and ends completed or
failed.
-/

/-- What a problem is about; it decides which strategy is used. -/
inductive ProblemKind where
  | constraintSatisfaction
  | geneticAlgorithm
  | multiObjective
  | resourceAllocation
  | routeOptimization
  | scheduling
  deriving Repr, DecidableEq

instance : Labelled ProblemKind where
  all := [.constraintSatisfaction, .geneticAlgorithm, .multiObjective, .resourceAllocation,
    .routeOptimization, .scheduling]
  label
    | .constraintSatisfaction => "constraint_satisfaction"
    | .geneticAlgorithm => "genetic_algorithm"
    | .multiObjective => "multi_objective"
    | .resourceAllocation => "resource_allocation"
    | .routeOptimization => "route_optimization"
    | .scheduling => "scheduling"

/-- Where a problem is in its lifecycle. -/
inductive Lifecycle where
  | pending
  | running
  | completed
  | failed
  deriving Repr, DecidableEq

instance : Labelled Lifecycle where
  all := [.pending, .running, .completed, .failed]
  label
    | .pending => "pending"
    | .running => "running"
    | .completed => "completed"
    | .failed => "failed"

namespace Lifecycle

/-- The steps of the lifecycle. -/
def mayBecome : Lifecycle → Lifecycle → Bool
  | .pending, .running => true
  | .running, .completed => true
  | .running, .failed => true
  | _, _ => false

end Lifecycle

/-- Why a problem is not moved along its lifecycle. -/
inductive MarkFailure where
  | unknown (status : String)
  | notAllowed (current next : Lifecycle)
  deriving Repr, DecidableEq

namespace MarkFailure

/-- The message of a refused step. -/
def message : MarkFailure → String
  | .unknown status => quoted status ++ " is not a valid ProblemStatus"
  | .notAllowed current next =>
    "Invalid status transition " ++ label current ++ " -> " ++ label next

end MarkFailure

/-- An optimization problem. -/
structure Problem (α : Type) where
  identifier : String
  name : String
  kind : ProblemKind
  description : String
  objectives : List (Objective α)
  constraints : List (Constraint α)
  decisions : List (Variable α)
  parameters : Option (GivenParameters α)
  status : Lifecycle

namespace Problem

variable {α : Type}

/-- The names of the variables. -/
def variableNames (problem : Problem α) : List String :=
  problem.decisions.map (·.name)

/-- The first variable of a name. -/
def variableNamed? (problem : Problem α) (name : String) : Option (Variable α) :=
  problem.decisions.find? (·.name == name)

/-- Move a problem along its lifecycle. -/
def mark (problem : Problem α) (next : Lifecycle) : Except MarkFailure (Problem α) :=
  if problem.status.mayBecome next then .ok { problem with status := next }
  else .error (.notAllowed problem.status next)

/-- Move a problem to a status given by its label. -/
def markLabel (problem : Problem α) (status : String) : Except MarkFailure (Problem α) :=
  match Labelled.ofLabel? status with
  | some next => problem.mark next
  | none => .error (.unknown status)

end Problem

end Optima
