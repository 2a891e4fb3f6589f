import Optima.Backtracking.Solve
import Optima.Evolution.Genetic
import Optima.Evolution.Pareto
import Optima.Linear.Solve
import Optima.Problem.Any
import Optima.Random.Source
import Optima.Routing.Solve
import Optima.Scheduling.Solve
import Optima.Strategy.Settings

namespace Optima

/-!
# Strategies at work

How a problem is solved with a strategy, and how the strategy is chosen.
-/

/-!
## Solving with a strategy

A strategy takes its parameters from its settings and the problem.  Routing and
scheduling need a problem of their own sort; the other strategies take what is
common to all sorts.
-/

namespace Algorithm

variable {α : Type}

/-- The name of the sort of problem that a strategy is made for, if it is made for one. -/
def requiredSort? : Algorithm → Option String
  | .routing => some "RouteOptimizationProblem"
  | .scheduling => some "SchedulingProblem"
  | _ => none

/-- What a strategy misses in a problem, if it is not of the sort that the strategy needs. -/
def misfit? (algorithm : Algorithm) (problem : AnyProblem α) : Option String :=
  match algorithm.requiredSort? with
  | none => none
  | some sort =>
    if problem.sortName == sort then none
    else some (label algorithm ++ " needs a " ++ sort)

end Algorithm

/-- Why a strategy gives no solution. -/
inductive StrategyFailure (α : Type) where
  /-- Its parameters are not well formed. -/
  | misconfigured (issues : List Issue)
  | failed (failure : SolveFailure α)

namespace Strategy

variable {α : Type} [Scalar α] [Elementary α]

/-- Solve a problem with the parameters of a strategy. -/
def run (γ : Type) [SeededSource γ α] (parameters : Parameters α) (problem : AnyProblem α)
    (watch : Watch α) : Except (SolveFailure α) (Solution α) :=
  match parameters, problem with
  | .backtracking given, _ => Backtracking.solve γ problem.base given watch
  | .genetic given, _ => Genetic.solve γ problem.base given watch
  | .pareto given, _ => Pareto.solve γ problem.base given watch
  | .linearProgramming given, _ => LinearProgramming.solve problem.base given watch
  | .routing given, .routing routing => Routing.solve routing given watch
  | .scheduling given, .scheduling scheduling => Scheduling.solve scheduling given watch
  | _, _ => .error (.invalid (parameters.algorithm.misfit? problem).toList)

/-- The parameters of a strategy for a problem. -/
def parametersFor (algorithm : Algorithm) (settings : Settings) (problem : AnyProblem Float) :
    Except (StrategyFailure Float) (Parameters Float) :=
  (settings.resolve algorithm problem.base.parameters).mapError .misconfigured

/-- Solve a problem with a strategy and its settings. -/
def solve (algorithm : Algorithm) (settings : Settings) (problem : AnyProblem Float)
    (watch : Watch Float) : Except (StrategyFailure Float) (Solution Float) := do
  match algorithm.misfit? problem with
  | some issue => .error (.failed (.invalid [issue]))
  | none =>
    let parameters ← parametersFor algorithm settings problem
    (run MixingGenerator parameters problem watch).mapError .failed

end Strategy

/-!
## Choosing a strategy

A strategy is asked for by name, or named by the parameters that a problem carries,
or suggested by the kind of the problem, or the configured one.  Routing and
scheduling problems go with their own strategies only.
-/

namespace ProblemKind

/-- The strategy that a kind of problem suggests. -/
def suggested? : ProblemKind → Option Algorithm
  | .constraintSatisfaction => some .backtracking
  | .multiObjective => some .pareto
  | .resourceAllocation => some .linearProgramming
  | .routeOptimization => some .routing
  | .scheduling => some .scheduling
  | .geneticAlgorithm => none

end ProblemKind

/-- Why no strategy is chosen. -/
inductive SelectionFailure where
  | unsuitable (issue : String)
  /-- The configured strategy does not exist. -/
  | unknownDefault (name : String)
  deriving Repr, DecidableEq

namespace Selection

variable {α : Type}

/-- The message on a strategy that does not exist. -/
def unknownMessage (name : String) : String :=
  "unknown algorithm '" ++ name ++ "' (available: "
    ++ ", ".intercalate ((Labelled.all (β := Algorithm)).map label) ++ ")"

/-- The strategy of the sort of a problem, if it has one of its own. -/
def ownStrategy? : AnyProblem α → Option Algorithm
  | .generic _ => none
  | .routing _ => some .routing
  | .scheduling _ => some .scheduling

/-- What speaks against a strategy for a problem. -/
def objection? (problem : AnyProblem α) (selected : Algorithm) : Option String :=
  match selected.misfit? problem, ownStrategy? problem with
  | some issue, _ => some (issue ++ ", got " ++ problem.sortName)
  | none, none => none
  | none, some own =>
    if own = selected then none
    else some (problem.sortName ++ " can only be solved with " ++ label own ++ ", not "
      ++ label selected)

/-- The strategy that is wanted for a problem. -/
def wanted (defaultName : String) (problem : AnyProblem α) (requested? : Option String) :
    Except SelectionFailure Algorithm :=
  match requested? with
  | some name =>
    match Labelled.ofLabel? (Letters.lower name) with
    | some algorithm => .ok algorithm
    | none => .error (.unsuitable (unknownMessage name))
  | none =>
    match problem.base.parameters, problem.base.kind.suggested? with
    | some given, _ => .ok given.parameters.algorithm
    | none, some algorithm => .ok algorithm
    | none, none =>
      match Labelled.ofLabel? defaultName with
      | some algorithm => .ok algorithm
      | none => .error (.unknownDefault defaultName)

/-- Choose the strategy for a problem. -/
def choose (defaultName : String) (problem : AnyProblem α) (requested? : Option String) :
    Except SelectionFailure Algorithm := do
  let selected ← wanted defaultName problem requested?
  match objection? problem selected with
  | none => return selected
  | some issue => .error (.unsuitable issue)

end Selection

end Optima
