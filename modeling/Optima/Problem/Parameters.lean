import Optima.Label
import Optima.Scalar.Basic

namespace Optima

/-!
# Parameters of the strategies

Six strategies solve problems.  Their parameters share the limits, the seed and a
few settings, and each adds its own.
-/

/-- A strategy for solving problems. -/
inductive Algorithm where
  | backtracking
  | genetic
  | pareto
  | linearProgramming
  | routing
  | scheduling
  deriving Repr, DecidableEq

instance : Labelled Algorithm where
  all := [.backtracking, .genetic, .pareto, .linearProgramming, .routing, .scheduling]
  label
    | .backtracking => "backtracking"
    | .genetic => "genetic"
    | .pareto => "pareto"
    | .linearProgramming => "linear_programming"
    | .routing => "routing"
    | .scheduling => "scheduling"

/-- What a search watches to find that it has settled. -/
inductive ConvergenceKind where
  | objectiveChange
  | variableChange
  | iterationLimit
  deriving Repr, DecidableEq

instance : Labelled ConvergenceKind where
  all := [.objectiveChange, .variableChange, .iterationLimit]
  label
    | .objectiveChange => "objective_change"
    | .variableChange => "variable_change"
    | .iterationLimit => "iteration_limit"

/-- When a search counts as settled. -/
structure Convergence (α : Type) where
  kind : ConvergenceKind
  threshold : α
  /-- Number of successive iterations that have to change little. -/
  window : Nat
  deriving Repr

/-- How candidates would be evaluated side by side; results do not depend on it. -/
inductive ParallelStrategy where
  | masterSlave
  | islandModel
  | cellular
  deriving Repr, DecidableEq

instance : Labelled ParallelStrategy where
  all := [.masterSlave, .islandModel, .cellular]
  label
    | .masterSlave => "master_slave"
    | .islandModel => "island_model"
    | .cellular => "cellular"

/-- A hint on evaluating candidates side by side. -/
structure Parallelization where
  enabled : Bool
  threads : Nat
  strategy : ParallelStrategy
  deriving Repr, DecidableEq

/-- Parameters that every strategy has. -/
structure SharedParameters (α : Type) where
  maxIterations : Nat
  tolerance : α
  /-- Limit on the time of a solve; none disables it. -/
  timeLimit : Option α
  seed : Option Int
  convergence : Convergence α
  parallelization : Parallelization
  /-- Interval for numeric variables without bounds. -/
  defaultBounds : α × α
  deriving Repr

/-- The order in which backtracking tries the values of a variable. -/
inductive ValueOrdering where
  | ascending
  | descending
  | random
  deriving Repr, DecidableEq

instance : Labelled ValueOrdering where
  all := [.ascending, .descending, .random]
  label
    | .ascending => "ascending"
    | .descending => "descending"
    | .random => "random"

/-- Parameters of backtracking. -/
structure BacktrackingParameters (α : Type) extends SharedParameters α where
  valueOrdering : ValueOrdering
  /-- Number of grid points of a real interval. -/
  gridSteps : Nat
  /-- Whether to look for the best assignment in place of the first. -/
  exhaustive : Bool
  deriving Repr

/-- Parameters of the evolutionary strategies. -/
structure GeneticParameters (α : Type) extends SharedParameters α where
  populationSize : Nat
  crossoverRate : α
  mutationRate : α
  elitismRate : α
  tournamentSize : Nat
  /-- Spread of a mutation as a share of the interval. -/
  mutationScale : α
  /-- Factor by which the spread shrinks from one generation to the next. -/
  mutationDecay : α
  penaltyCoefficient : α
  alternativesCount : Nat
  deriving Repr

/-- Parameters of linear programming. -/
structure LinearProgrammingParameters (α : Type) extends SharedParameters α where
  /-- Whether demand may stay unmet, at a penalty. -/
  allowPartial : Bool
  unmetPenalty : α
  deriving Repr

/-- Parameters of routing. -/
structure RoutingParameters (α : Type) extends SharedParameters α where
  localSearch : Bool
  /-- Distance per time unit where no travel times are given. -/
  averageSpeed : α
  deriving Repr

/-- Parameters of scheduling. -/
structure SchedulingParameters (α : Type) extends SharedParameters α where
  /-- Number of resources tried for a requirement. -/
  maxCandidates : Nat
  deriving Repr

/-- The parameters of one strategy. -/
inductive Parameters (α : Type) where
  | backtracking (value : BacktrackingParameters α)
  | genetic (value : GeneticParameters α)
  | pareto (value : GeneticParameters α)
  | linearProgramming (value : LinearProgrammingParameters α)
  | routing (value : RoutingParameters α)
  | scheduling (value : SchedulingParameters α)
  deriving Repr

namespace Parameters

variable {α : Type}

/-- The strategy that parameters are for. -/
def algorithm : Parameters α → Algorithm
  | .backtracking _ => .backtracking
  | .genetic _ => .genetic
  | .pareto _ => .pareto
  | .linearProgramming _ => .linearProgramming
  | .routing _ => .routing
  | .scheduling _ => .scheduling

/-- The parameters that every strategy has. -/
def shared : Parameters α → SharedParameters α
  | .backtracking value => value.toSharedParameters
  | .genetic value => value.toSharedParameters
  | .pareto value => value.toSharedParameters
  | .linearProgramming value => value.toSharedParameters
  | .routing value => value.toSharedParameters
  | .scheduling value => value.toSharedParameters

/-- The same parameters with other shared ones. -/
def withShared (parameters : Parameters α) (shared : SharedParameters α) : Parameters α :=
  match parameters with
  | .backtracking value => .backtracking { value with toSharedParameters := shared }
  | .genetic value => .genetic { value with toSharedParameters := shared }
  | .pareto value => .pareto { value with toSharedParameters := shared }
  | .linearProgramming value => .linearProgramming { value with toSharedParameters := shared }
  | .routing value => .routing { value with toSharedParameters := shared }
  | .scheduling value => .scheduling { value with toSharedParameters := shared }

end Parameters

/-- Parameters, and the names of those that were set and not left at their defaults. -/
structure GivenParameters (α : Type) where
  parameters : Parameters α
  given : List String
  deriving Repr

namespace SharedParameters

/-- The names of the parameters that every strategy has. -/
def fieldNames : List String :=
  ["max_iterations", "tolerance", "time_limit", "seed", "convergence", "parallelization",
   "default_bounds"]

variable {α : Type} [Scalar α]

/-- The parameters that hold where none are given. -/
def usual (maxIterations : Nat) : SharedParameters α where
  maxIterations := maxIterations
  tolerance := Scalar.decimal 1 6
  timeLimit := some (Scalar.ofInt 300)
  seed := none
  convergence := ⟨.objectiveChange, Scalar.decimal 1 6, 10⟩
  parallelization := ⟨false, 1, .masterSlave⟩
  defaultBounds := (0, Scalar.ofInt 100)

end SharedParameters

namespace GeneticParameters

variable {α : Type} [Scalar α]

/-- The parameters of an evolutionary strategy that hold where none are given. -/
def usual (maxIterations : Nat) : GeneticParameters α where
  toSharedParameters := .usual maxIterations
  populationSize := 100
  crossoverRate := Scalar.decimal 8 1
  mutationRate := Scalar.decimal 1 1
  elitismRate := Scalar.decimal 1 1
  tournamentSize := 3
  mutationScale := Scalar.decimal 1 1
  mutationDecay := Scalar.decimal 98 2
  penaltyCoefficient := Scalar.ofInt 1000
  alternativesCount := 5

end GeneticParameters

namespace Parameters

variable {α : Type} [Scalar α]

/-- The iterations that a strategy takes at most unless told otherwise. -/
def usualIterations : Algorithm → Nat
  | .pareto => 200
  | _ => 1000

/-- The parameters of a strategy that hold where none are given. -/
def usual (algorithm : Algorithm) : Parameters α :=
  let shared : SharedParameters α := .usual (usualIterations algorithm)
  match algorithm with
  | .backtracking => .backtracking ⟨shared, .ascending, 101, false⟩
  | .genetic => .genetic (.usual (usualIterations algorithm))
  | .pareto => .pareto (.usual (usualIterations algorithm))
  | .linearProgramming => .linearProgramming ⟨shared, false, Scalar.ofInt 1000000⟩
  | .routing => .routing ⟨shared, true, Scalar.ofInt 50⟩
  | .scheduling => .scheduling ⟨shared, 3⟩

end Parameters

namespace GivenParameters

variable {α : Type}

/-- The same parameters with a seed. -/
def withSeed (given : GivenParameters α) (seed : Int) : GivenParameters α where
  parameters :=
    given.parameters.withShared { given.parameters.shared with seed := some seed }
  given := if given.given.contains "seed" then given.given else given.given ++ ["seed"]

/-- The usual parameters of a strategy with a seed, which alone counts as given. -/
def ofSeed [Scalar α] (algorithm : Algorithm) (seed : Int) : GivenParameters α :=
  ({ parameters := .usual algorithm, given := [] } : GivenParameters α).withSeed seed

end GivenParameters

end Optima
