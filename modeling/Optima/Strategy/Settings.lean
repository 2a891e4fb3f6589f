import Optima.Document.Basic
import Optima.Problem.Decoding
import Optima.Problem.Parameters
import Optima.Text.Basic

namespace Optima

/-!
# Strategies

What a strategy is set up with, and what it says of itself.
-/

/-!
## Settings of a strategy

A strategy is set up with limits and parameters that have not been checked yet.
The parameters that a problem carries come on top of them; parameters for another
strategy contribute only what all strategies share.  The outcome is checked as a
whole.
-/

/-- What a strategy is set up with. -/
structure Settings where
  timeLimit : Document Float
  tolerance : Document Float
  parameters : Table (Document Float)
  deriving Repr

namespace Settings

/-- The settings of a strategy that is not set up. -/
def usual : Settings := ⟨.number 300, .number 1e-6, {}⟩

/-- The settings that a document names; what it leaves out is as usual. -/
def ofDocument (document : Document Float) : Settings where
  timeLimit := (document.field? "time_limit").getD usual.timeLimit
  tolerance := (document.field? "tolerance").getD usual.tolerance
  parameters := ⟨((document.field? "parameters").getD .null).entries⟩

/-- The settings as a document. -/
def toDocument (settings : Settings) : Document Float :=
  .mapping [("time_limit", settings.timeLimit), ("tolerance", settings.tolerance),
    ("parameters", .ofTable settings.parameters)]

/-- Add parameters to the settings. -/
def set (settings : Settings) (parameters : List (String × Document Float)) : Settings :=
  { settings with parameters := settings.parameters.insertAll parameters }

/-- What the parameters that a problem carries contribute to those of a strategy. -/
def contribution (algorithm : Algorithm) (given : GivenParameters Float) :
    List (String × Document Float) :=
  if given.parameters.algorithm = algorithm then given.givenFields
  else given.givenFields.filter fun field => SharedParameters.fieldNames.contains field.1

/-- All that is said about the parameters of a strategy; what is said later counts. -/
def merged (settings : Settings) (algorithm : Algorithm) (given? : Option (GivenParameters Float)) :
    Table (Document Float) :=
  let limits : Table (Document Float) :=
    ⟨[("time_limit", settings.timeLimit), ("tolerance", settings.tolerance)]⟩
  let carried := ((given?.map (contribution algorithm)).getD [])
  ((limits.merge settings.parameters).insertAll carried).insert "algorithm" (.labelled algorithm)

/-- The parameters of a strategy for a problem. -/
def resolve (settings : Settings) (algorithm : Algorithm)
    (given? : Option (GivenParameters Float)) : Except (List Issue) (Parameters Float) :=
  Decode.check (Parameters.decoder algorithm) (.ofTable (settings.merged algorithm given?))

end Settings

/-!
## Profiles of the strategies

What each strategy says of itself.
-/

namespace Algorithm

/-- The name of the component that carries out a strategy. -/
def componentName : Algorithm → String
  | .backtracking => "BacktrackingSolver"
  | .genetic => "GeneticSolver"
  | .pareto => "ParetoSolver"
  | .linearProgramming => "LinearProgrammingSolver"
  | .routing => "RoutingSolver"
  | .scheduling => "SchedulingSolver"

/-- A strategy in one sentence. -/
def description : Algorithm → String
  | .backtracking => "Depth-first search with bound propagation"
  | .genetic =>
    "Genetic algorithm with tournament selection, single-point crossover, "
      ++ "Gaussian mutation and elitism"
  | .pareto => "NSGA-II: non-dominated sorting with crowding distance"
  | .linearProgramming => "Simplex / branch-and-cut via PuLP and COIN-OR CBC"
  | .routing => "Clarke-Wright savings with 2-opt, relocate and swap local search"
  | .scheduling => "Constructive scheduling with resource calendars and backtracking"

/-- What a strategy is good for. -/
def capabilities : Algorithm → List String
  | .backtracking => ["constraint_satisfaction", "discrete", "categorical"]
  | .genetic => ["single_objective", "weighted_multi_objective", "nonlinear"]
  | .pareto => ["multi_objective", "pareto_front", "nonlinear"]
  | .linearProgramming => ["linear", "mixed_integer", "resource_allocation", "duals"]
  | .routing => ["route_optimization", "time_windows", "capacity", "heterogeneous_fleet"]
  | .scheduling => ["scheduling", "dependencies", "resource_capacity", "time_windows"]

/-- Whether a strategy draws at random. -/
def isStochastic : Algorithm → Bool
  | .genetic | .pareto => true
  | _ => false

/-- What a strategy says of itself. -/
def profile {α : Type} (algorithm : Algorithm) : Document α :=
  let backend : List (String × Document α) :=
    if algorithm = .linearProgramming then [("backend", .text "CBC")] else []
  .mapping ([("name", .labelled algorithm), ("description", .text algorithm.description)]
    ++ backend
    ++ [("capabilities", .texts algorithm.capabilities),
      ("stochastic", .boolean algorithm.isStochastic)])

/-- The names of all strategies. -/
def names : List String := (Labelled.all (β := Algorithm)).map label

/-- The strategy of a name in letters of any case, or else a message. -/
def ofName (name : String) : Except String Algorithm :=
  let lower := Letters.lower name
  match Labelled.ofLabel? lower with
  | some algorithm => .ok algorithm
  | none =>
    .error ("Unsupported solver: " ++ lower ++ ". Available solvers: " ++ ", ".intercalate names)

end Algorithm

end Optima
