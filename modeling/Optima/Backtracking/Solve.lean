import Optima.Backtracking.Search
import Optima.Problem.Sensitivity

namespace Optima

/-!
# Backtracking

The depth-first search as a strategy: how it is set up, and what its end says of
the problem.
-/

namespace Backtracking

variable {α : Type}

/-- The end of a search. -/
structure Ending (α : Type) where
  status : SolutionStatus
  /-- The vector that is returned. -/
  vector : Option (List α)
  nodes : Nat
  /-- The improvements in order. -/
  history : List (ConvergencePoint α)
  /-- Violations of an ending without a vector. -/
  violations : List (Violation α)
  details : List (String × Document α)
  watch : Watch α

/-- The limit that stops a search which has an assignment. -/
def Halt.limit? : Halt → Option SolutionStatus
  | .interrupted .cancelled => some .iterationLimit
  | .interrupted (.exhausted status) => some status
  | .found => none

/-- The status of a search that has an assignment. -/
def foundStatus (exhaustive : Bool) (halt? : Option Halt) : SolutionStatus :=
  if exhaustive then (halt?.bind Halt.limit?).getD .optimal else .feasible

/-- The status of a search that has none. -/
def missedStatus : Option Halt → SolutionStatus
  | some (.interrupted .cancelled) => .cancelled
  | _ => .infeasible

/-- What is said of the way a search ended. -/
def haltDetails (found : Bool) : Option Halt → List (String × Document α)
  | some (.interrupted .cancelled) => [("cancelled", .boolean true)]
  | some (.interrupted (.exhausted _)) =>
    if found then [] else [("budget_exhausted", .boolean true)]
  | _ => []

variable [Scalar α]

/-- The ending of a search that went through the tree. -/
def Ending.ofSearch (candidates : Candidates α) (exhaustive : Bool) (halt? : Option Halt)
    (progress : Progress α) : Ending α :=
  let fixed := candidates.reduction.fixed.names.mergeSort fun first second => decide (first ≤ second)
  { status :=
      if progress.best.isSome then foundStatus exhaustive halt? else missedStatus halt?
    vector := progress.best.map (·.1)
    nodes := progress.nodes
    history := progress.history.reverse
    violations := []
    details := [("nodes", .natural progress.nodes), ("fixed_variables", .texts fixed)]
      ++ haltDetails progress.best.isSome halt?
    watch := progress.watch }

/-- The violations of bounds that contradict each other. -/
def contradictions (reduction : Reduction α) : List (Violation α) :=
  reduction.conflicts.entries.map fun (identifier, conflict) =>
    ⟨identifier, conflict.gap, .critical, some .contradictsBounds⟩

/-- The ending without a search: bounds that contradict each other. -/
def Ending.contradictory (reduction : Reduction α) (watch : Watch α) : Ending α :=
  ⟨.infeasible, none, 0, [], contradictions reduction, [], watch⟩

/-- The ending of a problem without variables. -/
def Ending.withoutVariables (candidates : Candidates α) (watch : Watch α) :
    Except Breakdown (Ending α) := do
  let evaluation ← candidates.evaluate []
  if evaluation.isFeasible then return ⟨.optimal, some [], 0, [], [], [], watch⟩
  else return ⟨.infeasible, none, 0, [], [], [], watch⟩

/-- Search the space of a problem. -/
def search (γ : Type) [SeededSource γ α] (candidates : Candidates α)
    (parameters : BacktrackingParameters α) (watch : Watch α) :
    Except (SolveFailure α) (Ending α) := do
  if !candidates.reduction.isConsistent then
    return .contradictory candidates.reduction watch
  else
    let source : γ ← (SeededSource.ofSeed α parameters.seed).mapError .broken
    let levels ← settled (levels candidates parameters source)
    if candidates.size = 0 then (Ending.withoutVariables candidates watch).mapError .broken
    else
      let budget : Budget α := ⟨parameters.maxIterations, parameters.timeLimit⟩
      let (halt?, progress) ← (descend candidates budget parameters.exhaustive levels []
        ⟨0, none, [], watch⟩).mapError .broken
      return .ofSearch candidates parameters.exhaustive halt? progress

/-- The account of a search. -/
def account (parameters : BacktrackingParameters α) (ending : Ending α) : SearchAccount α where
  algorithm := label Algorithm.backtracking
  iterations := ending.nodes
  runtime := ending.watch.lookAtClock.1
  history := ending.history
  details := Table.ofList
    ([("value_ordering", .labelled parameters.valueOrdering),
      ("exhaustive", .boolean parameters.exhaustive)] ++ ending.details)

/-- The solution that the ending of a search is. -/
def solution (candidates : Candidates α) (parameters : BacktrackingParameters α)
    (ending : Ending α) : Except (SolveFailure α) (Solution α) := do
  let problem := candidates.problem
  let bare := Solution.bare problem.identifier ending.status (account parameters ending)
  match ending.vector with
  | none => return { bare with violations := ending.violations }
  | some vector =>
    let evaluation ← (candidates.evaluate vector).mapError .broken
    let values ← (candidates.decode vector).mapError .broken
    let violations ← (candidates.violations vector).mapError .broken
    let probing : Sensitivity.Probing α :=
      ⟨parameters.tolerance, parameters.defaultBounds, Sensitivity.usualStep⟩
    let sensitivity ← settled
      (Sensitivity.around problem probing (candidates.assignment vector))
    return { bare with
      objectiveValues := evaluation.objectiveValues
      variableValues := values
      violations := violations
      sensitivity := sensitivity }

/-- Solve a problem by backtracking. -/
def solve (γ : Type) [SeededSource γ α] (problem : Problem α)
    (parameters : BacktrackingParameters α) (watch : Watch α) :
    Except (SolveFailure α) (Solution α) := do
  let candidates ← settled
    (Candidates.ofProblem problem parameters.defaultBounds parameters.tolerance)
  let ending ← search γ candidates parameters watch
  solution candidates parameters ending

end Backtracking

end Optima
