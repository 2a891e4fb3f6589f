import Optima.Evolution.Operators
import Optima.Problem.Parameters
import Optima.Problem.Sensitivity
import Optima.Ranking.Crowding
import Optima.Ranking.Fronts
import Optima.Search.Watch

namespace Optima

/-!
# The course of an evolutionary run

How a run is recorded, and when it is over.
-/

/-!
## Settling

A search has settled when the best that it knows has hardly changed over a number
of successive generations.
-/

namespace Convergence

variable {α : Type} [Scalar α]

/-- The largest distance between the components of two vectors. -/
def distance (first second : List α) : α :=
  ((first.zip second).map fun entry => Scalar.magnitude (entry.2 - entry.1)).foldl Scalar.peak 0

/-- Whether successive vectors of a list are closer than a threshold. -/
def steady (threshold : α) : List (List α) → Bool
  | later :: earlier :: rest =>
    distance earlier later < threshold && steady threshold (earlier :: rest)
  | _ => true

/-- Whether the numbers of a list lie closer together than a threshold. -/
def level (threshold : α) (values : List α) : Bool :=
  match Scalar.largest? values, Scalar.smallest? values with
  | some largest, some smallest => largest - smallest < threshold
  | _, _ => false

/-- Whether a search has settled, given the best values and vectors so far, the latest first. -/
def settled (convergence : Convergence α) (values : List α) (vectors : List (List α)) : Bool :=
  if values.length ≤ convergence.window then false
  else
    match convergence.kind with
    | .iterationLimit => false
    | .objectiveChange => level convergence.threshold (values.take (convergence.window + 1)).reverse
    | .variableChange => steady convergence.threshold (vectors.take (convergence.window + 1))

end Convergence

/-!
## Members and traces

What both evolutionary strategies share: the members of a population, the trace of
the best ones, how a run stops, and the solution that is made of its end.
-/

namespace Evolution

variable {α : Type}

/-- A vector of a population and what it is worth. -/
structure Member (α : Type) where
  vector : List α
  evaluation : Evaluation α
  fitness : α

/-- The course of a run so far. -/
structure Trace (α : Type) where
  /-- Number of generations that have been evaluated. -/
  generations : Nat
  /-- The best fitness of each generation, the latest first. -/
  values : List α
  /-- The best vector of each generation, the latest first. -/
  vectors : List (List α)
  /-- The history, the latest generation first. -/
  history : List (ConvergencePoint α)
  watch : Watch α

/-- Why a run stops. -/
inductive StopReason where
  | settled
  | interrupted (interruption : Interruption)
  deriving Repr, DecidableEq

namespace StopReason

/-- The status of a run that ends with a feasible candidate. -/
def status : StopReason → SolutionStatus
  | .settled => .feasible
  | .interrupted .cancelled => .iterationLimit
  | .interrupted (.exhausted status) => status

/-- Whether a run was cancelled. -/
def isCancelled (stop : StopReason) : Bool :=
  stop = .interrupted .cancelled

end StopReason

namespace Trace

/-- A run that has not begun. -/
def start (watch : Watch α) : Trace α := ⟨0, [], [], [], watch⟩

variable [Scalar α]

/-- The course after one more generation. -/
def record (candidates : Candidates α) (best : Member α) (violation : α) (trace : Trace α) :
    Except Breakdown (Trace α) := do
  let value ← candidates.traceValue best.fitness
  let (elapsed, looked) := trace.watch.lookAtClock
  return {
    generations := trace.generations + 1
    values := best.fitness :: trace.values
    vectors := best.vector :: trace.vectors
    history := ⟨trace.generations, value, violation, elapsed⟩ :: trace.history
    watch := looked }

/-- Whether a run stops now: because it has settled, at a limit, or because it is cancelled. -/
def stop? (parameters : GeneticParameters α) (trace : Trace α) : Option StopReason × Watch α :=
  if parameters.convergence.settled trace.values trace.vectors then (some .settled, trace.watch)
  else
    let budget : Budget α := ⟨parameters.maxIterations, parameters.timeLimit⟩
    match budget.exhausted trace.generations trace.watch with
    | (some status, looked) => (some (.interrupted (.exhausted status)), looked)
    | (none, looked) =>
      let (isCancelled, checked) := looked.lookAtFlag
      (if isCancelled then some (.interrupted .cancelled) else none, checked)

end Trace

variable [Scalar α]

/-- The members that the vectors of a population are. -/
def membersOf (candidates : Candidates α) (parameters : GeneticParameters α)
    (population : List (List α)) : Except Breakdown (List (Member α)) :=
  population.mapM fun vector => do
    let evaluation ← candidates.evaluate vector
    return ⟨vector, evaluation, fitness parameters evaluation⟩

/-- The positions of a list at which a vector occurs for the first time. -/
def distinctPositions (vectors : List (List α)) : List (List α) → List Nat → List Nat
  | _, [] => []
  | seen, position :: rest =>
    let vector := vectors.getD position []
    if seen.contains vector then distinctPositions vectors seen rest
    else position :: distinctPositions vectors (vector :: seen) rest

/-- A member as an alternative. -/
def alternative (candidates : Candidates α) (member : Member α) (rank dominated : Nat)
    (crowding : α) : Except Breakdown (Alternative α) := do
  return {
    rank := rank
    objectiveValues := member.evaluation.objectiveValues
    variableValues := ← candidates.decode member.vector
    fitness := some member.fitness
    constraintViolation := member.evaluation.violation
    dominationCount := dominated
    crowdingDistance := crowding }

/-- Members at distinct positions as alternatives, ranked in the order of the positions. -/
def alternativesAt (candidates : Candidates α) (members : List (Member α)) (dominated : List Nat)
    (crowding : List α) (positions : List Nat) : Except Breakdown (List (Alternative α)) :=
  (positions.zipIdx.filterMap fun (position, index) =>
    members[position]?.map fun member => (member, position, index + 1)).mapM
      fun (member, position, rank) =>
        alternative candidates member rank (dominated.getD position 0) (crowding.getD position 0)

/-- The solution of a run that was cancelled before it began. -/
def cancelledAtStart (problem : Problem α) (algorithm : Algorithm) (runtime : α) : Solution α :=
  .bare problem.identifier .cancelled
    ⟨label algorithm, 0, runtime, [], ⟨[("cancelled", .boolean true)]⟩⟩

/-- What both strategies say of their parameters. -/
def commonDetails (parameters : GeneticParameters α) : List (String × Document α) :=
  [("population_size", .natural parameters.populationSize),
   ("crossover_rate", .number parameters.crossoverRate),
   ("mutation_rate", .number parameters.mutationRate)]

/-- What both strategies say of the end of a run. -/
def endDetails (parameters : GeneticParameters α) (trace : Trace α) (stop : StopReason) :
    List (String × Document α) :=
  [("generations", .natural trace.generations), ("converged", .boolean (stop = .settled)),
   ("seed", .optional .integer parameters.seed)]
    ++ if stop.isCancelled then [("cancelled", .boolean true)] else []

/-- The solution that a member is at the end of a run. -/
def solution (candidates : Candidates α) (parameters : GeneticParameters α)
    (algorithm : Algorithm) (primary : Member α) (alternatives : List (Alternative α))
    (trace : Trace α) (stop : StopReason) (details : List (String × Document α)) :
    Except (SolveFailure α) (Solution α) := do
  let problem := candidates.problem
  let (runtime, _) := trace.watch.lookAtClock
  let account : SearchAccount α :=
    ⟨label algorithm, trace.generations, runtime, trace.history.reverse, Table.ofList details⟩
  let status := if primary.evaluation.isFeasible then stop.status else .infeasible
  let probing : Sensitivity.Probing α :=
    ⟨parameters.tolerance, parameters.defaultBounds, Sensitivity.usualStep⟩
  let sensitivity ←
    if Scalar.isFinite primary.evaluation.score then
      settled (Sensitivity.around problem probing (candidates.assignment primary.vector))
    else pure .empty
  let values ← (candidates.decode primary.vector).mapError .broken
  let violations ← (candidates.violations primary.vector).mapError .broken
  return { Solution.bare problem.identifier status account with
    objectiveValues := primary.evaluation.objectiveValues
    variableValues := values
    violations := violations
    alternatives := alternatives
    sensitivity := sensitivity }

end Evolution

end Optima
