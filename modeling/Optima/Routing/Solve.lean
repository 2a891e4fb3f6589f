import Optima.Problem.Feasibility
import Optima.Problem.Sensitivity
import Optima.Routing.Moves
import Optima.Search.Watch

namespace Optima

/-!
# Routing

A plan is constructed and then improved by local search, as long as the limits and
the cancellation flag allow.  The locations that no vehicle can serve are reported
as violations.
-/

namespace Routing

variable {α : Type}

/-- A plan in the course of its improvement. -/
structure Progress (α : Type) where
  plan : Plan
  unserved : List Nat
  iterations : Nat
  /-- The points of the history, the latest first. -/
  history : List (ConvergencePoint α)
  watch : Watch α

variable [Scalar α]

/-- Enter the state of a plan into its history. -/
def Progress.record (fleet : Fleet α) (progress : Progress α) :
    Except (EvalFailure α) (Progress α) := do
  let metrics := Assignment.ofNumbers (fleet.metrics progress.plan progress.unserved)
  let cost ← Objectives.costOf fleet.objectives metrics
  let (elapsed, watch) := progress.watch.lookAtClock
  let point : ConvergencePoint α :=
    ⟨progress.iterations, cost, fleet.network.loadOf progress.unserved, elapsed⟩
  return { progress with history := point :: progress.history, watch := watch }

/-- Improve a plan until that fails or the search is interrupted; the number bounds the steps. -/
def improve (fleet : Fleet α) (budget : Budget α) :
    Nat → Progress α → Except (EvalFailure α) (Option Interruption × Progress α)
  | remaining, progress =>
    match budget.interruption progress.iterations progress.watch with
    | (some interruption, watch) => .ok (some interruption, { progress with watch := watch })
    | (none, watch) =>
      match remaining with
      | 0 => .ok (none, { progress with watch := watch })
      | remaining + 1 => do
        let counted := { progress with iterations := progress.iterations + 1, watch := watch }
        match ← fleet.improved? progress.plan progress.unserved with
        | none => return (none, counted)
        | some plan =>
          improve fleet budget remaining (← Progress.record fleet { counted with plan := plan })

/-- The status of a search that left no violation. -/
def statusWithout : Option Interruption → SolutionStatus
  | none => .feasible
  | some .cancelled => .iterationLimit
  | some (.exhausted status) => status

/-- The violation of a location that is not served. -/
def unservedViolation (network : Network α) (node : Nat) : Violation α where
  identifier := network.identifier node
  magnitude := if network.load node == 0 then 1 else network.load node
  severity := .critical
  reason := some .unservable

/-- A vehicle in use, its route and how it drives it. -/
structure Tour (α : Type) where
  vehicle : Vehicle α
  route : List Nat
  drive : Drive α

/-- The vehicles in use. -/
def tours (fleet : Fleet α) (plan : Plan) : List (Tour α) :=
  ((fleet.vehicles.zip plan).filter fun entry => !entry.2.isEmpty).map fun (vehicle, route) =>
    ⟨vehicle, route, fleet.network.drive vehicle route⟩

/-- The identifiers of the locations on a tour. -/
def Tour.stops (network : Network α) (tour : Tour α) : List String :=
  tour.route.map network.identifier

/-- What is told of each stop of a tour: its place in the order, its start and its vehicle. -/
def Tour.values (network : Network α) (tour : Tour α) : List (String × Datum α) :=
  ((tour.stops network).zip tour.drive.starts).zipIdx.flatMap fun ((location, start), position) =>
    [("stop_" ++ location ++ "_sequence", .number (Scalar.ofInt ((position + 1 : Nat) : Int))),
     ("stop_" ++ location ++ "_start", .number start),
     ("stop_" ++ location ++ "_vehicle", .text tour.vehicle.identifier)]

/-- A tour as a document. -/
def Tour.toDocument (network : Network α) (tour : Tour α) : Document α :=
  .mapping [("vehicle_id", .text tour.vehicle.identifier),
    ("stops", .texts (tour.stops network)),
    ("starts", .listOf .number tour.drive.starts),
    ("load", .number tour.drive.load),
    ("distance", .number tour.drive.distance),
    ("duration", .number tour.drive.duration),
    ("cost", .number tour.drive.cost)]

/-- The details of a solution. -/
def details (fleet : Fleet α) (localSearch : Bool) (plan : Plan) (unserved : List Nat)
    (isCancelled : Bool) : Table (Document α) :=
  let cancelled : List (String × Document α) :=
    if isCancelled then [("cancelled", .boolean true)] else []
  Table.ofList ([("routes", .listOf (Tour.toDocument fleet.network) (tours fleet plan)),
    ("local_search", .boolean localSearch),
    ("unserved_locations", .texts (unserved.map fleet.network.identifier))] ++ cancelled)

/-- The solution that the end of a search is. -/
def solution (problem : Problem α) (parameters : RoutingParameters α) (fleet : Fleet α)
    (interruption? : Option Interruption) (progress : Progress α) :
    Except (EvalFailure α) (Solution α) := do
  let unserved := progress.unserved.mergeSort
  let numbers := fleet.metrics progress.plan progress.unserved
  let metrics := Assignment.ofNumbers numbers
  let values ← Objectives.values problem.objectives metrics
  let missed ← Constraints.violations parameters.tolerance metrics problem.constraints
  let violations := unserved.map (unservedViolation fleet.network) ++ missed
  let sensitivity ← Sensitivity.ofMetrics problem metrics parameters.tolerance
  return {
    problem := problem.identifier
    status := if violations.isEmpty then statusWithout interruption? else .infeasible
    objectiveValues := (Table.mk numbers).merge values
    variableValues := Table.ofList
      ((tours fleet progress.plan).flatMap (Tour.values fleet.network))
    violations := violations
    account :=
      { algorithm := label Algorithm.routing
        iterations := progress.iterations
        runtime := progress.watch.lookAtClock.1
        history := progress.history.reverse
        details := details fleet parameters.localSearch progress.plan unserved
          (interruption? = some .cancelled) }
    alternatives := []
    sensitivity := sensitivity }

/-- The solution of a search that was cancelled before it started. -/
def cancelledSolution (problem : Problem α) : Solution α :=
  .bare problem.identifier .cancelled
    ⟨label Algorithm.routing, 0, 0, [], Table.ofList [("cancelled", .boolean true)]⟩

/-- The end of the search for a plan. -/
def search (parameters : RoutingParameters α) (fleet : Fleet α) (watch : Watch α) :
    Except (EvalFailure α) (Option Interruption × Progress α) := do
  let (plan, unserved) := fleet.network.construct fleet.vehicles
  let started ← Progress.record fleet ⟨plan, unserved, 0, [], watch⟩
  if parameters.localSearch then
    improve fleet ⟨parameters.maxIterations, parameters.timeLimit⟩ parameters.maxIterations started
  else return (none, started)

/-- Solve a routing problem on a network. -/
def solveOn (network : Network α) (problem : RoutingProblem α) (parameters : RoutingParameters α)
    (watch : Watch α) : Except (SolveFailure α) (Solution α) := do
  let (isCancelled, looked) := watch.lookAtFlag
  if isCancelled then return cancelledSolution problem.toProblem
  else
    let fleet : Fleet α := ⟨network, problem.vehicles, problem.objectives⟩
    settled do
      let (interruption?, progress) ← search parameters fleet looked
      solution problem.toProblem parameters fleet interruption? progress

/-- Solve a routing problem. -/
def solve [Elementary α] (problem : RoutingProblem α) (parameters : RoutingParameters α)
    (watch : Watch α) : Except (SolveFailure α) (Solution α) :=
  solveOn (problem.network parameters.averageSpeed) problem parameters watch

end Routing

end Optima
