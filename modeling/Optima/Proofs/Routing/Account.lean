import Optima.Proofs.Lists
import Optima.Proofs.Routing.Driving
import Optima.Proofs.Routing.Soundness
import Optima.Proofs.Table

namespace Optima

/-!
# What a solution tells of its routes

The routes are read back from a solution, and every location is found on them or among the rest.
-/

/-!
## What a solution reports of its routes

The routes of a solution stand in its details as documents.  They are read back
here, and what is read is what the search ended with.
-/

namespace Routing

variable {α : Type}

/-- A route as a solution reports it. -/
structure ReportedRoute (α : Type) where
  vehicle : String
  stops : List String
  starts : List α
  load : α
  distance : α
  duration : α
  cost : α

namespace ReportedRoute

/-- Read a route. -/
def read? (document : Document α) : Option (ReportedRoute α) := do
  return {
    vehicle := ← document.textAt? "vehicle_id"
    stops := ← (document.itemsAt "stops").mapM Document.text?
    starts := ← (document.itemsAt "starts").mapM Document.number?
    load := ← (document.valueAt "load").number?
    distance := ← (document.valueAt "distance").number?
    duration := ← (document.valueAt "duration").number?
    cost := ← (document.valueAt "cost").number?
  }

/-- The route that a tour is reported as. -/
def ofTour (network : Network α) (tour : Tour α) : ReportedRoute α where
  vehicle := tour.vehicle.identifier
  stops := tour.stops network
  starts := tour.drive.starts
  load := tour.drive.load
  distance := tour.drive.distance
  duration := tour.drive.duration
  cost := tour.drive.cost

/-- A tour is read back as it was written. -/
theorem read?_toDocument
    (network : Network α)
    (tour : Tour α) :
    read? (tour.toDocument network) = some (ofTour network tour) := by
  have stopsBack := Document.mapM_text?_texts (α := α) (tour.stops network)
  have startsBack := Document.mapM_number?_numbers tour.drive.starts
  simp only [read?, Tour.toDocument, Document.textAt?, Document.itemsAt,
    Document.valueAt, Document.field?, List.lookup_cons]
  simp [stopsBack, startsBack, Document.text?, Document.number?, ofTour]

end ReportedRoute

/-- The routes that a solution reports; a solution that says nothing of routes has none. -/
def reportedRoutes? (solution : Solution α) : Option (List (ReportedRoute α)) :=
  match solution.account.details.get? "routes" with
  | none => some []
  | some document => document.items.mapM ReportedRoute.read?

/-- The locations that a solution reports as not served. -/
def reportedUnserved? (solution : Solution α) : Option (List String) :=
  match solution.account.details.get? "unserved_locations" with
  | none => some []
  | some document => document.items.mapM Document.text?

variable [Scalar α]

/-- The routes that the end of a search is reported as. -/
def reportOf (fleet : Fleet α) (plan : Plan) : List (ReportedRoute α) :=
  (tours fleet plan).map (.ofTour fleet.network)

/-- What a solution says of the search that it ends. -/
structure Reports (problem : Problem α) (tolerance : α) (fleet : Fleet α)
    (progress : Progress α) (outcome : Solution α) : Prop where
  routes_eq : reportedRoutes? outcome = some (reportOf fleet progress.plan)
  unserved_eq :
    reportedUnserved? outcome =
      some (progress.unserved.mergeSort.map fleet.network.identifier)
  violations_eq :
    ∃ missed,
      Constraints.violations tolerance
          (.ofNumbers (fleet.metrics progress.plan progress.unserved))
          problem.constraints = .ok missed ∧
        outcome.violations =
          progress.unserved.mergeSort.map (unservedViolation fleet.network) ++ missed
  objectiveValues_eq :
    ∃ values,
      Objectives.values problem.objectives
          (.ofNumbers (fleet.metrics progress.plan progress.unserved)) = .ok values ∧
        outcome.objectiveValues =
          (Table.mk (fleet.metrics progress.plan progress.unserved)).merge values
  history_eq : outcome.account.history = progress.history.reverse

/-- What a solution says of how the search ended that it is made of. -/
structure Closes (parameters : RoutingParameters α) (fleet : Fleet α)
    (interruption? : Option Interruption) (progress : Progress α) (outcome : Solution α) :
    Prop where
  isStatus :
    outcome.status =
      if outcome.violations.isEmpty then statusWithout interruption? else .infeasible
  isAccount :
    outcome.account =
      ⟨label Algorithm.routing, progress.iterations, progress.watch.lookAtClock.1,
        progress.history.reverse,
        details fleet parameters.localSearch progress.plan progress.unserved.mergeSort
          (interruption? = some .cancelled)⟩

theorem closes_of_solution_eq_ok
    {problem : Problem α}
    {parameters : RoutingParameters α}
    {fleet : Fleet α}
    {interruption? : Option Interruption}
    {progress : Progress α}
    {outcome : Solution α}
    (ended : solution problem parameters fleet interruption? progress = .ok outcome) :
    Closes parameters fleet interruption? progress outcome := by
  unfold solution at ended
  obtain ⟨values, -, ended⟩ := bind_eq_ok ended
  obtain ⟨missed, -, ended⟩ := bind_eq_ok ended
  obtain ⟨sensitivity, -, ended⟩ := bind_eq_ok ended
  cases ended
  exact ⟨rfl, rfl⟩

/-- A solution reports the search that it is made of. -/
theorem reports_of_solution_eq_ok
    {problem : Problem α}
    {parameters : RoutingParameters α}
    {fleet : Fleet α}
    {interruption? : Option Interruption}
    {progress : Progress α}
    {outcome : Solution α}
    (ended :
      solution problem parameters fleet interruption? progress = .ok outcome) :
    Reports problem parameters.tolerance fleet progress outcome := by
  unfold solution at ended
  obtain ⟨values, valued, ended⟩ := bind_eq_ok ended
  obtain ⟨missed, judged, ended⟩ := bind_eq_ok ended
  obtain ⟨sensitivity, -, ended⟩ := bind_eq_ok ended
  cases ended
  refine ⟨?_, ?_, ⟨missed, judged, rfl⟩, ⟨values, valued, rfl⟩, rfl⟩
  · have routesThere :
        (details fleet parameters.localSearch progress.plan
            progress.unserved.mergeSort
            (interruption? = some .cancelled)).get? "routes" =
          some (.listOf (Tour.toDocument fleet.network)
            (tours fleet progress.plan)) := by
      unfold details
      split <;> simp [Table.ofList, Table.insertAll]
    simp only [reportedRoutes?, routesThere]
    exact Document.mapM_listOf _ fun tour _ =>
      ReportedRoute.read?_toDocument fleet.network tour
  · have unservedThere :
        (details fleet parameters.localSearch progress.plan
            progress.unserved.mergeSort
            (interruption? = some .cancelled)).get? "unserved_locations" =
          some (.texts (progress.unserved.mergeSort.map
            fleet.network.identifier)) := by
      unfold details
      split <;> simp [Table.ofList, Table.insertAll]
    simp only [reportedUnserved?, unservedThere]
    exact Document.mapM_text?_texts _

/-- A solve that is not cancelled at once tells of the end of a search. -/
theorem of_solveOn_eq_ok
    {network : Network α}
    {problem : RoutingProblem α}
    {parameters : RoutingParameters α}
    {watch : Watch α}
    {outcome : Solution α}
    (started : watch.lookAtFlag.1 = false)
    (solved : solveOn network problem parameters watch = .ok outcome) :
    ∃ interruption? progress,
      search parameters ⟨network, problem.vehicles, problem.objectives⟩ watch.lookAtFlag.2 =
          .ok (interruption?, progress) ∧
        solution problem.toProblem parameters ⟨network, problem.vehicles, problem.objectives⟩
          interruption? progress = .ok outcome := by
  unfold solveOn at solved
  simp only [started, Bool.false_eq_true, ↓reduceIte] at solved
  obtain ⟨⟨interruption?, progress⟩, searched, ended⟩ := bind_eq_ok (settled_eq_ok solved)
  exact ⟨interruption?, progress, searched, ended⟩

/-- A solve that is not cancelled at once reports a search that ended in order. -/
theorem reports_of_solveOn_eq_ok
    {network : Network α}
    {problem : RoutingProblem α}
    {parameters : RoutingParameters α}
    {watch : Watch α}
    {outcome : Solution α}
    (started : watch.lookAtFlag.1 = false)
    (solved : solveOn network problem parameters watch = .ok outcome) :
    ∃ progress : Progress α,
      progress.Sound ⟨network, problem.vehicles, problem.objectives⟩ ∧
        progress.history ≠ [] ∧
        Reports problem.toProblem parameters.tolerance
          ⟨network, problem.vehicles, problem.objectives⟩ progress outcome := by
  obtain ⟨interruption?, progress, searched, ended⟩ := of_solveOn_eq_ok started solved
  obtain ⟨sound, recorded⟩ := Progress.Sound.search searched
  exact ⟨progress, sound, recorded, reports_of_solution_eq_ok ended⟩

/-- A solution comes about if its objectives, constraints and prices have values. -/
theorem isOk_solution
    (problem : Problem α)
    (parameters : RoutingParameters α)
    (fleet : Fleet α)
    (interruption? : Option Interruption)
    (progress : Progress α) :
    let metrics := Assignment.ofNumbers (fleet.metrics progress.plan progress.unserved)
    (solution problem parameters fleet interruption? progress).isOk =
      ((Objectives.values problem.objectives metrics).isOk &&
        (Constraints.violations parameters.tolerance metrics problem.constraints).isOk &&
        (Sensitivity.ofMetrics problem metrics parameters.tolerance).isOk) := by
  dsimp only
  unfold solution
  dsimp only
  cases Objectives.values problem.objectives
      (.ofNumbers (fleet.metrics progress.plan progress.unserved)) with
  | error failure =>
      rfl
  | ok values =>
      cases Constraints.violations parameters.tolerance
          (.ofNumbers (fleet.metrics progress.plan progress.unserved))
          problem.constraints with
      | error failure =>
          rfl
      | ok missed =>
          cases Sensitivity.ofMetrics problem
              (.ofNumbers (fleet.metrics progress.plan progress.unserved))
              parameters.tolerance <;> rfl

/-- A search whose end has a solution gives a solve that reports it. -/
theorem exists_solveOn_eq_ok
    {network : Network α}
    {problem : RoutingProblem α}
    {parameters : RoutingParameters α}
    {watch : Watch α}
    {interruption? : Option Interruption}
    {progress : Progress α}
    (started : watch.lookAtFlag.1 = false)
    (searched :
      search parameters ⟨network, problem.vehicles, problem.objectives⟩
        watch.lookAtFlag.2 = .ok (interruption?, progress))
    (ended :
      (solution problem.toProblem parameters
        ⟨network, problem.vehicles, problem.objectives⟩
        interruption? progress).isOk = true) :
    ∃ outcome,
      solveOn network problem parameters watch = .ok outcome ∧
        Reports problem.toProblem parameters.tolerance
          ⟨network, problem.vehicles, problem.objectives⟩ progress outcome := by
  cases solutionShape :
      solution problem.toProblem parameters
        ⟨network, problem.vehicles, problem.objectives⟩
        interruption? progress with
  | error failure =>
      simp [solutionShape, Except.isOk, Except.toBool] at ended
  | ok outcome =>
      refine ⟨outcome, ?_, reports_of_solution_eq_ok solutionShape⟩
      unfold solveOn
      simp only [started, Bool.false_eq_true, ↓reduceIte]
      simp only [searched, solutionShape, settled, bind, Except.bind]

end Routing

/-!
## Every location is accounted for

Each location of a routing problem is a stop of one reported route or is reported
as not served, once either way.  What is asked at the stops and what is left
unserved is therefore all that is asked.
-/

namespace RoutingProblem

variable {α : Type} [Scalar α]

variable [Elementary α]

/-- The customers of a network are the locations in order. -/
theorem map_customers
    {γ : Type}
    (problem : RoutingProblem α)
    (averageSpeed : α)
    (view : Stop α → γ)
    (missing : γ) :
    (problem.network averageSpeed).customers.map (fun node =>
        (((problem.network averageSpeed).stops[node]?).map view).getD missing) =
      problem.locations.map fun location =>
        view (.ofDemands location (problem.demandsAt location.identifier)) := by
  unfold Network.customers
  rw [List.map_drop, map_range_getElem?]
  simp [network, stops]

/-- The customers of a network bear the identifiers of the locations. -/
theorem map_identifier_customers
    (problem : RoutingProblem α)
    (averageSpeed : α) :
    (problem.network averageSpeed).customers.map
        (problem.network averageSpeed).identifier =
      problem.locations.map (·.identifier) :=
  problem.map_customers averageSpeed (·.location.identifier) ""

section Exact

variable [ExactScalar α]

end Exact

end RoutingProblem

namespace Routing

variable {α : Type} [Scalar α] {fleet : Fleet α} {plan : Plan}

omit [Scalar α] in
/-- Vehicles that stay at the depot have no stops to leave out. -/
private theorem flatMap_filter_nonempty
    (entries : List (Vehicle α × List Nat)) :
    (entries.filter fun entry => !entry.2.isEmpty).flatMap (·.2) =
      (entries.map (·.2)).flatten := by
  induction entries with
  | nil =>
      rfl
  | cons entry rest inductionHypothesis =>
      by_cases isIdle : entry.2 = []
      · rw [List.filter_cons_of_neg (by simpa using isIdle)]
        simpa [isIdle] using inductionHypothesis
      · rw [List.filter_cons_of_pos (by simpa using isIdle)]
        simpa using inductionHypothesis

/-- The routes of the vehicles in use are those of the plan. -/
theorem flatMap_route_tours
    (drivable : fleet.Drivable plan) :
    (tours fleet plan).flatMap (·.route) = plan.served := by
  unfold tours
  rw [List.flatMap_map, flatMap_filter_nonempty,
    List.map_snd_zip drivable.length_eq.le]
  rfl

/-- The reported stops are the served ones. -/
theorem flatMap_stops_reportOf
    (drivable : fleet.Drivable plan) :
    (reportOf fleet plan).flatMap (·.stops) =
      plan.served.map fleet.network.identifier := by
  rw [← flatMap_route_tours drivable, List.map_flatMap]
  unfold reportOf
  rw [List.flatMap_map]
  rfl

/-- A vehicle in use has stops, and drives its route as the network has it. -/
theorem of_mem_tours
    {tour : Tour α}
    (drivable : fleet.Drivable plan)
    (member : tour ∈ tours fleet plan) :
    tour.vehicle ∈ fleet.vehicles ∧ tour.route ∈ plan ∧ tour.route ≠ [] ∧
      fleet.network.isDrivable tour.vehicle tour.route = true ∧
      tour.drive = fleet.network.drive tour.vehicle tour.route := by
  unfold tours at member
  obtain ⟨⟨vehicle, route⟩, inUse, rfl⟩ := List.mem_map.mp member
  obtain ⟨inZip, nonempty⟩ := List.mem_filter.mp inUse
  obtain ⟨position, atPosition⟩ := List.mem_iff_getElem?.mp inZip
  obtain ⟨vehicleThere, routeThere⟩ := List.getElem?_zip_eq_some.mp atPosition
  exact ⟨List.mem_of_getElem? vehicleThere, List.mem_of_getElem? routeThere,
    by simpa using nonempty,
    drivable.route_drivable vehicleThere routeThere, rfl⟩

section Exact

variable [ExactScalar α]

end Exact

end Routing

end Optima
