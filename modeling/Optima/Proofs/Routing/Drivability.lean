import Mathlib
import Optima.Proofs.Routing.Account
import Optima.Proofs.Scalar.Exact

namespace Optima

/-!
# Every reported route can be driven

The vehicle of a reported route can load what its stops ask for, has the skills,
and drives the route within its limits in one of its shifts, serving each stop when
all windows permit it.
-/

namespace RoutingProblem

variable {α : Type} [Scalar α] [Elementary α]

/-- A customer of a network is a location, at which its demands are asked. -/
theorem of_mem_customers
    {problem : RoutingProblem α}
    {averageSpeed : α}
    {node : Nat}
    (member : node ∈ (problem.network averageSpeed).customers) :
    ∃ location ∈ problem.locations,
      problem.nodes[node]? = some location ∧
        (problem.network averageSpeed).stops[node]? =
          some (.ofDemands location (problem.demandsAt location.identifier)) := by
  unfold Network.customers at member
  obtain ⟨position, atPosition⟩ := List.mem_iff_getElem?.mp member
  rw [List.getElem?_drop] at atPosition
  obtain ⟨inRange, isNode⟩ := List.getElem?_eq_some_iff.mp atPosition
  rw [List.getElem_range] at isNode
  rw [List.length_range] at inRange
  subst node
  have inBounds : position < problem.locations.length := by
    simp only [network, stops, List.length_cons, List.length_map] at inRange
    omega
  refine ⟨problem.locations[position], List.getElem_mem inBounds, ?_, ?_⟩
  · rw [nodes, Nat.add_comm, List.getElem?_cons_succ]
    exact List.getElem?_eq_getElem inBounds
  · simp [network, stops, Nat.add_comm 1 position, inBounds]

/--
A reported route as a vehicle drives it: along these nodes, in this shift, with
this return to the depot.
-/
structure DrivenRoute (problem : RoutingProblem α) (averageSpeed : α) (vehicle : Vehicle α)
    (route : Routing.ReportedRoute α) (nodes : List Nat) (shift : α × α) (finish : α) : Prop where
  stops_eq : route.stops = nodes.map (problem.network averageSpeed).identifier
  node_location :
    ∀ node ∈ nodes, ∃ location ∈ problem.locations,
      problem.nodes[node]? = some location ∧
        (problem.network averageSpeed).identifier node = location.identifier
  load_le :
    Scalar.total (route.stops.map fun stop =>
        Scalar.total ((problem.demandsAt stop).map (·.quantity))) ≤
      vehicle.capacity + Scalar.slack
  skills_mem :
    ∀ stop ∈ route.stops, ∀ demand ∈ problem.demandsAt stop,
      ∀ skill ∈ demand.skills, skill ∈ vehicle.skills
  distance_eq : route.distance = (problem.network averageSpeed).tourDistance nodes
  distance_le :
    ∀ limit, vehicle.maxDistance = some limit → route.distance ≤ limit + Scalar.slack
  shift_mem : shift ∈ vehicle.shifts
  timely : (problem.network averageSpeed).Timely 0 shift.1 nodes route.starts finish
  windows_permit :
    ∀ node start, (node, start) ∈ nodes.zip route.starts →
      ∀ location, problem.nodes[node]? = some location →
        ∀ group ∈ location.windows ::
            (problem.demandsAt location.identifier).map (·.windows),
          group ≠ [] → TimeWindow.Permits group start
  finish_le : finish ≤ shift.2 + Scalar.slack
  duration_eq : route.duration = finish - shift.1
  duration_le :
    ∀ limit, vehicle.maxTime = some limit → route.duration ≤ limit + Scalar.slack

/-- A drive that keeps to all limits is a driven route in what it is reported as. -/
theorem drivenRoute_of_drives
    {problem : RoutingProblem α}
    {averageSpeed : α}
    {vehicle : Vehicle α}
    {nodes : List Nat}
    {drive : Drive α}
    {shift : α × α}
    {finish : α}
    (drives :
      (problem.network averageSpeed).Drives vehicle nodes drive shift finish)
    (customers : ∀ node ∈ nodes, node ∈ (problem.network averageSpeed).customers) :
    problem.DrivenRoute averageSpeed vehicle
      (.ofTour (problem.network averageSpeed) ⟨vehicle, nodes, drive⟩)
      nodes shift finish := by
  set network := problem.network averageSpeed
  have atNode :
      ∀ node ∈ nodes, ∃ location ∈ problem.locations,
        problem.nodes[node]? = some location ∧
          network.identifier node = location.identifier ∧
          network.load node =
            Scalar.total ((problem.demandsAt location.identifier).map (·.quantity)) ∧
          network.skills node =
            (problem.demandsAt location.identifier).flatMap (·.skills) := by
    intro node member
    obtain ⟨location, inProblem, isNode, isStop⟩ :=
      of_mem_customers (customers node member)
    refine ⟨location, inProblem, isNode, ?_, ?_, ?_⟩
    · simp [Network.identifier, network, isStop, Stop.ofDemands]
    · simp [Network.load, network, isStop, Stop.ofDemands]
    · simp [Network.skills, network, isStop, Stop.ofDemands]
  have drivenDistance : drive.distance = network.tourDistance nodes := by
    rw [drives.drive_eq]
  have drivenDuration : drive.duration = finish - shift.1 := by
    rw [drives.drive_eq]
  refine
    { stops_eq := rfl
      node_location := ?_
      load_le := ?_
      skills_mem := ?_
      distance_eq := drivenDistance
      distance_le := ?_
      shift_mem := drives.shift_mem
      timely := drives.timely
      windows_permit := ?_
      finish_le := drives.finish_le
      duration_eq := drivenDuration
      duration_le := ?_ }
  · intro node member
    obtain ⟨location, inProblem, isNode, sameName, -⟩ := atNode node member
    exact ⟨location, inProblem, isNode, sameName⟩
  · have sameLoads :
        (nodes.map network.identifier).map (fun stop =>
            Scalar.total ((problem.demandsAt stop).map (·.quantity))) =
          nodes.map network.load := by
      rw [List.map_map]
      apply List.map_congr_left
      intro node member
      obtain ⟨location, -, -, sameName, isLoad, -⟩ := atNode node member
      simp [sameName, isLoad]
    have withinCapacity := drives.load_le
    rw [Network.loadOf, ← sameLoads] at withinCapacity
    exact withinCapacity
  · intro stop inStops demand inDemands skill inSkills
    obtain ⟨node, member, rfl⟩ := List.mem_map.mp inStops
    obtain ⟨location, -, -, sameName, -, isSkills⟩ := atNode node member
    apply drives.skills_mem node member skill
    rw [isSkills, ← sameName]
    exact List.mem_flatMap.mpr ⟨demand, inDemands, inSkills⟩
  · intro limit isLimit
    change drive.distance ≤ limit + Scalar.slack
    rw [drivenDistance]
    exact drives.distance_le limit isLimit
  · intro node start service location isNode group inGroups nonempty
    have member : node ∈ nodes := (List.of_mem_zip service).1
    obtain ⟨found, -, isFound, isStop⟩ := of_mem_customers (customers node member)
    obtain rfl := Option.some.inj (isFound.symm.trans isNode)
    refine drives.timely.permits service isStop ?_
    exact List.mem_filter.mpr ⟨inGroups, by simpa using nonempty⟩
  · intro limit isLimit
    change drive.duration ≤ limit + Scalar.slack
    rw [drivenDuration]
    exact drives.duration_le limit isLimit

end RoutingProblem

namespace Routing

variable {α : Type} [Scalar α]

/-- A solve that is cancelled at once reports no routes. -/
theorem reportedRoutes?_of_cancelled
    {network : Network α}
    {problem : RoutingProblem α}
    {parameters : RoutingParameters α}
    {watch : Watch α}
    {outcome : Solution α}
    (cancelled : watch.lookAtFlag.1 = true)
    (solved : solveOn network problem parameters watch = .ok outcome) :
    reportedRoutes? outcome = some [] := by
  unfold solveOn at solved
  simp only [cancelled, ↓reduceIte, pure, Except.pure, Except.ok.injEq] at solved
  subst outcome
  simp [reportedRoutes?, cancelledSolution, Solution.bare, Table.ofList, Table.insertAll]

variable [Elementary α] [OrderedScalar α]

/--
Every route that a solution reports can be driven by the vehicle that it is
reported with, wherever the search was stopped.
-/
theorem solve_reports_driven_routes
    (problem : RoutingProblem α)
    (parameters : RoutingParameters α)
    (watch : Watch α)
    (outcome : Solution α)
    (solved : solve problem parameters watch = .ok outcome) :
    ∃ routes,
      reportedRoutes? outcome = some routes ∧
        ∀ route ∈ routes,
          ∃ vehicle ∈ problem.vehicles,
            vehicle.identifier = route.vehicle ∧
              ∃ nodes shift finish,
                nodes ≠ [] ∧
                  problem.DrivenRoute parameters.averageSpeed vehicle route
                    nodes shift finish := by
  cases started : watch.lookAtFlag.1 with
  | true =>
      exact ⟨[], reportedRoutes?_of_cancelled started solved, by simp⟩
  | false =>
      obtain ⟨progress, sound, -, reports⟩ :=
        reports_of_solveOn_eq_ok started solved
      refine ⟨_, reports.routes_eq, ?_⟩
      intro route inReport
      obtain ⟨tour, inTours, rfl⟩ := List.mem_map.mp inReport
      obtain ⟨inVehicles, inPlan, nonempty, drivable, isDrive⟩ :=
        of_mem_tours sound.plan_sound.drivable inTours
      obtain ⟨shift, finish, drives⟩ :=
        Network.drives_of_isDrivable nonempty drivable
      refine ⟨tour.vehicle, inVehicles, rfl, tour.route, shift, finish, nonempty, ?_⟩
      rw [← isDrive] at drives
      apply RoutingProblem.drivenRoute_of_drives drives
      intro node member
      apply sound.plan_sound.accounted.mem_iff.mp
      exact List.mem_append_left progress.unserved
        (List.mem_flatten.mpr ⟨tour.route, inPlan, member⟩)

/-- A location that opens late, for a van whose first shift ends too early. -/
def lateProblem : RoutingProblem Extended where
  identifier := "late"
  name := ""
  kind := .routeOptimization
  description := ""
  objectives := RoutingProblem.usualObjectives "cost" "distance"
  constraints := []
  decisions := []
  parameters := none
  status := .pending
  depot := ⟨"depot", "", none, [], 0⟩
  locations :=
    [⟨"shop", "", none, [⟨.finite 4, .finite 6, .required⟩, ⟨.finite 4, .finite 5, .forbidden⟩], 1⟩]
  vehicles :=
    [⟨"van", 1, some (.finite 2), some (.finite 5), none, ⟨0, 1, 0, 0⟩,
      [⟨0, .finite 2, .required⟩, ⟨.finite 3, .finite 7, .preferred⟩], ["cold"]⟩]
  demands := [⟨"fish", "shop", 1, 0, ["cold"], []⟩]
  distanceMatrix := some [[0, 1], [1, 0]]
  timeMatrix := none

/-- The end of the search on the late problem: the shop is served in the second shift. -/
def lateEnd : Progress Extended where
  plan := [[1]]
  unserved := []
  iterations := 1
  history := [⟨0, .finite 2, 0, 0⟩]
  watch := ⟨fun _ => 0, fun _ => false, 1, 2⟩

/-- The route of the late problem can be driven. -/
theorem lateProblem_reports_driven_routes :
    ∃ outcome routes,
      solve lateProblem plainParameters quietWatch = .ok outcome ∧
        reportedRoutes? outcome = some routes ∧
        routes.map (·.stops) = [["shop"]] ∧
        ∀ route ∈ routes,
          ∃ vehicle ∈ lateProblem.vehicles,
            vehicle.identifier = route.vehicle ∧
              ∃ nodes shift finish,
                nodes ≠ [] ∧
                  lateProblem.DrivenRoute 1 vehicle route nodes shift finish := by
  have searched :
      search plainParameters
          ⟨lateProblem.network 1, lateProblem.vehicles, lateProblem.objectives⟩
          quietWatch.lookAtFlag.2 = .ok (none, lateEnd) := by
    cbv
  obtain ⟨outcome, solved, reports⟩ :=
    exists_solveOn_eq_ok (by rfl) searched (by
      rw [isOk_solution]
      cbv)
  obtain ⟨routes, reported, driven⟩ :=
    solve_reports_driven_routes lateProblem plainParameters quietWatch outcome solved
  refine ⟨outcome, routes, solved, reported, ?_, driven⟩
  obtain rfl := Option.some.inj (reports.routes_eq.symm.trans reported)
  cbv

end Routing

end Optima
