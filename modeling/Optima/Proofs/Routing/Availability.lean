import Optima.Proofs.Routing.Drivability
import Optima.Proofs.Scalar.Solving

namespace Optima

/-!
# Vehicles drive when they are available

A vehicle drives a route in one of its shifts, and these are its windows of availability that are
not forbidden.  Nothing else is asked of its availability.  So a vehicle may be out in a forbidden
window, but only in one that overlaps the shift.
-/

/-- The time between two moments overlaps a window by more than the slack. -/
def TimeWindow.Overlaps {α : Type} [Scalar α] (window : TimeWindow α) (start finish : α) : Prop :=
  Scalar.larger window.start start + Scalar.slack < Scalar.smaller window.finish finish

namespace Vehicle

variable {α : Type} [Scalar α]

/-- A shift is a window that is not forbidden, or else all the time if there is none. -/
theorem mem_shifts_iff
    {vehicle : Vehicle α}
    {shift : α × α} :
    shift ∈ vehicle.shifts ↔
      (∃ window ∈ vehicle.availability,
          window.kind ≠ .forbidden ∧ shift = (window.start, window.finish)) ∨
        ((∀ window ∈ vehicle.availability, window.kind = .forbidden) ∧
          shift = (0, Scalar.infinity)) := by
  unfold shifts
  dsimp only
  split
  · rename_i noneOpen
    have allForbidden : ∀ window ∈ vehicle.availability, window.kind = .forbidden := by
      simpa using noneOpen
    constructor
    · intro member
      exact Or.inr ⟨allForbidden, List.mem_singleton.mp member⟩
    · rintro (⟨window, isThere, isOpen, -⟩ | ⟨-, rfl⟩)
      · exact absurd (allForbidden window isThere) isOpen
      · exact List.mem_singleton_self _
  · rename_i someOpen
    have notAllForbidden : ¬ ∀ window ∈ vehicle.availability, window.kind = .forbidden := by
      simpa using someOpen
    rw [List.mem_map]
    constructor
    · rintro ⟨window, isOpen, rfl⟩
      obtain ⟨member, isOpen⟩ := List.mem_filter.mp isOpen
      exact Or.inl ⟨window, member, bne_iff_ne.mp isOpen, rfl⟩
    · rintro (⟨window, member, isOpen, rfl⟩ | ⟨allForbidden, -⟩)
      · exact ⟨window, List.mem_filter.mpr ⟨member, bne_iff_ne.mpr isOpen⟩, rfl⟩
      · exact absurd allForbidden notAllForbidden

/--
A vehicle that is out in a shift until a moment keeps to its availability: it is out inside of a
window that is not forbidden, if it has any, and is not out in a forbidden window that is clear of
the shift.
-/
structure KeepsAvailability (vehicle : Vehicle α) (shift : α × α) (finish : α) : Prop where
  exists_window :
    (∃ window ∈ vehicle.availability, window.kind ≠ .forbidden) →
      ∃ window ∈ vehicle.availability,
        window.kind ≠ .forbidden ∧ shift = (window.start, window.finish) ∧
          finish ≤ window.finish + Scalar.slack
  unrestricted :
    (∀ window ∈ vehicle.availability, window.kind = .forbidden) → shift = (0, Scalar.infinity)
  not_overlaps :
    ∀ window ∈ vehicle.availability, window.kind = .forbidden →
      window.finish ≤ shift.1 ∨ shift.2 ≤ window.start → ¬ window.Overlaps shift.1 finish

/-- A vehicle that returns before the end of a shift keeps to its availability. -/
theorem keepsAvailability_of_mem_shifts
    [ExactScalar α]
    {vehicle : Vehicle α}
    {shift : α × α}
    {finish : α}
    (isShift : shift ∈ vehicle.shifts)
    (inTime : finish ≤ shift.2 + Scalar.slack) :
    vehicle.KeepsAvailability shift finish where
  exists_window someOpen := by
    obtain ⟨other, isThere, isOpen⟩ := someOpen
    rcases mem_shifts_iff.mp isShift with ⟨window, member, isOpenToo, rfl⟩ | ⟨allForbidden, -⟩
    · exact ⟨window, member, isOpenToo, rfl, inTime⟩
    · exact absurd (allForbidden other isThere) isOpen
  unrestricted allForbidden := by
    rcases mem_shifts_iff.mp isShift with ⟨window, member, isOpen, -⟩ | ⟨-, isAll⟩
    · exact absurd (allForbidden window member) isOpen
    · exact isAll
  not_overlaps window _ _ isClear := by
    unfold TimeWindow.Overlaps
    rw [not_lt]
    rcases isClear with isEarlier | isLater
    · calc Scalar.smaller window.finish finish
          ≤ window.finish := Scalar.smaller_le_left _ _
        _ ≤ shift.1 := isEarlier
        _ ≤ Scalar.larger window.start shift.1 := Scalar.le_larger_right _ _
        _ ≤ Scalar.larger window.start shift.1 + Scalar.slack := Scalar.le_add_slack _
    · calc Scalar.smaller window.finish finish
          ≤ finish := Scalar.smaller_le_right _ _
        _ ≤ shift.2 + Scalar.slack := inTime
        _ ≤ window.start + Scalar.slack := by gcongr
        _ ≤ Scalar.larger window.start shift.1 + Scalar.slack := by
          gcongr
          exact Scalar.le_larger_left _ _

end Vehicle

namespace Routing

variable {α : Type} [Scalar α] [Elementary α] [ExactScalar α]

/--
The vehicle of a reported route is out inside of one of its windows that are not forbidden, and
not in a forbidden one that is clear of it.
-/
theorem solve_keeps_availability
    (problem : RoutingProblem α)
    (parameters : RoutingParameters α)
    (watch : Watch α)
    (outcome : Solution α)
    (solved : solve problem parameters watch = .ok outcome) :
    ∃ routes,
      reportedRoutes? outcome = some routes ∧
        ∀ route ∈ routes,
          ∃ vehicle ∈ problem.vehicles,
            vehicle.identifier = route.vehicle ∧
              ∃ nodes shift finish,
                problem.DrivenRoute parameters.averageSpeed vehicle route nodes shift finish ∧
                  vehicle.KeepsAvailability shift finish := by
  cases started : watch.lookAtFlag.1 with
  | true =>
      exact ⟨[], reportedRoutes?_of_cancelled started solved, by simp⟩
  | false =>
      obtain ⟨progress, sound, -, reports⟩ :=
        reports_of_solveOn_eq_ok started solved
      refine ⟨_, reports.routes_eq, ?_⟩
      intro route inReport
      obtain ⟨tour, inTours, rfl⟩ := List.mem_map.mp inReport
      obtain ⟨inVehicles, inPlan, nonempty, drivable, isDrive⟩ :=
        of_mem_tours sound.plan_sound.drivable inTours
      obtain ⟨shift, finish, drives⟩ :=
        Network.drives_of_isDrivable nonempty drivable
      rw [← isDrive] at drives
      have customers :
          ∀ node ∈ tour.route, node ∈ (problem.network parameters.averageSpeed).customers := by
        intro node member
        apply sound.plan_sound.accounted.mem_iff.mp
        exact List.mem_append_left progress.unserved
          (List.mem_flatten.mpr ⟨tour.route, inPlan, member⟩)
      exact ⟨tour.vehicle, inVehicles, rfl, tour.route, shift, finish,
        RoutingProblem.drivenRoute_of_drives drives customers,
        Vehicle.keepsAvailability_of_mem_shifts drives.shift_mem drives.finish_le⟩

/-- A shop that a van can drive to from zero to ten, with a rest that is forbidden. -/
def restProblem (start finish : Rat) : RoutingProblem Extended where
  identifier := "rest"
  name := ""
  kind := .routeOptimization
  description := ""
  objectives := RoutingProblem.usualObjectives "cost" "distance"
  constraints := []
  decisions := []
  parameters := none
  status := .pending
  depot := ⟨"depot", "", none, [], 0⟩
  locations := [⟨"shop", "", none, [], 0⟩]
  vehicles :=
    [⟨"van", 1, none, none, none, ⟨0, 1, 0, 0⟩,
      [⟨0, .finite 10, .required⟩, ⟨.finite start, .finite finish, .forbidden⟩], []⟩]
  demands := [⟨"fish", "shop", 1, 0, [], []⟩]
  distanceMatrix := some [[0, 1], [1, 0]]
  timeMatrix := none

/-- The end of the search on the problem of the rest: the shop is served. -/
def restEnd : Progress Extended where
  plan := [[1]]
  unserved := []
  iterations := 1
  history := [⟨0, .finite 2, 0, 0⟩]
  watch := ⟨fun _ => 0, fun _ => false, 1, 2⟩

/-- The van drives to the shop and back at once, whenever the rest is. -/
theorem exists_solve_restProblem_eq_ok
    (start finish : Rat) :
    ∃ outcome,
      solve (restProblem start finish) plainParameters quietWatch = .ok outcome ∧
        reportedRoutes? outcome =
          some [⟨"van", ["shop"], [1], 1, .finite 2, .finite 2, .finite 2⟩] := by
  have searched :
      search plainParameters
          ⟨(restProblem start finish).network 1, (restProblem start finish).vehicles,
            (restProblem start finish).objectives⟩
          quietWatch.lookAtFlag.2 = .ok (none, restEnd) := by
    cbv
  obtain ⟨outcome, solved, reports⟩ :=
    exists_solveOn_eq_ok (by rfl) searched (by
      rw [isOk_solution]
      cbv)
  refine ⟨outcome, solved, ?_⟩
  rw [reports.routes_eq]
  cbv

/-- A rest after the shift is kept. -/
theorem restProblem_keeps_availability :
    ∃ outcome route,
      solve (restProblem 10 12) plainParameters quietWatch = .ok outcome ∧
        reportedRoutes? outcome = some [route] ∧ route.stops = ["shop"] ∧
          ∃ vehicle ∈ (restProblem 10 12).vehicles,
            vehicle.identifier = route.vehicle ∧
              ∃ nodes shift finish,
                (restProblem 10 12).DrivenRoute 1 vehicle route nodes shift finish ∧
                  vehicle.KeepsAvailability shift finish := by
  obtain ⟨outcome, solved, isReport⟩ := exists_solve_restProblem_eq_ok 10 12
  obtain ⟨routes, reported, kept⟩ :=
    solve_keeps_availability (restProblem 10 12) plainParameters quietWatch outcome solved
  obtain rfl := Option.some.inj (isReport.symm.trans reported)
  exact ⟨outcome, _, solved, isReport, rfl, kept _ (List.mem_singleton_self _)⟩

/-- A rest that takes the whole shift is not kept: wherever the drive that is reported is, it
overlaps the rest. -/
theorem restProblem_drives_in_forbidden_window :
    ∃ outcome route,
      solve (restProblem 0 10) plainParameters quietWatch = .ok outcome ∧
        reportedRoutes? outcome = some [route] ∧ route.stops = ["shop"] ∧
          ∀ vehicle ∈ (restProblem 0 10).vehicles, ∀ nodes shift finish,
            (restProblem 0 10).DrivenRoute 1 vehicle route nodes shift finish →
              ∃ window ∈ vehicle.availability,
                window.kind = .forbidden ∧ window.Overlaps shift.1 finish := by
  obtain ⟨outcome, solved, isReport⟩ := exists_solve_restProblem_eq_ok 0 10
  refine ⟨outcome, _, solved, isReport, rfl, ?_⟩
  intro vehicle isVehicle nodes shift finish driven
  obtain rfl := List.mem_singleton.mp isVehicle
  obtain rfl : shift = (0, .finite 10) := List.mem_singleton.mp driven.shift_mem
  obtain rfl : finish = .finite 2 := by
    have isDuration := driven.duration_eq
    rw [Scalar.sub_zero_eq] at isDuration
    exact isDuration.symm
  refine ⟨_, List.mem_cons_of_mem _ (List.mem_singleton_self _), rfl, ?_⟩
  unfold TimeWindow.Overlaps
  decide +kernel

end Routing

end Optima
