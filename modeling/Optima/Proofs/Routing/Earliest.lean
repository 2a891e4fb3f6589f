import Mathlib
import Optima.Proofs.Routing.Drivability
import Optima.Proofs.Routing.Waiting
import Optima.Proofs.Scalar.Solving

namespace Optima

/-!
# Serving every stop as early as possible

A vehicle can drive a route in a shift exactly if there are moments for the services along
it that suit the windows and the shift.  For the start that is found at a stop is the first moment
that all windows permit, and being early at one stop never makes the vehicle late at the next.
-/

/-!
## The earliest start at a stop
-/

namespace Stop

/-- The earliest start is at most every number from the arrival on that all windows permit. -/
theorem exists_earliestStart?_le
    {α : Type}
    [Scalar α]
    [ExactScalar α]
    {stop : Stop α}
    {arrival moment : α}
    (isLate : arrival ≤ moment)
    (isPermitted : stop.Permits moment) :
    ∃ start, stop.earliestStart? arrival = some start ∧ start ≤ moment := by
  have isPermittedInPlace : stop.PermitsOn (.refl (α := α) (· ≤ ·)) moment :=
    permitsOn_place_iff.mpr isPermitted
  exact exists_earliestStart?_place_le isLate isPermittedInPlace

end Stop

/-!
## The earliest timetable
-/

namespace Network

variable {α : Type} [Scalar α] {network : Network α} {vehicle : Vehicle α} {route : List Nat}

section Exact

variable [ExactScalar α]

/-- At a node the earliest start is at most every other one. -/
theorem exists_earliestStart?_le
    {node : Nat}
    {arrival moment : α}
    (isLate : arrival ≤ moment)
    (isPermitted : ∀ stop, network.stops[node]? = some stop → stop.Permits moment) :
    ∃ start, network.earliestStart? node arrival = some start ∧ start ≤ moment := by
  unfold earliestStart?
  cases atNode : network.stops[node]? with
  | none => exact ⟨arrival, rfl, isLate⟩
  | some stop => exact Stop.exists_earliestStart?_le isLate (isPermitted stop atNode)

/--
A vehicle that is no later serves the stops no later: if there are starts along a route, then there is
a timetable, and each of its starts is at most the other one.
-/
theorem Timely.exists_timetable_le
    {previous : Nat}
    {earlier clock finish : α}
    {starts : List α}
    (isTimely : network.Timely previous clock route starts finish)
    (isEarlier : earlier ≤ clock) :
    ∃ earliest back,
      network.timetable previous earlier route = some (earliest, back) ∧
        List.Forall₂ (· ≤ ·) earliest starts ∧ back ≤ finish := by
  induction isTimely generalizing earlier with
  | home previous clock =>
      exact ⟨[], _, rfl, .nil, add_le_add_left isEarlier _⟩
  | @serve previous node clock start finish rest starts onTime isPermitted _ inductionHypothesis =>
      have onTimeToo : earlier + network.time previous node ≤ start :=
        (add_le_add_left isEarlier _).trans onTime
      obtain ⟨first, isFound, isFirst⟩ := exists_earliestStart?_le onTimeToo isPermitted
      obtain ⟨earliest, back, isPlanned, areEarliest, isBack⟩ :=
        inductionHypothesis (add_le_add_left isFirst (network.serviceTime node))
      refine ⟨first :: earliest, back, ?_, .cons isFirst areEarliest, isBack⟩
      simp [timetable, isFound, isPlanned]

end Exact

/-- Starts of the services along a route in a shift, and the return: all windows permit the starts,
and the return is neither after the shift nor after the time that the vehicle may take. -/
structure FitsIn (network : Network α) (vehicle : Vehicle α) (route : List Nat) (shift : α × α)
    (starts : List α) (finish : α) : Prop where
  timely : network.Timely 0 shift.1 route starts finish
  finish_le : finish ≤ shift.2 + Scalar.slack
  duration_le :
    ∀ limit, vehicle.maxTime = some limit → finish - shift.1 ≤ limit + Scalar.slack

section Solving

variable [SolvingScalar α] {shift : α × α}

/-- The starts of a drive in a shift fit in it, and are the earliest that do. -/
theorem fitsIn_of_driveIn_eq_ok
    {drive : Drive α}
    (isDrive : network.driveIn vehicle route shift = .ok drive) :
    (∃ finish, network.FitsIn vehicle route shift drive.starts finish) ∧
      ∀ starts finish, network.FitsIn vehicle route shift starts finish →
        List.Forall₂ (· ≤ ·) drive.starts starts := by
  obtain ⟨earliest, finish, isPlanned, inTime, inLimit, rfl⟩ := driveIn_eq_ok_iff.mp isDrive
  refine ⟨⟨finish, timely_of_timetable_eq_some isPlanned, inTime, inLimit⟩, ?_⟩
  intro starts other fits
  obtain ⟨first, back, isPlannedToo, areEarliest, -⟩ := fits.timely.exists_timetable_le le_rfl
  obtain ⟨rfl, -⟩ := Prod.mk.inj (Option.some.inj (isPlanned.symm.trans isPlannedToo))
  exact areEarliest

/-- Where starts fit in a shift, the vehicle drives in it. -/
theorem FitsIn.exists_driveIn_eq_ok
    {starts : List α}
    {finish : α}
    (fits : network.FitsIn vehicle route shift starts finish) :
    ∃ drive, network.driveIn vehicle route shift = .ok drive := by
  obtain ⟨earliest, back, isPlanned, -, isBack⟩ := fits.timely.exists_timetable_le le_rfl
  refine ⟨_, driveIn_eq_ok_iff.mpr ⟨earliest, back, isPlanned, ?_, ?_, rfl⟩⟩
  · exact isBack.trans fits.finish_le
  · intro limit isLimit
    calc back - shift.1
        ≤ finish - shift.1 := by
          rw [SolvingScalar.sub_eq_add_neg, SolvingScalar.sub_eq_add_neg]
          exact add_le_add_left isBack _
      _ ≤ limit + Scalar.slack := fits.duration_le limit isLimit

/--
A vehicle can drive a route exactly if it can take the stops along and there are starts that fit in
one of its shifts.  It drives in the first shift in which there are any, and its starts there are the
earliest.
-/
theorem evaluate_is_exact
    (network : Network α)
    (vehicle : Vehicle α)
    (route : List Nat)
    (nonempty : route ≠ []) :
    (network.isDrivable vehicle route = true ↔
        network.Carries vehicle route ∧
          ∃ shift ∈ vehicle.shifts, ∃ starts finish,
            network.FitsIn vehicle route shift starts finish) ∧
      ∀ drive, network.evaluate vehicle route = .ok drive →
        ∃ earlier shift later,
          vehicle.shifts = earlier ++ shift :: later ∧
            (∀ other ∈ earlier, ¬ ∃ starts finish,
              network.FitsIn vehicle route other starts finish) ∧
            (∃ finish, network.FitsIn vehicle route shift drive.starts finish) ∧
            ∀ starts finish, network.FitsIn vehicle route shift starts finish →
              List.Forall₂ (· ≤ ·) drive.starts starts := by
  refine ⟨isDrivable_iff.trans ⟨?_, ?_⟩, ?_⟩
  · rintro ⟨drive, isEvaluated⟩
    obtain ⟨carries, inShifts⟩ := (evaluate_eq_ok_iff nonempty).mp isEvaluated
    obtain ⟨earlier, shift, later, areShifts, -, inShift⟩ := driveInShifts_eq_ok_iff.mp inShifts
    obtain ⟨finish, fits⟩ := (fitsIn_of_driveIn_eq_ok inShift).1
    exact ⟨carries, shift, by simp [areShifts], drive.starts, finish, fits⟩
  · rintro ⟨carries, shift, isShift, starts, finish, fits⟩
    obtain ⟨found, isFound⟩ := fits.exists_driveIn_eq_ok
    obtain ⟨drive, inShifts⟩ := exists_driveInShifts_eq_ok isShift isFound
    exact ⟨drive, (evaluate_eq_ok_iff nonempty).mpr ⟨carries, inShifts⟩⟩
  · intro drive isEvaluated
    obtain ⟨-, inShifts⟩ := (evaluate_eq_ok_iff nonempty).mp isEvaluated
    obtain ⟨earlier, shift, later, areShifts, noneEarlier, inShift⟩ :=
      driveInShifts_eq_ok_iff.mp inShifts
    refine ⟨earlier, shift, later, areShifts, ?_, fitsIn_of_driveIn_eq_ok inShift⟩
    rintro other isEarlier ⟨starts, finish, fits⟩
    obtain ⟨found, isFound⟩ := fits.exists_driveIn_eq_ok
    exact noneEarlier other isEarlier found isFound

end Solving

/--
The van of the late problem reaches the shop when it opens, waits until the forbidden window is over,
and could not have started any earlier in its second shift.
-/
theorem lateProblem_is_evaluated_exactly :
    ∃ van drive,
      Routing.lateProblem.vehicles = [van] ∧ [1] ≠ [] ∧
        (Routing.lateProblem.network 1).evaluate van [1] = .ok drive ∧
        drive.starts = [.finite 5] ∧
        ∃ shift ∈ van.shifts,
          ∀ starts finish, (Routing.lateProblem.network 1).FitsIn van [1] shift starts finish →
            List.Forall₂ (· ≤ ·) [.finite 5] starts := by
  have isEvaluated :
      (Routing.lateProblem.network 1).evaluate (Routing.lateProblem.vehicles.head (by nofun)) [1] =
        .ok ⟨.finite 2, .finite 4, .finite 2, 1, [.finite 5]⟩ := by
    cbv
  obtain ⟨-, isEarliest⟩ :=
    evaluate_is_exact (Routing.lateProblem.network 1) _ [1] (by simp)
  obtain ⟨earlier, shift, later, areShifts, -, -, areEarliest⟩ := isEarliest _ isEvaluated
  have isShift : shift ∈ (Routing.lateProblem.vehicles.head (by nofun)).shifts := by
    rw [areShifts]
    simp
  exact ⟨_, _, rfl, by simp, isEvaluated, rfl, shift, isShift, areEarliest⟩

end Network

end Optima
