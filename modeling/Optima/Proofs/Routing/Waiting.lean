import Mathlib.Order.Bounds.Basic
import Mathlib.Order.Hom.Basic
import Optima.Proofs.Routing.Driving
import Optima.Proofs.Scalar.Extended

namespace Optima

/-!
# Waiting until all windows permit it

Of the moments from an arrival on, only a few are tried: the arrival itself, and those at which a
window opens or a forbidden one closes.  Still no moment that is permitted comes before the first of
these that is.  For going back from it to the latest moment that is tried, no window is left, since
none has opened in between, and none that is forbidden is entered, since none has closed.

This is so for the moments of any axis on which the numbers have their places, such as that of the
reals, and not only for moments that are numbers themselves.
-/

/-!
## The moments that are tried
-/

namespace Stop

variable {α : Type} [Scalar α] {stop : Stop α} {arrival : α}

/-- Whether all windows at a stop permit a moment. -/
def Permits (stop : Stop α) (moment : α) : Prop :=
  ∀ group ∈ stop.groups, TimeWindow.Permits group moment

theorem allows_iff_permits
    (stop : Stop α)
    (moment : α) :
    stop.allows moment = true ↔ stop.Permits moment := by
  simp only [allows, List.all_eq_true, TimeWindow.allows_iff_permits, Permits]

/-- A window that opens after the arrival is an opening. -/
theorem start_mem_openings
    {group : List (TimeWindow α)}
    {window : TimeWindow α}
    (inGroups : group ∈ stop.groups)
    (inGroup : window ∈ group)
    (isLate : arrival ≤ window.start) :
    window.start ∈ stop.openings arrival := by
  refine List.mem_flatMap.mpr ⟨group, inGroups, List.mem_flatMap.mpr ⟨window, inGroup, ?_⟩⟩
  simp [isLate]

/-- A forbidden window that ends after the arrival gives an opening. -/
theorem finish_mem_openings
    {group : List (TimeWindow α)}
    {window : TimeWindow α}
    (inGroups : group ∈ stop.groups)
    (inGroup : window ∈ group)
    (isForbidden : window.kind = .forbidden)
    (isLate : arrival ≤ window.finish) :
    window.finish ∈ stop.openings arrival := by
  refine List.mem_flatMap.mpr ⟨group, inGroups, List.mem_flatMap.mpr ⟨window, inGroup, ?_⟩⟩
  simp [isLate, isForbidden]

end Stop

/-!
## What windows permit on an axis
-/

variable {α R : Type} [Scalar α] [ExactScalar α] [LinearOrder R] {place : α ↪o R}

/-- What a group of windows asks of a moment on an axis. -/
def TimeWindow.PermitsOn (place : α ↪o R) (group : List (TimeWindow α)) (moment : R) : Prop :=
  ((∃ window ∈ group, window.kind ≠ .forbidden) →
      ∃ window ∈ group,
        window.kind ≠ .forbidden ∧ place window.start ≤ moment ∧ moment ≤ place window.finish) ∧
    ∀ window ∈ group,
      window.kind = .forbidden → ¬ (place window.start ≤ moment ∧ moment < place window.finish)

/-- At the place of a number, a group of windows asks what it asks of the number. -/
@[simp]
theorem TimeWindow.permitsOn_place_iff
    {group : List (TimeWindow α)}
    {moment : α} :
    TimeWindow.PermitsOn place group (place moment) ↔ TimeWindow.Permits group moment := by
  simp only [TimeWindow.PermitsOn, TimeWindow.Permits, place.le_iff_le, place.lt_iff_lt]

namespace Stop

variable {stop : Stop α} {arrival : α} {moment : R}

/-- Whether all windows at a stop permit a moment on an axis. -/
def PermitsOn (place : α ↪o R) (stop : Stop α) (moment : R) : Prop :=
  ∀ group ∈ stop.groups, TimeWindow.PermitsOn place group moment

@[simp]
theorem permitsOn_place_iff
    {moment : α} :
    stop.PermitsOn place (place moment) ↔ stop.Permits moment := by
  simp only [PermitsOn, Permits, TimeWindow.permitsOn_place_iff]

/-- Before a permitted moment, the latest one of the arrival and the openings is permitted too. -/
theorem exists_permitted_opening
    (isLate : place arrival ≤ moment)
    (isPermitted : stop.PermitsOn place moment) :
    ∃ opening ∈ arrival :: stop.openings arrival,
      place opening ≤ moment ∧ stop.Permits opening := by
  have isFirst : arrival ∈ arrival :: stop.openings arrival := List.mem_cons_self
  obtain ⟨opening, isTried, isBefore, isLatest⟩ :
      ∃ opening ∈ arrival :: stop.openings arrival,
        place opening ≤ moment ∧
          ∀ other ∈ arrival :: stop.openings arrival, place other ≤ moment → other ≤ opening :=
    Scalar.exists_largest_of_holds isFirst isLate
  have isAfter : arrival ≤ opening := isLatest arrival isFirst isLate
  have atMostOpening :
      ∀ other ∈ stop.openings arrival, place other ≤ moment → other ≤ opening :=
    fun other isOpening => isLatest other (List.mem_cons_of_mem arrival isOpening)
  refine ⟨opening, isTried, isBefore, fun group inGroups => ⟨?_, ?_⟩⟩
  · -- The window that is open at the moment opened by the opening at the latest.
    intro someOpen
    obtain ⟨window, inGroup, isOpen, afterStart, beforeFinish⟩ :=
      (isPermitted group inGroups).1 someOpen
    refine ⟨window, inGroup, isOpen, ?_, place.le_iff_le.mp (isBefore.trans beforeFinish)⟩
    rcases le_total arrival window.start with startsLater | startsEarlier
    · exact atMostOpening _ (start_mem_openings inGroups inGroup startsLater) afterStart
    · exact startsEarlier.trans isAfter
  · -- A forbidden window around the opening would have ended between it and the moment.
    rintro window inGroup isForbidden ⟨afterStart, beforeFinish⟩
    have hasEnded : place window.finish ≤ moment := by
      refine le_of_not_gt fun notEnded => ?_
      exact (isPermitted group inGroups).2 window inGroup isForbidden
        ⟨(place.le_iff_le.mpr afterStart).trans isBefore, notEnded⟩
    have endsLater : arrival ≤ window.finish := isAfter.trans beforeFinish.le
    exact absurd
      (atMostOpening _ (finish_mem_openings inGroups inGroup isForbidden endsLater) hasEnded)
      beforeFinish.not_ge

/-- The earliest start is at most every moment from the arrival on that all windows permit. -/
theorem exists_earliestStart?_place_le
    (isLate : place arrival ≤ moment)
    (isPermitted : stop.PermitsOn place moment) :
    ∃ start, stop.earliestStart? arrival = some start ∧ place start ≤ moment := by
  unfold earliestStart?
  split
  · exact ⟨arrival, rfl, isLate⟩
  · obtain ⟨opening, isTried, isBefore, isAllowed⟩ := exists_permitted_opening isLate isPermitted
    obtain ⟨sameMoments, ascends⟩ := Scalar.distinct_spec (arrival :: stop.openings arrival)
    obtain ⟨start, isFound, isFirst⟩ :=
      Scalar.exists_find?_le ascends ((sameMoments opening).mpr isTried)
        ((allows_iff_permits stop opening).mpr isAllowed)
    exact ⟨start, isFound, (place.le_iff_le.mpr isFirst).trans isBefore⟩

end Stop

/-!
## The first moment that is permitted
-/

namespace Network

variable {network : Network α} {node : Nat} {stop : Stop α} {arrival start : α}

/-- A start that is found is the first moment of all that are permitted. -/
theorem isLeast_of_earliestStart?_eq_some
    (place : α ↪o R)
    (atNode : network.stops[node]? = some stop)
    (found : network.earliestStart? node arrival = some start) :
    IsLeast {moment | place arrival ≤ moment ∧ stop.PermitsOn place moment} (place start) := by
  obtain ⟨isLate, isPermitted⟩ := of_earliestStart?_eq_some found
  refine ⟨⟨place.le_iff_le.mpr isLate, ?_⟩, ?_⟩
  · exact Stop.permitsOn_place_iff.mpr (isPermitted stop atNode)
  · rintro moment ⟨isLateToo, isPermittedToo⟩
    obtain ⟨first, isFound, isFirst⟩ :=
      Stop.exists_earliestStart?_place_le isLateToo isPermittedToo
    simp only [earliestStart?, atNode, isFound, Option.some.injEq] at found
    exact found ▸ isFirst

/-- Where a moment is permitted, a start is found. -/
theorem exists_earliestStart?_of_permitsOn
    (atNode : network.stops[node]? = some stop)
    {moment : R}
    (isLate : place arrival ≤ moment)
    (isPermitted : stop.PermitsOn place moment) :
    ∃ start, network.earliestStart? node arrival = some start := by
  obtain ⟨start, isFound, -⟩ := Stop.exists_earliestStart?_place_le isLate isPermitted
  exact ⟨start, by simpa [earliestStart?, atNode] using isFound⟩

/--
The start that is found at a stop is the first moment from the arrival on that every group of its
windows permits, and none is found just when no moment is permitted; so whoever arrives earlier
starts no later.
-/
theorem earliestStart?_isLeast
    (place : α ↪o R)
    (network : Network α)
    {node : Nat}
    {stop : Stop α}
    (atNode : network.stops[node]? = some stop)
    (arrival : α) :
    (∀ start,
        network.earliestStart? node arrival = some start ↔
          IsLeast {moment | place arrival ≤ moment ∧ stop.PermitsOn place moment}
            (place start)) ∧
      (network.earliestStart? node arrival = none ↔
        ¬ ∃ moment, place arrival ≤ moment ∧ stop.PermitsOn place moment) ∧
      ∀ later, arrival ≤ later →
        ∀ laterStart, network.earliestStart? node later = some laterStart →
          ∃ start, network.earliestStart? node arrival = some start ∧ start ≤ laterStart := by
  refine ⟨fun start => ⟨isLeast_of_earliestStart?_eq_some place atNode, ?_⟩, ⟨?_, ?_⟩, ?_⟩
  · intro isLeast
    obtain ⟨first, isFound⟩ :=
      exists_earliestStart?_of_permitsOn atNode isLeast.1.1 isLeast.1.2
    have isSame := (isLeast_of_earliestStart?_eq_some place atNode isFound).unique isLeast
    rw [isFound, place.injective isSame]
  · rintro noneFound ⟨moment, isLate, isPermitted⟩
    obtain ⟨start, isFound⟩ := exists_earliestStart?_of_permitsOn atNode isLate isPermitted
    rw [noneFound] at isFound
    cases isFound
  · intro nonePermitted
    cases isFound : network.earliestStart? node arrival with
    | none => rfl
    | some start =>
        exact absurd ⟨_, (isLeast_of_earliestStart?_eq_some place atNode isFound).1⟩ nonePermitted
  · intro later isLater laterStart isFoundLater
    have laterIsLeast := isLeast_of_earliestStart?_eq_some place atNode isFoundLater
    have isLate : place arrival ≤ place laterStart :=
      (place.le_iff_le.mpr isLater).trans laterIsLeast.1.1
    obtain ⟨start, isFound⟩ :=
      exists_earliestStart?_of_permitsOn atNode isLate laterIsLeast.1.2
    have isFirst := isLeast_of_earliestStart?_eq_some place atNode isFound
    exact ⟨start, isFound, place.le_iff_le.mp (isFirst.2 ⟨isLate, laterIsLeast.1.2⟩)⟩

/-- A quay that is open from two to ten and swept from four to six, where fish is wanted in the
first hour of the day, or from five to eight. -/
def quay : Stop Extended :=
  .ofDemands
    ⟨"quay", "", none,
      [⟨.finite 2, .finite 10, .required⟩, ⟨.finite 4, .finite 6, .forbidden⟩], 0⟩
    [⟨"fish", "quay", 1, 0, [],
      [⟨.finite 0, .finite 1, .required⟩, ⟨.finite 5, .finite 8, .preferred⟩]⟩]

/-- A depot, and the quay. -/
def quayside : Network Extended where
  distances := []
  times := []
  stops := [.ofDepot ⟨"depot", "", none, [], 0⟩, quay]

/-- Whoever comes to the quay at three waits until six, the first of all real moments that will do,
and who comes at nine has missed it. -/
theorem quay_opens_at_six :
    quayside.stops[1]? = some quay ∧
      quayside.earliestStart? 1 (.finite 3) = some (.finite 6) ∧
      IsLeast {moment | Extended.axis (.finite 3) ≤ moment ∧ quay.PermitsOn Extended.axis moment}
        (Extended.axis (.finite 6)) ∧
      quayside.earliestStart? 1 (.finite 9) = none ∧
      ¬ ∃ moment, Extended.axis (.finite 9) ≤ moment ∧ quay.PermitsOn Extended.axis moment := by
  have atNode : quayside.stops[1]? = some quay := rfl
  have isFound : quayside.earliestStart? 1 (.finite 3) = some (.finite 6) := by
    decide +kernel
  have noneFound : quayside.earliestStart? 1 (.finite 9) = none := by
    decide +kernel
  obtain ⟨isFirst, -, -⟩ := earliestStart?_isLeast Extended.axis quayside atNode (.finite 3)
  obtain ⟨-, isNever, -⟩ := earliestStart?_isLeast Extended.axis quayside atNode (.finite 9)
  exact ⟨atNode, isFound, (isFirst (.finite 6)).mp isFound, noneFound, isNever.mp noneFound⟩

end Network

end Optima
