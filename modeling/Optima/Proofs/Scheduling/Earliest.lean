import Mathlib
import Optima.Proofs.Scalar.Solving
import Optima.Proofs.Table
import Optima.Scheduling.Options

namespace Optima

/-!
# The earliest start of a task is not missed

A task is tried at finitely many moments only: when it is ready, when one of its windows opens or a
forbidden one closes, when a booking ends and when a resource becomes available.  Suppose that it
may start at some moment.  Going back from there to the latest of these, no window that holds it is
left and none that is forbidden is entered, the resources are available still, and no booking is
met that is not under way at the later start as well.  So the task may start there too, and the
first moment at which it may is at most the one that it started from.
-/

namespace AvailabilityWindow

variable {α : Type} [Scalar α]

/-- No moment is in both of two windows, each from its start up to, but not including, its end. -/
def IsApart (window other : AvailabilityWindow α) : Prop :=
  ∀ moment,
    window.start ≤ moment → moment < window.finish →
      ¬ (other.start ≤ moment ∧ moment < other.finish)

instance : Std.Symm (IsApart (α := α)) where
  symm _ _ isApart moment afterStart beforeFinish inside :=
    isApart moment inside.1 inside.2 ⟨afterStart, beforeFinish⟩

/-- Windows one of which ends before the other starts are apart. -/
theorem isApart_of_le
    [OrderedScalar α]
    {window other : AvailabilityWindow α}
    (endsBefore : window.finish ≤ other.start) :
    window.IsApart other :=
  fun _ _ beforeFinish inside => (beforeFinish.trans_le (endsBefore.trans inside.1)).false

section Exact

variable [SolvingScalar α] {window other : AvailabilityWindow α} {start duration : α}

/-- A window that covers an interval longer than the slack overlaps every other one that covers it
but for the slack, unless this is empty and the interval is no longer than twice the slack. -/
theorem not_isApart_of_covers
    (isFinite : Scalar.isFinite start = true)
    (isLong : Scalar.slack < duration)
    (startsBefore : window.start ≤ start)
    (endsAfter : start + duration ≤ window.finish)
    (startsNear : other.start ≤ start + Scalar.slack)
    (endsNear : start + duration ≤ other.finish + Scalar.slack)
    (isWide : Scalar.slack + Scalar.slack < duration ∨ other.start < other.finish) :
    ¬ other.IsApart window := by
  have slackBefore : start + Scalar.slack < start + duration := by
    rw [add_comm start, add_comm start]
    exact (Scalar.add_lt_add_iff_of_isFinite isFinite).mpr isLong
  have startInside : start < other.finish :=
    (Scalar.add_lt_add_iff_of_isFinite Scalar.isFinite_slack).mp (slackBefore.trans_le endsNear)
  have otherNonempty : other.start < other.finish := by
    refine isWide.elim (fun isLonger => ?_) id
    refine startsNear.trans_lt
      ((Scalar.add_lt_add_iff_of_isFinite Scalar.isFinite_slack).mp (lt_of_lt_of_le ?_ endsNear))
    rw [add_assoc, add_comm start, add_comm start]
    exact (Scalar.add_lt_add_iff_of_isFinite isFinite).mpr isLonger
  -- The later one of their starts is in both of them.
  intro isApart
  refine isApart (max other.start window.start) (le_max_left _ _) ?_ ⟨le_max_right _ _, ?_⟩
  · exact max_lt otherNonempty (startsBefore.trans_lt startInside)
  · exact max_lt (startsNear.trans_lt (slackBefore.trans_le endsAfter))
      (startsBefore.trans_lt
        ((Scalar.le_add_slack start).trans_lt (slackBefore.trans_le endsAfter)))

end Exact

end AvailabilityWindow

namespace Resource

variable {α : Type} [Scalar α]

/-- A resource has a capacity from a start to an end: its own where it is always there, or that of
a window that covers the interval. -/
inductive Offers (resource : Resource α) (start finish : α) : α → Prop where
  | always :
      resource.availability = [] →
      Offers resource start finish resource.capacity
  | within
      {window : AvailabilityWindow α} :
      window ∈ resource.availability →
      window.start ≤ start →
      finish ≤ window.finish →
      Offers resource start finish window.capacity

/-- The windows of a resource are apart, and wide enough for a duration: it is longer than twice
the slack, or none of them is empty. -/
structure HasApartWindows (resource : Resource α) (duration : α) : Prop where
  isApart : resource.availability.Pairwise AvailabilityWindow.IsApart
  isWide :
    Scalar.slack + Scalar.slack < duration ∨
      ∀ window ∈ resource.availability, window.start < window.finish

/-- What a resource offers for an interval is what is found for it. -/
theorem capacityIn_eq_some_of_offers
    [SolvingScalar α]
    {resource : Resource α}
    {start duration capacity : α}
    (isFinite : Scalar.isFinite start = true)
    (isLong : Scalar.slack < duration)
    (hasApartWindows : resource.HasApartWindows duration)
    (offers : resource.Offers start (start + duration) capacity) :
    resource.capacityIn start (start + duration) = some capacity := by
  unfold capacityIn
  cases offers with
  | always noWindows =>
      rw [noWindows]
      rfl
  | @within window member startsBefore endsAfter =>
      rw [if_neg (by simpa using List.ne_nil_of_mem member), Option.map_eq_some_iff]
      have isFound : (resource.availability.find? fun other =>
          other.start ≤ start + Scalar.slack &&
            start + duration ≤ other.finish + Scalar.slack).isSome := by
        rw [List.find?_isSome]
        refine ⟨window, member, ?_⟩
        rw [Bool.and_eq_true, decide_eq_true_eq, decide_eq_true_eq]
        exact ⟨startsBefore.trans (Scalar.le_add_slack start),
          endsAfter.trans (Scalar.le_add_slack _)⟩
      obtain ⟨other, isOther⟩ := Option.isSome_iff_exists.mp isFound
      obtain rfl : other = window := by
        by_contra isDifferent
        have isMember := List.mem_of_find?_eq_some isOther
        have isNear := List.find?_some isOther
        rw [Bool.and_eq_true, decide_eq_true_eq, decide_eq_true_eq] at isNear
        exact AvailabilityWindow.not_isApart_of_covers isFinite isLong startsBefore endsAfter
          isNear.1 isNear.2 (hasApartWindows.isWide.imp_right fun areWide => areWide other isMember)
          (hasApartWindows.isApart.forall isMember member isDifferent)
      exact ⟨other, isOther, rfl⟩

end Resource

namespace Calendar

variable {α : Type} [Scalar α]

/-- A quantity of a resource is free from a start to an end: the resource has the capacity for it
besides what is booked at every moment, and where it is not shared nothing is booked. -/
structure Admits (calendar : Calendar α) (resource : Resource α)
    (quantity start finish capacity : α) : Prop where
  offers : resource.Offers start finish capacity
  fits :
    ∀ moment, start ≤ moment → moment < finish →
      usageAt (calendar.bookingsOn resource.identifier) resource.identifier moment + quantity ≤
        capacity
  unshared :
    calendar.allowSharing = false →
      ∀ moment, start ≤ moment → moment < finish →
        ∀ booking ∈ calendar.bookingsOn resource.identifier, booking.isActive moment = false

/-- No booking holds less than nothing of a resource. -/
def HoldsNothingNegative (calendar : Calendar α) : Prop :=
  ∀ booking ∈ calendar.bookings, ∀ use ∈ booking.resources, 0 ≤ use.2

variable {calendar : Calendar α}

section Exact

variable [ExactScalar α] {resource : String}

theorem HoldsNothingNegative.quantityOf_nonneg
    (holdsNothingNegative : calendar.HoldsNothingNegative)
    {booking : Placement α}
    (member : booking ∈ calendar.bookingsOn resource) :
    0 ≤ booking.quantityOf resource := by
  unfold Placement.quantityOf
  cases found : booking.resources.lookup resource with
  | none => exact le_rfl
  | some quantity =>
      exact holdsNothingNegative booking (List.mem_of_mem_filter member) (resource, quantity)
        (mem_of_lookup_eq_some found)

/-- No more is used at a moment than at another one by more bookings, if those that are under way
stay so. -/
theorem usageAt_le_usageAt
    {bookings others : List (Placement α)}
    {moment later : α}
    (areAmong : bookings.Sublist others)
    (nonneg : ∀ booking ∈ others, 0 ≤ booking.quantityOf resource)
    (stillActive :
      ∀ booking ∈ bookings, booking.isActive moment = true → booking.isActive later = true) :
    usageAt bookings resource moment ≤ usageAt others resource later := by
  have areActive :
      (bookings.filter (·.isActive moment)).Sublist (others.filter (·.isActive later)) :=
    (filter_sublist_filter stillActive).trans (areAmong.filter _)
  unfold usageAt
  rw [Scalar.total_eq_sum, Scalar.total_eq_sum]
  refine (areActive.map _).sum_le_sum ?_
  intro quantity isHeld
  obtain ⟨booking, member, rfl⟩ := List.mem_map.mp isHeld
  exact nonneg booking (List.mem_of_mem_filter member)

/-- The peak within an interval is what is used at some moment of it. -/
theorem exists_sample_of_peakUsage
    (calendar : Calendar α)
    (resource : String)
    {start finish : α}
    (nonempty : start < finish) :
    ∃ sample,
      start ≤ sample ∧ sample < finish ∧
        calendar.peakUsage resource start finish =
          usageAt ((calendar.bookingsOn resource).filter (·.overlaps start finish)) resource
            sample := by
  unfold peakUsage
  dsimp only
  set overlapping := (calendar.bookingsOn resource).filter (·.overlaps start finish)
  set samples := start :: (overlapping.map (·.start)).filter fun moment => start < moment
  have atStart : usageAt overlapping resource start ∈ samples.map (usageAt overlapping resource) :=
    List.mem_map_of_mem List.mem_cons_self
  obtain ⟨peak, isPeak, -⟩ := Scalar.exists_largest?_of_mem atStart
  obtain ⟨sample, isSample, rfl⟩ := List.mem_map.mp (Scalar.mem_of_largest?_eq_some isPeak)
  refine ⟨sample, ?_, ?_, by rw [isPeak, Option.getD_some]⟩
  · rcases List.mem_cons.mp isSample with rfl | isLater
    · exact le_rfl
    · exact (of_decide_eq_true (List.mem_filter.mp isLater).2).le
  · rcases List.mem_cons.mp isSample with rfl | isLater
    · exact nonempty
    · obtain ⟨booking, isOverlapping, rfl⟩ := List.mem_map.mp (List.mem_of_mem_filter isLater)
      have overlaps := (List.mem_filter.mp isOverlapping).2
      rw [Placement.overlaps, Bool.and_eq_true, decide_eq_true_eq,
        ExactScalar.lt_sub_slack_iff] at overlaps
      exact (Scalar.le_add_slack _).trans_lt overlaps.1

/-- What is free from a start on is free from an earlier moment on too, if no booking ends between
them and the capacity is there. -/
theorem hasRoom_of_admits
    {resource : Resource α}
    {quantity earlier start duration capacity : α}
    (holdsNothingNegative : calendar.HoldsNothingNegative)
    (isEarlier : earlier ≤ start)
    (fromEarlier : earlier < earlier + duration)
    (fromStart : start < start + duration)
    (noneEnds :
      ∀ booking ∈ calendar.bookingsOn resource.identifier,
        booking.finish ≤ start → booking.finish ≤ earlier)
    (isCapacity : resource.capacityIn earlier (earlier + duration) = some capacity)
    (admits : calendar.Admits resource quantity start (start + duration) capacity) :
    calendar.hasRoom resource quantity earlier (earlier + duration) = true := by
  obtain ⟨sample, afterEarlier, beforeFinish, isPeak⟩ :=
    calendar.exists_sample_of_peakUsage resource.identifier fromEarlier
  have inside : max sample start < start + duration :=
    max_lt (beforeFinish.trans_le (add_le_add_left isEarlier duration)) fromStart
  -- A booking that is under way at the sample has not ended when the later start comes.
  have stillActive :
      ∀ booking ∈ calendar.bookingsOn resource.identifier,
        booking.isActive sample = true → booking.isActive (max sample start) = true := by
    intro booking member isActive
    rw [Placement.isActive, Bool.and_eq_true, decide_eq_true_eq, decide_eq_true_eq] at isActive ⊢
    refine ⟨isActive.1.trans (le_max_left _ _), max_lt isActive.2 ?_⟩
    by_contra hasEnded
    exact absurd (isActive.2.trans_le (noneEnds booking member (not_lt.mp hasEnded)))
      afterEarlier.not_gt
  have areAmong :=
    List.filter_sublist (p := (·.overlaps earlier (earlier + duration)))
      (l := calendar.bookingsOn resource.identifier)
  unfold hasRoom
  rw [isCapacity]
  dsimp only
  rw [isPeak]
  split
  · rename_i isTaken
    rw [Bool.and_eq_true, Bool.not_eq_true', decide_eq_true_eq] at isTaken
    obtain ⟨notShared, isUsed⟩ := isTaken
    -- Where nothing is shared, no booking is under way.
    have noneActive :
        ((calendar.bookingsOn resource.identifier).filter
          (·.overlaps earlier (earlier + duration))).filter (·.isActive sample) = [] := by
      rw [List.filter_eq_nil_iff]
      intro booking member isActive
      have onResource := areAmong.subset member
      have notActive :=
        admits.unshared notShared _ (le_max_right _ _) inside booking onResource
      rw [stillActive booking onResource isActive] at notActive
      cases notActive
    rw [usageAt, noneActive] at isUsed
    exact absurd isUsed (lt_irrefl _)
  · rw [decide_eq_true_eq]
    calc usageAt ((calendar.bookingsOn resource.identifier).filter
            (·.overlaps earlier (earlier + duration))) resource.identifier sample + quantity
        ≤ usageAt (calendar.bookingsOn resource.identifier) resource.identifier
            (max sample start) + quantity := by
          gcongr
          exact usageAt_le_usageAt areAmong
            (fun booking => holdsNothingNegative.quantityOf_nonneg)
            fun booking member => stillActive booking (areAmong.subset member)
      _ ≤ capacity := admits.fits _ (le_max_right _ _) inside
      _ ≤ capacity + Scalar.slack := Scalar.le_add_slack capacity

end Exact

/-- What is free from a start on is found to be free from an earlier moment on too, if between them
no booking ends and no window of the resource starts. -/
theorem fits_of_admits
    [SolvingScalar α]
    {name : String}
    {resource : Resource α}
    {quantity earlier start duration capacity : α}
    (found : calendar.resource? name = some resource)
    (hasApartWindows : resource.HasApartWindows duration)
    (holdsNothingNegative : calendar.HoldsNothingNegative)
    (isLong : Scalar.slack < duration)
    (earlierFinite : Scalar.isFinite earlier = true)
    (startFinite : Scalar.isFinite start = true)
    (isEarlier : earlier ≤ start)
    (noneReleases :
      ∀ moment ∈ calendar.releasePoints name, moment ≤ start → moment ≤ earlier)
    (admits : calendar.Admits resource quantity start (start + duration) capacity) :
    calendar.fits name quantity earlier (earlier + duration) = true := by
  have lengthens : ∀ moment : α, Scalar.isFinite moment = true → moment < moment + duration := by
    intro moment isFinite
    refine (Scalar.le_add_slack moment).trans_lt ?_
    rw [add_comm moment, add_comm moment]
    exact (Scalar.add_lt_add_iff_of_isFinite isFinite).mpr isLong
  have isNamed : resource.identifier = name := by
    simpa using List.find?_some found
  have offers : resource.Offers earlier (earlier + duration) capacity := by
    cases admits.offers with
    | always noWindows => exact .always noWindows
    | @within window member startsBefore endsAfter =>
        refine .within member (noneReleases _ ?_ startsBefore)
          ((add_le_add_left isEarlier duration).trans endsAfter)
        rw [releasePoints, found]
        exact List.mem_append_right _ (List.mem_map_of_mem member)
  unfold fits
  rw [found]
  refine hasRoom_of_admits holdsNothingNegative isEarlier (lengthens _ earlierFinite)
    (lengthens _ startFinite) ?_
    (Resource.capacityIn_eq_some_of_offers earlierFinite isLong hasApartWindows offers) admits
  rw [isNamed]
  intro booking member
  exact noneReleases _ (List.mem_append_left _ (List.mem_map_of_mem member))

end Calendar

namespace Task

variable {α : Type} [Scalar α]

/-- A task may start at a moment, without any slack. -/
structure IsAdmissible (task : Task α) (usage : Usage α) (calendar : Calendar α)
    (horizonEnd start : α) : Prop where
  within_horizon : start + task.duration ≤ horizonEnd
  within_required :
    task.windowsOf .required ≠ [] →
      ∃ window ∈ task.windowsOf .required,
        window.start ≤ start ∧ start + task.duration ≤ window.finish
  outside_forbidden :
    ∀ window ∈ task.windowsOf .forbidden,
      window.finish ≤ start ∨ start + task.duration ≤ window.start
  admits :
    ∀ use ∈ usage.entries,
      ∃ resource capacity,
        calendar.resource? use.1 = some resource ∧
          calendar.Admits resource use.2 start (start + task.duration) capacity

/-- Going back from an admissible moment to one after which no window of a task opens, and no
forbidden one closes, the windows still allow the task. -/
theorem allows_of_isAdmissible
    [ExactScalar α]
    {task : Task α}
    {usage : Usage α}
    {calendar : Calendar α}
    {horizonEnd earlier start : α}
    (isAdmissible : task.IsAdmissible usage calendar horizonEnd start)
    (isEarlier : earlier ≤ start)
    (noneOpens : ∀ opening ∈ task.openings, opening ≤ start → opening ≤ earlier) :
    task.allows earlier (earlier + task.duration) = true := by
  have endsEarlier : earlier + task.duration ≤ start + task.duration :=
    add_le_add_left isEarlier task.duration
  unfold allows
  rw [Bool.and_eq_true, Bool.or_eq_true, Bool.not_eq_true', List.any_eq_false]
  constructor
  · by_cases someRequired : task.windowsOf .required = []
    · exact Or.inl (by simp [someRequired])
    · obtain ⟨window, isRequired, startsBefore, endsAfter⟩ :=
        isAdmissible.within_required someRequired
      refine Or.inr (List.any_eq_true.mpr ⟨window, isRequired, ?_⟩)
      obtain ⟨member, isKind⟩ := List.mem_filter.mp isRequired
      have isOpening : window.start ∈ task.openings :=
        List.mem_map.mpr ⟨window, member, by simp [eq_of_beq isKind]⟩
      rw [Bool.and_eq_true, decide_eq_true_eq, decide_eq_true_eq]
      exact ⟨noneOpens _ isOpening startsBefore, endsEarlier.trans endsAfter⟩
  · intro window isForbidden
    obtain ⟨member, isKind⟩ := List.mem_filter.mp isForbidden
    have isOpening : window.finish ∈ task.openings :=
      List.mem_map.mpr ⟨window, member, by simp [eq_of_beq isKind]⟩
    rw [Bool.and_eq_true, decide_eq_true_eq, decide_eq_true_eq]
    rintro ⟨startsBefore, endsAfter⟩
    rcases isAdmissible.outside_forbidden window isForbidden with isOver | isAhead
    · exact absurd startsBefore (noneOpens _ isOpening isOver).not_gt
    · exact absurd endsAfter (endsEarlier.trans isAhead).not_gt

/-- The moments at which a task is tried that is ready from a moment on. -/
def momentsTried (task : Task α) (usage : Usage α) (ready : α) (calendar : Calendar α) : List α :=
  ready :: task.openings ++ usage.names.flatMap calendar.releasePoints

/-- A task is not placed after a moment that is tried and at which it has room. -/
theorem exists_earliestStart?_le_of_momentsTried
    [ExactScalar α]
    {task : Task α}
    {usage : Usage α}
    {ready moment horizonEnd : α}
    {calendar : Calendar α}
    (isTried : moment ∈ task.momentsTried usage ready calendar)
    (isReady : ready ≤ moment)
    (inTime : moment + task.duration ≤ horizonEnd)
    (isAllowed : task.allows moment (moment + task.duration) = true)
    (fits :
      ∀ use ∈ usage.entries, calendar.fits use.1 use.2 moment (moment + task.duration) = true) :
    ∃ first,
      task.earliestStart? usage ready calendar horizonEnd = some first ∧ first ≤ moment := by
  obtain ⟨sameMoments, ascends⟩ :=
    Scalar.distinct_spec ((task.momentsTried usage ready calendar).filter (ready ≤ ·))
  -- No moment up to this one ends the search at the horizon.
  have isReached :
      moment ∈ (Scalar.distinct
        ((task.momentsTried usage ready calendar).filter (ready ≤ ·))).takeWhile
          fun start => !(horizonEnd + Scalar.slack < start + task.duration) := by
    refine Scalar.mem_takeWhile_of_forall_le ascends ?_ fun earlier isEarlier => ?_
    · exact (sameMoments moment).mpr (List.mem_filter.mpr ⟨isTried, by simpa using isReady⟩)
    · rw [Bool.not_eq_true', decide_eq_false_iff_not, not_lt]
      calc earlier + task.duration
          ≤ moment + task.duration := add_le_add_left isEarlier task.duration
        _ ≤ horizonEnd := inTime
        _ ≤ horizonEnd + Scalar.slack := Scalar.le_add_slack horizonEnd
  refine Scalar.exists_find?_le (ascends.sublist (List.takeWhile_sublist _)) isReached ?_
  rw [Bool.and_eq_true, List.all_eq_true]
  exact ⟨isAllowed, fits⟩

/-- A task finds its earliest start: it starts at a moment that is at most every moment from which
on it may start, if it is longer than the slack, the windows of each resource that it uses are apart
and not empty, or it is longer than twice the slack, and no booking holds less than nothing. -/
theorem earliestStart?_le_of_isAdmissible
    [SolvingScalar α]
    (task : Task α)
    (usage : Usage α)
    (ready : α)
    (calendar : Calendar α)
    (horizonEnd : α)
    (isLong : Scalar.slack < task.duration)
    (hasApartWindows :
      ∀ name ∈ usage.names, ∀ resource, calendar.resource? name = some resource →
        resource.HasApartWindows task.duration)
    (holdsNothingNegative : calendar.HoldsNothingNegative)
    (start : α)
    (readyFinite : Scalar.isFinite ready = true)
    (startFinite : Scalar.isFinite start = true)
    (isReady : ready ≤ start)
    (isAdmissible : task.IsAdmissible usage calendar horizonEnd start) :
    ∃ first,
      task.earliestStart? usage ready calendar horizonEnd = some first ∧ first ≤ start := by
  have isFirst : ready ∈ task.momentsTried usage ready calendar := List.mem_cons_self
  obtain ⟨latest, isTried, isEarlier, isLatest⟩ := Scalar.exists_latest isFirst isReady
  have afterReady : ready ≤ latest := isLatest ready isFirst isReady
  have latestFinite :=
    BoundedScalar.isFinite_between _ _ _ afterReady isEarlier readyFinite startFinite
  have inTime : latest + task.duration ≤ horizonEnd :=
    (add_le_add_left isEarlier task.duration).trans isAdmissible.within_horizon
  have isAllowed : task.allows latest (latest + task.duration) = true := by
    refine allows_of_isAdmissible isAdmissible isEarlier fun opening isOpening => ?_
    exact isLatest opening (List.mem_append_left _ (List.mem_cons_of_mem ready isOpening))
  have fits (use : String × α) (isUsed : use ∈ usage.entries) :
      calendar.fits use.1 use.2 latest (latest + task.duration) = true := by
    obtain ⟨resource, capacity, found, admits⟩ := isAdmissible.admits use isUsed
    have isName : use.1 ∈ usage.names := List.mem_map_of_mem isUsed
    refine Calendar.fits_of_admits found (hasApartWindows use.1 isName resource found)
      holdsNothingNegative isLong latestFinite startFinite isEarlier ?_ admits
    intro moment isRelease
    exact isLatest moment
      (List.mem_append_right _ (List.mem_flatMap.mpr ⟨use.1, isName, isRelease⟩))
  obtain ⟨first, found, atMostLatest⟩ :=
    exists_earliestStart?_le_of_momentsTried isTried afterReady inTime isAllowed fits
  exact ⟨first, found, atMostLatest.trans isEarlier⟩

/-- A worker who is there in the morning and in the afternoon. -/
def dayWorker : Resource Extended where
  identifier := "ann"
  name := ""
  kind := .human
  capacity := 1
  availability := [⟨0, .finite 4, 1⟩, ⟨.finite 6, .finite 10, 1⟩]
  skills := []
  cost := 0
  regularTime := none

/-- A worker who is booked until three. -/
def bookedMorning : Calendar Extended where
  resources := [dayWorker]
  allowSharing := false
  bookings := [⟨"call", 0, .finite 3, [("ann", 1)], 0, false⟩]

/-- A task of two hours that is not to be under way between five and half past six. -/
def errand : Task Extended where
  identifier := "errand"
  name := ""
  duration := .finite 2
  priority := 0
  dependencies := []
  requirements := []
  windows := [⟨0, .finite 10, .required⟩, ⟨.finite 5, .finite (13 / 2), .forbidden⟩]
  skills := []

/-- The errand may start at seven, so it starts by then. -/
theorem errand_starts_by_seven :
    ∃ first,
      errand.earliestStart? ⟨[("ann", 1)]⟩ 0 bookedMorning (.finite 10) = some first ∧
        first ≤ .finite 7 := by
  have isOver (booking : Placement Extended) (isBooking : booking ∈ bookedMorning.bookings)
      (moment : Extended) (isLater : .finite 7 ≤ moment) :
      booking.isActive moment = false := by
    obtain rfl := List.mem_singleton.mp isBooking
    have endsBefore : Extended.finite 3 ≤ .finite 7 := by decide +kernel
    rw [Placement.isActive, Bool.and_eq_false_iff, decide_eq_false_iff_not (p := _ < _), not_lt]
    exact Or.inr (endsBefore.trans isLater)
  apply earliestStart?_le_of_isAdmissible errand ⟨[("ann", 1)]⟩ 0 bookedMorning (.finite 10)
  · decide +kernel
  · intro name isUsed resource found
    obtain rfl := List.mem_singleton.mp isUsed
    obtain rfl := Option.some.inj found
    refine ⟨List.pairwise_pair.mpr (AvailabilityWindow.isApart_of_le ?_), Or.inl ?_⟩
    · decide +kernel
    · decide +kernel
  · unfold Calendar.HoldsNothingNegative
    decide +kernel
  · decide +kernel
  · decide +kernel
  · decide +kernel
  · refine ⟨by decide +kernel, fun _ => by decide +kernel, by decide +kernel, ?_⟩
    intro use isUsed
    obtain rfl := List.mem_singleton.mp isUsed
    refine ⟨dayWorker, 1, by cbv, ?_, ?_, ?_⟩
    · have isAfternoon : ⟨.finite 6, .finite 10, 1⟩ ∈ dayWorker.availability :=
        List.mem_cons_of_mem _ (List.mem_singleton_self _)
      exact .within isAfternoon (by decide +kernel) (by decide +kernel)
    · intro moment isLater _
      rw [Calendar.usageAt, List.filter_eq_nil_iff.mpr]
      · decide +kernel
      · intro booking isBooking
        rw [isOver booking (List.mem_of_mem_filter isBooking) moment isLater]
        exact Bool.false_ne_true
    · intro _ moment isLater _ booking isBooking
      exact isOver booking (List.mem_of_mem_filter isBooking) moment isLater

/-- A worker for whom a single moment is listed as a window, before the day. -/
def momentWorker : Resource Extended where
  identifier := "ann"
  name := ""
  kind := .human
  capacity := 1
  availability := [⟨Scalar.decimal 7 10, Scalar.decimal 7 10, 0⟩, ⟨0, .finite 10, 1⟩]
  skills := []
  cost := 0
  regularTime := none

/-- That worker without bookings. -/
def freeDay : Calendar Extended where
  resources := [momentWorker]
  allowSharing := false
  bookings := []

/-- A worker who is always there and booked for a day, with a booking that from five on gives back
what the other one takes. -/
def givenBack : Calendar Extended where
  resources := [{ momentWorker with availability := [] }]
  allowSharing := true
  bookings :=
    [⟨"call", 0, .finite 10, [("ann", 1)], 0, false⟩,
      ⟨"refund", .finite 5, .finite 10, [("ann", -1)], 0, false⟩]

/-- A task that is longer than the slack, but not twice as long. -/
def blink : Task Extended where
  identifier := "blink"
  name := ""
  duration := Scalar.decimal 15 10
  priority := 0
  dependencies := []
  requirements := []
  windows := []
  skills := []

theorem blink_isAdmissible_on_freeDay :
    blink.IsAdmissible ⟨[("ann", 1)]⟩ freeDay (.finite 10) 0 := by
  refine ⟨by decide +kernel, fun someRequired => absurd rfl someRequired, by decide +kernel, ?_⟩
  intro use isUsed
  obtain rfl := List.mem_singleton.mp isUsed
  have isDay : ⟨0, .finite 10, 1⟩ ∈ momentWorker.availability :=
    List.mem_cons_of_mem _ (List.mem_singleton_self _)
  refine ⟨momentWorker, 1, by cbv, ?_, ?_, nofun⟩
  · exact .within isDay (by decide +kernel) (by decide +kernel)
  · intro moment _ _
    change Scalar.total [] + (1 : Extended) ≤ 1
    decide +kernel

theorem blink_isAdmissible_on_givenBack :
    blink.IsAdmissible ⟨[("ann", 1)]⟩ givenBack (.finite 10) (.finite 5) := by
  refine ⟨by decide +kernel, fun someRequired => absurd rfl someRequired, by decide +kernel, ?_⟩
  intro use isUsed
  obtain rfl := List.mem_singleton.mp isUsed
  refine ⟨{ momentWorker with availability := [] }, 1, by cbv, .always rfl, ?_, nofun⟩
  intro moment fromFive beforeEnd
  have fromStart : 0 ≤ moment := le_trans (by decide +kernel) fromFive
  have beforeTen : moment < .finite 10 := lt_of_lt_of_le beforeEnd (by decide +kernel)
  -- Both bookings are under way, and they take nothing together.
  have areActive : givenBack.bookings.filter (·.isActive moment) = givenBack.bookings := by
    simp [givenBack, Placement.isActive, fromStart, fromFive, beforeTen]
  change Scalar.total ((givenBack.bookings.filter (·.isActive moment)).map (·.quantityOf "ann"))
    + 1 ≤ 1
  rw [areActive]
  decide +kernel

/-- A moment that is listed as a window hides the day around it, so that a task starts only after
it; and where a booking gives back what it takes, more becomes free at its start, which is not among
the moments that are tried. -/
theorem earliestStart?_misses_admissible :
    (Scalar.slack < blink.duration ∧
      momentWorker.availability.Pairwise AvailabilityWindow.IsApart ∧
        blink.IsAdmissible ⟨[("ann", 1)]⟩ freeDay (.finite 10) 0 ∧
          blink.earliestStart? ⟨[("ann", 1)]⟩ 0 freeDay (.finite 10) =
              some (Scalar.decimal 7 10) ∧
            ¬ (Scalar.decimal 7 10 : Extended) ≤ 0) ∧
      blink.IsAdmissible ⟨[("ann", 1)]⟩ givenBack (.finite 10) (.finite 5) ∧
        blink.earliestStart? ⟨[("ann", 1)]⟩ 0 givenBack (.finite 10) = none := by
  refine ⟨⟨by decide +kernel, ?_, blink_isAdmissible_on_freeDay, by decide +kernel,
    by decide +kernel⟩, blink_isAdmissible_on_givenBack, by decide +kernel⟩
  refine List.pairwise_pair.mpr fun moment afterStart beforeFinish _ => ?_
  exact absurd (afterStart.trans_lt beforeFinish) (by decide +kernel)

end Task

end Optima
