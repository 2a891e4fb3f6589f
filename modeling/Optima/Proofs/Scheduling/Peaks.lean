import Mathlib.Order.Bounds.Basic
import Mathlib.Order.Hom.Basic
import Optima.Proofs.Scalar.Extended
import Optima.Proofs.Scheduling.Bookings
import Optima.Proofs.Scheduling.Calendar
import Optima.Proofs.Scheduling.Earliest

namespace Optima

/-!
# The peak of what is used

What is used of a resource changes all through an interval, but its peak is looked for at a few
moments only: at the start of the interval, and where bookings start within it.  This is enough.
For going back from any moment to the latest of these, no booking is left, since none has started in
between, and what was under way there for all of the time is under way still.

As with waiting, the moments are those of any axis on which the numbers have their places.
-/

namespace Calendar

variable {α R : Type} [Scalar α] [LinearOrder R]

/-- What those bookings that overlap an interval use of a resource at a moment on an axis. -/
def usedWithin (place : α ↪o R) (bookings : List (Placement α)) (resource : String)
    (start finish : α) (moment : R) : α :=
  Scalar.total
    ((bookings.filter fun booking =>
        booking.uses resource && booking.overlaps start finish &&
          decide (place booking.start ≤ moment ∧ moment < place booking.finish)).map
      (·.quantityOf resource))

variable [ExactScalar α] {place : α ↪o R} {calendar : Calendar α} {resource : String}
  {start finish : α}

/-- At the place of a number, what is used is what the peak is the largest of. -/
theorem usedWithin_place
    (place : α ↪o R)
    (calendar : Calendar α)
    (resource : String)
    (start finish sample : α) :
    usedWithin place calendar.bookings resource start finish (place sample) =
      usageAt ((calendar.bookingsOn resource).filter (·.overlaps start finish)) resource
        sample := by
  unfold usedWithin usageAt bookingsOn
  rw [List.filter_filter, List.filter_filter]
  congr 2
  apply List.filter_congr
  intro booking _
  simp only [place.le_iff_le, place.lt_iff_lt, Placement.isActive, Bool.decide_and]
  rw [Bool.and_comm, Bool.and_comm (booking.uses resource)]
  exact (Bool.and_assoc _ _ _).symm

/-- Before a moment of an interval there is one at which the peak is looked for, and at which no
less is used. -/
theorem exists_sample_usedWithin_le
    (usesEachOnce : ∀ booking ∈ calendar.bookings, Scheduling.UsesEachOnce booking)
    {moment : R}
    (afterStart : place start ≤ moment) :
    ∃ sample ∈ start ::
        (((calendar.bookingsOn resource).filter (·.overlaps start finish)).map
          (·.start)).filter fun moment => start < moment,
      usedWithin place calendar.bookings resource start finish moment ≤
        usageAt ((calendar.bookingsOn resource).filter (·.overlaps start finish)) resource
          sample := by
  set overlapping := (calendar.bookingsOn resource).filter (·.overlaps start finish)
  have isFirst : start ∈ start :: overlapping.map (·.start) := List.mem_cons_self
  obtain ⟨sample, isStart, isBefore, isLatest⟩ :
      ∃ sample ∈ start :: overlapping.map (·.start),
        place sample ≤ moment ∧
          ∀ other ∈ start :: overlapping.map (·.start), place other ≤ moment → other ≤ sample :=
    Scalar.exists_largest_of_holds isFirst afterStart
  refine ⟨sample, ?_, ?_⟩
  · rcases (isLatest start isFirst afterStart).eq_or_lt with isSame | isAfter
    · rw [← isSame]
      exact List.mem_cons_self
    · have isLater := (List.mem_cons.mp isStart).resolve_left isAfter.ne'
      exact List.mem_cons_of_mem start (List.mem_filter.mpr ⟨isLater, by simpa using isAfter⟩)
  · -- What is under way at the moment has started by the sample, and has not ended there.
    rw [← usedWithin_place place]
    unfold usedWithin
    rw [Scalar.total_eq_sum, Scalar.total_eq_sum]
    refine ((filter_sublist_filter ?_).map _).sum_le_sum ?_
    · intro booking member isUsed
      simp only [Bool.and_eq_true, decide_eq_true_eq] at isUsed ⊢
      obtain ⟨⟨uses, overlaps⟩, hasStarted, notEnded⟩ := isUsed
      have isOverlapping : booking ∈ overlapping :=
        List.mem_filter.mpr ⟨List.mem_filter.mpr ⟨member, uses⟩, overlaps⟩
      have startsBefore : booking.start ≤ sample :=
        isLatest _ (List.mem_cons_of_mem start (List.mem_map_of_mem isOverlapping)) hasStarted
      exact ⟨⟨uses, overlaps⟩, place.le_iff_le.mpr startsBefore, isBefore.trans_lt notEnded⟩
    · intro quantity isUsed
      obtain ⟨booking, isLeft, rfl⟩ := List.mem_map.mp isUsed
      obtain ⟨member, isUsed⟩ := List.mem_filter.mp isLeft
      simp only [Bool.and_eq_true] at isUsed
      exact ((usesEachOnce booking member).quantity_of_uses isUsed.1.1).2.le

/--
The peak within an interval is the most that the bookings that stand and overlap it use of a
resource together, at any moment from its start up to, but not including, its end; it is zero if no
booking of the resource overlaps the interval.  A booking that is released at once leaves no trace.
-/
theorem peakUsage_isGreatest
    (place : α ↪o R)
    {resources : List (Resource α)}
    {allowSharing : Bool}
    {calls : List (Call α)}
    {calendar : Calendar α}
    (reached : Reached resources allowSharing calls calendar)
    (usesEachOnce : ∀ placement, .book placement ∈ calls → Scheduling.UsesEachOnce placement)
    (resource : String)
    {start finish : α}
    (isInterval : start < finish) :
    IsGreatest
        {quantity | ∃ moment, place start ≤ moment ∧ moment < place finish ∧
          usedWithin place (standing calls) resource start finish moment = quantity}
        (calendar.peakUsage resource start finish) ∧
      ((∀ booking ∈ standing calls,
          booking.uses resource = true → booking.overlaps start finish = false) →
        calendar.peakUsage resource start finish = 0) ∧
      ∀ placement, (∀ booking ∈ standing calls, booking.task ≠ placement.task) →
        (calendar.book placement).release placement = calendar := by
  obtain ⟨areStanding, -⟩ := reached.bookings_eq
  have bookingsUseEachOnce : ∀ booking ∈ calendar.bookings, Scheduling.UsesEachOnce booking := by
    intro booking member
    rw [areStanding] at member
    exact usesEachOnce booking (mem_calls_of_mem_standing member)
  obtain ⟨sample, afterStart, beforeFinish, isPeak⟩ :=
    calendar.exists_sample_of_peakUsage resource isInterval
  rw [← areStanding]
  refine ⟨⟨⟨place sample, ?_, ?_, ?_⟩, ?_⟩, ?_, fun placement => release_book⟩
  · exact place.le_iff_le.mpr afterStart
  · exact place.lt_iff_lt.mpr beforeFinish
  · rw [usedWithin_place, isPeak]
  · rintro quantity ⟨moment, isLate, -, rfl⟩
    obtain ⟨other, isSample, atMost⟩ := exists_sample_usedWithin_le bookingsUseEachOnce isLate
    exact atMost.trans (Scheduling.usageAt_le_peakUsage calendar resource isSample)
  · intro noneOverlaps
    have isEmpty : (calendar.bookingsOn resource).filter (·.overlaps start finish) = [] := by
      rw [List.filter_eq_nil_iff]
      intro booking member
      obtain ⟨isBooked, uses⟩ := List.mem_filter.mp member
      rw [noneOverlaps booking isBooked uses]
      exact Bool.false_ne_true
    rw [isPeak, isEmpty]
    rfl

/-- A task that takes up some of the room on a bench. -/
def onBench (task : String) (start finish room : Rat) : Placement Extended :=
  ⟨task, .finite start, .finite finish, [("bench", .finite room)], .finite 0, false⟩

/-- Sawing, drilling and milling on a bench; drilling is called off. -/
def benchCalls : List (Call Extended) :=
  [.book (onBench "saw" 0 4 2), .book (onBench "drill" 2 6 3), .book (onBench "mill" 3 5 5),
    .release (onBench "drill" 2 6 3)]

/-- The calendar that is left of it. -/
def benchCalendar : Calendar Extended :=
  ((((empty [] true).book (onBench "saw" 0 4 2)).book (onBench "drill" 2 6 3)).book
    (onBench "mill" 3 5 5)).release (onBench "drill" 2 6 3)

/-- With drilling called off, seven is the most that is used of the bench at any real moment, while
sawing and milling overlap. -/
theorem bench_peaks_at_seven :
    Reached [] true benchCalls benchCalendar ∧
      (∀ placement, .book placement ∈ benchCalls → Scheduling.UsesEachOnce placement) ∧
      Extended.finite 1 < .finite 10 ∧
      benchCalendar.peakUsage "bench" (.finite 1) (.finite 10) = .finite 7 ∧
      IsGreatest
        {quantity | ∃ moment,
          Extended.axis (.finite 1) ≤ moment ∧ moment < Extended.axis (.finite 10) ∧
            usedWithin Extended.axis (standing benchCalls) "bench" (.finite 1) (.finite 10) moment =
              quantity}
        (.finite 7) := by
  have reached : Reached [] true benchCalls benchCalendar := by
    refine .release _ (.book (.book (.book .start ?_) ?_) ?_) <;> simp [empty, book, onBench]
  have usesEachOnce :
      ∀ placement, .book placement ∈ benchCalls → Scheduling.UsesEachOnce placement := by
    intro placement isBooked
    simp only [benchCalls, List.mem_cons, Call.book.injEq, reduceCtorEq, List.not_mem_nil, or_false]
      at isBooked
    rcases isBooked with rfl | rfl | rfl <;> exact ⟨by decide +kernel, by decide +kernel⟩
  have isInterval : Extended.finite 1 < .finite 10 := by
    decide +kernel
  have isPeak : benchCalendar.peakUsage "bench" (.finite 1) (.finite 10) = .finite 7 := by
    decide +kernel
  obtain ⟨isGreatest, -, -⟩ :=
    peakUsage_isGreatest Extended.axis reached usesEachOnce "bench" isInterval
  rw [isPeak] at isGreatest
  exact ⟨reached, usesEachOnce, isInterval, isPeak, isGreatest⟩

end Calendar

end Optima
