import Optima.Proofs.Scalar.Laws
import Optima.Scheduling.Calendar

namespace Optima

/-!
# What stays booked

A calendar is kept by calls that book placements and release them again.  As long as no task is
booked twice at a time, what is on the calendar can be told from the calls: a placement is booked
unless it has been released since.
-/

namespace Placement

variable {α : Type} [Scalar α]

/-- A placement is the same as itself. -/
theorem beq_self
    [OrderedScalar α]
    (placement : Placement α) :
    (placement == placement) = true := by
  change placement.isSame placement = true
  simp [isSame, Scalar.same, OrderedScalar.beq_self]

/-- Placements that are the same are placements of the same task. -/
theorem task_eq_of_beq
    {first second : Placement α}
    (areSame : (first == second) = true) :
    first.task = second.task := by
  change first.isSame second = true at areSame
  simp only [isSame, Bool.and_eq_true] at areSame
  exact beq_iff_eq.mp areSame.1.1.1

end Placement

namespace Calendar

variable {α : Type} [Scalar α] {calendar : Calendar α} {placement : Placement α}

/-!
## Taking a booking back
-/

/-- Of bookings of different tasks, those that are not the same as a placement are left when it is
erased. -/
theorem erase_eq_filter
    {bookings : List (Placement α)}
    (distinct : (bookings.map (·.task)).Nodup)
    (placement : Placement α) :
    bookings.erase placement = bookings.filter (· != placement) := by
  induction bookings with
  | nil =>
      rfl
  | cons booking rest inductionHypothesis =>
      obtain ⟨isAlone, restDistinct⟩ := List.nodup_cons.mp distinct
      rw [List.erase_cons, List.filter_cons]
      by_cases isReleased : (booking == placement) = true
      · -- No other booking is of the task of the one that is released.
        have restStays : rest.filter (· != placement) = rest := by
          rw [List.filter_eq_self]
          intro other isOther
          rw [bne, Bool.not_eq_true', Bool.eq_false_iff]
          intro isReleasedToo
          have sameTask : other.task = booking.task :=
            (Placement.task_eq_of_beq isReleasedToo).trans
              (Placement.task_eq_of_beq isReleased).symm
          exact isAlone (List.mem_map.mpr ⟨other, isOther, sameTask⟩)
        rw [if_pos isReleased, if_neg (by simp [isReleased, bne]), restStays]
      · rw [if_neg isReleased, if_pos (by simp [isReleased, bne]),
          inductionHypothesis restDistinct]

/-- What has been booked is booked. -/
theorem isBooked_book
    [OrderedScalar α]
    (calendar : Calendar α)
    (placement : Placement α) :
    (calendar.book placement).isBooked placement = true := by
  rw [isBooked, List.contains_iff_exists_mem_beq]
  exact ⟨placement, by simp [book], placement.beq_self⟩

/-- Releasing a placement undoes its booking, if its task was not booked before. -/
theorem release_book
    [OrderedScalar α]
    (isNew : ∀ booking ∈ calendar.bookings, booking.task ≠ placement.task) :
    (calendar.book placement).release placement = calendar := by
  have isReleased : (calendar.bookings ++ [placement]).erase placement = calendar.bookings := by
    rw [List.erase_eq_eraseP', List.eraseP_append_right]
    · simp [placement.beq_self]
    · exact fun booking member isSame => isNew booking member (Placement.task_eq_of_beq isSame)
  simp [release, book, isReleased]

/-!
## Keeping a calendar
-/

/-- A call on a calendar. -/
inductive Call (α : Type) where
  | book (placement : Placement α)
  | release (placement : Placement α)

/-- Whether one of some calls releases a booking. -/
def isReleasedBy (booking : Placement α) : List (Call α) → Bool
  | [] => false
  | .book _ :: later => isReleasedBy booking later
  | .release placement :: later => booking == placement || isReleasedBy booking later

/-- The bookings that stand after some calls: those that have not been released since. -/
def standing : List (Call α) → List (Placement α)
  | [] => []
  | .book placement :: later =>
    if isReleasedBy placement later then standing later else placement :: standing later
  | .release _ :: later => standing later

/-- The calendars that calls lead to, if a task is booked only while it has no booking.  Releasing
what is not booked changes nothing. -/
inductive Reached (resources : List (Resource α)) (allowSharing : Bool) :
    List (Call α) → Calendar α → Prop where
  | start :
      Reached resources allowSharing [] (.empty resources allowSharing)
  | book
      {calls : List (Call α)}
      {calendar : Calendar α}
      {placement : Placement α} :
      Reached resources allowSharing calls calendar →
      (∀ booking ∈ calendar.bookings, booking.task ≠ placement.task) →
      Reached resources allowSharing (calls ++ [.book placement]) (calendar.book placement)
  | release
      {calls : List (Call α)}
      {calendar : Calendar α}
      (placement : Placement α) :
      Reached resources allowSharing calls calendar →
      Reached resources allowSharing (calls ++ [.release placement]) (calendar.release placement)

/-- Further calls release what one part of them releases. -/
theorem isReleasedBy_append
    (booking : Placement α)
    (calls later : List (Call α)) :
    isReleasedBy booking (calls ++ later) =
      (isReleasedBy booking calls || isReleasedBy booking later) := by
  induction calls with
  | nil =>
      rfl
  | cons call rest inductionHypothesis =>
      cases call with
      | book other =>
          exact inductionHypothesis
      | release other =>
          rw [List.cons_append, isReleasedBy, isReleasedBy, inductionHypothesis, Bool.or_assoc]

/-- A last booking stands. -/
theorem standing_append_book
    (calls : List (Call α))
    (placement : Placement α) :
    standing (calls ++ [.book placement]) = standing calls ++ [placement] := by
  induction calls with
  | nil =>
      rfl
  | cons call later inductionHypothesis =>
      cases call with
      | book earlier =>
          rw [List.cons_append, standing, standing, inductionHypothesis, isReleasedBy_append,
            isReleasedBy, isReleasedBy, Bool.or_false, apply_ite (· ++ [placement])]
          rfl
      | release other =>
          rw [List.cons_append, standing, standing, inductionHypothesis]

/-- After a last release, what is the same as the placement no longer stands. -/
theorem standing_append_release
    (calls : List (Call α))
    (placement : Placement α) :
    standing (calls ++ [.release placement]) = (standing calls).filter (· != placement) := by
  induction calls with
  | nil =>
      rfl
  | cons call later inductionHypothesis =>
      cases call with
      | book earlier =>
          rw [List.cons_append, standing, standing, inductionHypothesis, isReleasedBy_append,
            isReleasedBy, isReleasedBy, Bool.or_false]
          cases isReleasedBy earlier later with
          | true => rfl
          | false => cases isLast : earlier == placement <;> simp [isLast, bne]
      | release other =>
          rw [List.cons_append, standing, standing, inductionHypothesis]

/-- The bookings that stand have been made. -/
theorem mem_calls_of_mem_standing
    {calls : List (Call α)}
    (stands : placement ∈ standing calls) :
    .book placement ∈ calls := by
  induction calls with
  | nil =>
      cases stands
  | cons call later inductionHypothesis =>
      cases call with
      | book earlier =>
          rw [standing] at stands
          split at stands
          · exact List.mem_cons_of_mem _ (inductionHypothesis stands)
          · rcases List.mem_cons.mp stands with rfl | standsLater
            · exact List.mem_cons_self
            · exact List.mem_cons_of_mem _ (inductionHypothesis standsLater)
      | release other =>
          exact List.mem_cons_of_mem _ (inductionHypothesis stands)

/-- On the calendar are the bookings that stand, one of each task. -/
theorem Reached.bookings_eq
    {resources : List (Resource α)}
    {allowSharing : Bool}
    {calls : List (Call α)}
    (reached : Reached resources allowSharing calls calendar) :
    calendar.bookings = standing calls ∧ (calendar.bookings.map (·.task)).Nodup := by
  induction reached with
  | start =>
      exact ⟨rfl, .nil⟩
  | @book calls calendar placement _ isNew inductionHypothesis =>
      obtain ⟨areStanding, distinct⟩ := inductionHypothesis
      refine ⟨?_, ?_⟩
      · rw [standing_append_book, ← areStanding]
        rfl
      · have isNewTask : placement.task ∉ calendar.bookings.map (·.task) := by
          simpa using isNew
        simpa [Calendar.book] using nodup_append_singleton_iff.mpr ⟨distinct, isNewTask⟩
  | @release calls calendar placement _ inductionHypothesis =>
      obtain ⟨areStanding, distinct⟩ := inductionHypothesis
      have left : (calendar.release placement).bookings =
          calendar.bookings.filter (· != placement) :=
        erase_eq_filter distinct placement
      rw [left, standing_append_release, ← areStanding]
      exact ⟨rfl, distinct.sublist (List.filter_sublist.map _)⟩

end Calendar

end Optima
