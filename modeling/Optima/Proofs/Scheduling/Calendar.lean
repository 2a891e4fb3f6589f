import Mathlib.Data.List.Basic
import Optima.Proofs.Scalar.Laws
import Optima.Proofs.Scheduling.Reported

namespace Optima

/-!
# What fits into a calendar overbooks nothing

The peak within an interval is looked for at its start and where bookings start.
In exact numbers it bounds what is held of a resource at every moment inside the
interval: of the bookings that hold it together, all are under way when the last of
them starts.
-/

namespace Resource

variable {α : Type} [Scalar α]

/-- The largest capacity of a resource at a moment; none where it is not there. -/
def capacityAt? (resource : Resource α) (moment : α) : Option α :=
  if resource.availability.isEmpty then some resource.capacity
  else Scalar.largest?
    ((resource.availability.filter fun window =>
      window.start ≤ moment && decide (moment < window.finish)).map (·.capacity))

/-- The capacity for an interval is at most the capacity at a moment inside it. -/
theorem exists_capacityAt?_of_capacityIn
    [ExactScalar α]
    {resource : Resource α}
    {start finish moment capacity : α}
    (found : resource.capacityIn start finish = some capacity)
    (afterStart : start + Scalar.slack ≤ moment)
    (beforeFinish : moment < finish - Scalar.slack) :
    ∃ limit, resource.capacityAt? moment = some limit ∧ capacity ≤ limit := by
  unfold capacityIn at found
  unfold capacityAt?
  split at found
  · rename_i isAlwaysThere
    exact ⟨resource.capacity, by simp [isAlwaysThere], (Option.some.inj found).ge⟩
  · rename_i hasWindows
    obtain ⟨window, isFirst, rfl⟩ := Option.map_eq_some_iff.mp found
    have isWide := List.find?_some isFirst
    simp only [Bool.and_eq_true, decide_eq_true_eq] at isWide
    have contains : moment < window.finish := by
      by_contra notBefore
      rw [ExactScalar.lt_sub_slack_iff] at beforeFinish
      have atMost : finish ≤ moment + Scalar.slack :=
        isWide.2.trans (add_le_add_left (not_lt.mp notBefore) Scalar.slack)
      exact absurd beforeFinish (not_lt.mpr atMost)
    have among :
        window.capacity ∈
          (resource.availability.filter fun window =>
            window.start ≤ moment && decide (moment < window.finish)).map (·.capacity) := by
      refine List.mem_map.mpr ⟨window, List.mem_filter.mpr ⟨?_, ?_⟩, rfl⟩
      · exact List.mem_of_find?_eq_some isFirst
      · simp only [Bool.and_eq_true, decide_eq_true_eq]
        exact ⟨isWide.1.trans afterStart, contains⟩
    rw [if_neg hasWindows]
    exact Scalar.exists_largest?_of_mem among

end Resource

namespace Scheduling

variable {α : Type} [Scalar α]

/-- A placement that names each of its resources once uses of each what it says. -/
theorem quantityOf_ofPlacement
    [ExactScalar α]
    {placement : Placement α}
    (distinct : (placement.resources.map (·.1)).Nodup)
    {resource : String}
    {quantity : α}
    (member : (resource, quantity) ∈ placement.resources) :
    (ReportedPlacement.ofPlacement placement).quantityOf resource = quantity ∧
      placement.quantityOf resource = quantity := by
  constructor
  · simp [ReportedPlacement.quantityOf, ReportedPlacement.ofPlacement,
      filter_name_eq_of_mem distinct member, Scalar.total_eq_sum]
  · simp [Placement.quantityOf, lookup_eq_some_of_mem distinct member]

/-- A placement that names each of its resources once, and uses something of each. -/
structure UsesEachOnce (placement : Placement α) : Prop where
  nodup : (placement.resources.map (·.1)).Nodup
  quantity_pos : ∀ use ∈ placement.resources, 0 < use.2

/-- The quantities that bookings hold are those of the bookings that hold something. -/
theorem quantitiesHeld_map_ofPlacement
    (bookings : List (Placement α))
    (resource : String)
    (moment : α) :
    quantitiesHeld (bookings.map .ofPlacement) resource moment =
      (bookings.filter fun booking =>
          (ReportedPlacement.ofPlacement booking).holds resource moment).map
        fun booking => (ReportedPlacement.ofPlacement booking).quantityOf resource := by
  simp only [quantitiesHeld, List.filter_map, List.map_map]
  rfl

/-- What it is to hold a resource at a moment. -/
theorem holds_ofPlacement_iff
    {placement : Placement α}
    {resource : String}
    {moment : α} :
    (ReportedPlacement.ofPlacement placement).holds resource moment = true ↔
      placement.uses resource = true ∧
        placement.start + Scalar.slack ≤ moment ∧
        moment < placement.finish - Scalar.slack := by
  unfold ReportedPlacement.holds
  rw [Bool.and_eq_true, Bool.and_eq_true, decide_eq_true_eq, decide_eq_true_eq, and_assoc]
  exact Iff.rfl

variable [ExactScalar α]

/-- What a booking uses of a resource is what is reported of it, and more than nothing. -/
theorem UsesEachOnce.quantity_of_uses
    {placement : Placement α}
    (usesEachOnce : UsesEachOnce placement)
    {resource : String}
    (uses : placement.uses resource = true) :
    (ReportedPlacement.ofPlacement placement).quantityOf resource =
        placement.quantityOf resource ∧
      0 < placement.quantityOf resource := by
  obtain ⟨⟨name, quantity⟩, member, sameName⟩ := List.any_eq_true.mp uses
  obtain rfl : name = resource := by simpa using sameName
  obtain ⟨isReported, isUsed⟩ := quantityOf_ofPlacement usesEachOnce.nodup member
  rw [isReported, isUsed]
  exact ⟨rfl, usesEachOnce.quantity_pos _ member⟩

/-- Whatever is held is more than nothing. -/
theorem quantity_pos_of_mem_quantitiesHeld
    {bookings : List (Placement α)}
    (usesEachOnce : ∀ booking ∈ bookings, UsesEachOnce booking)
    {resource : String}
    {moment : α} :
    ∀ quantity ∈ quantitiesHeld (bookings.map .ofPlacement) resource moment,
      0 < quantity := by
  intro quantity isHeld
  rw [quantitiesHeld_map_ofPlacement] at isHeld
  obtain ⟨booking, member, rfl⟩ := List.mem_map.mp isHeld
  obtain ⟨inBookings, holds⟩ := List.mem_filter.mp member
  have uses := (holds_ofPlacement_iff.mp holds).1
  obtain ⟨isUsed, positive⟩ := (usesEachOnce booking inBookings).quantity_of_uses uses
  rw [isUsed]
  exact positive

/-- What starts by a moment inside an interval has the slack to the end of the interval. -/
theorem add_slack_lt_of_within
    {start moment finish : α}
    (afterStart : start + Scalar.slack ≤ moment)
    (beforeFinish : moment < finish - Scalar.slack) :
    start + Scalar.slack < finish :=
  calc
    start + Scalar.slack ≤ moment := afterStart
    _ ≤ moment + Scalar.slack := Scalar.le_add_slack moment
    _ < finish := (ExactScalar.lt_sub_slack_iff moment finish).mp beforeFinish

/-- Before a moment inside an interval there is one at which the peak is looked for and
at which everything that is held at the moment has started. -/
theorem exists_sample
    (held : List (Placement α))
    {start moment : α}
    (afterStart : start + Scalar.slack ≤ moment)
    (afterStarts : ∀ booking ∈ held, booking.start + Scalar.slack ≤ moment) :
    ∃ sample ∈ start :: (held.map (·.start)).filter (fun other => start < other),
      sample + Scalar.slack ≤ moment ∧ ∀ booking ∈ held, booking.start ≤ sample := by
  -- The latest of the starts will do: it is the start of the interval or comes after it.
  obtain ⟨sample, isLargest, startBelow⟩ :=
    Scalar.exists_largest?_of_mem
      (show start ∈ start :: held.map (·.start) from List.mem_cons_self)
  have isStart := Scalar.mem_of_largest?_eq_some isLargest
  refine ⟨sample, ?_, ?_, ?_⟩
  · rcases List.mem_cons.mp isStart with isFirst | isLater
    · rw [isFirst]
      exact List.mem_cons_self
    · rcases startBelow.eq_or_lt with sameMoment | above
      · rw [← sameMoment]
        exact List.mem_cons_self
      · exact List.mem_cons_of_mem start
          (List.mem_filter.mpr ⟨isLater, by simpa using above⟩)
  · rcases List.mem_cons.mp isStart with isFirst | isLater
    · rw [isFirst]
      exact afterStart
    · obtain ⟨booking, inHeld, rfl⟩ := List.mem_map.mp isLater
      exact afterStarts booking inHeld
  · intro booking inHeld
    exact
      Scalar.le_of_largest?_eq_some isLargest
        (List.mem_cons_of_mem start (List.mem_map_of_mem inHeld))

/-- The peak of an interval is at least what is used at any moment at which it is looked for. -/
theorem usageAt_le_peakUsage
    (calendar : Calendar α)
    (resource : String)
    {start finish sample : α}
    (isSample :
      sample ∈ start ::
        (((calendar.bookingsOn resource).filter (·.overlaps start finish)).map
          (·.start)).filter fun moment => start < moment) :
    Calendar.usageAt ((calendar.bookingsOn resource).filter (·.overlaps start finish))
        resource sample ≤
      calendar.peakUsage resource start finish := by
  obtain ⟨greatest, isLargest, below⟩ :=
    Scalar.exists_largest?_of_mem
      (List.mem_map_of_mem (f := Calendar.usageAt
        ((calendar.bookingsOn resource).filter (·.overlaps start finish)) resource) isSample)
  simpa only [Calendar.peakUsage, isLargest, Option.getD_some] using below

/-- The peak of an interval bounds what is held at every moment inside it. -/
theorem total_quantitiesHeld_le_peakUsage
    {calendar : Calendar α}
    (usesEachOnce : ∀ booking ∈ calendar.bookings, UsesEachOnce booking)
    (resource : String)
    {start finish moment : α}
    (afterStart : start + Scalar.slack ≤ moment)
    (beforeFinish : moment < finish - Scalar.slack) :
    Scalar.total (quantitiesHeld (calendar.bookings.map .ofPlacement) resource moment) ≤
      calendar.peakUsage resource start finish := by
  let held := calendar.bookings.filter fun booking =>
    (ReportedPlacement.ofPlacement booking).holds resource moment
  let overlapping :=
    (calendar.bookingsOn resource).filter (·.overlaps start finish)
  have ofHeld : ∀ booking ∈ held,
      booking ∈ calendar.bookings ∧
        booking.uses resource = true ∧
        booking.start + Scalar.slack ≤ moment ∧
        moment < booking.finish - Scalar.slack := by
    intro booking inHeld
    obtain ⟨inBookings, isHeld⟩ := List.mem_filter.mp inHeld
    exact ⟨inBookings, holds_ofPlacement_iff.mp isHeld⟩
  obtain ⟨sample, isSample, sampleBefore, startsBelow⟩ :=
    exists_sample held afterStart fun booking inHeld => (ofHeld booking inHeld).2.2.1
  -- Whatever is held at the moment overlaps the interval, and is under way at the sample.
  have overlaps : ∀ booking ∈ held, booking.overlaps start finish = true := by
    intro booking inHeld
    obtain ⟨-, -, afterOwnStart, beforeOwnFinish⟩ := ofHeld booking inHeld
    simp only [Placement.overlaps, Bool.and_eq_true, decide_eq_true_eq]
    exact ⟨(ExactScalar.lt_sub_slack_iff _ _).mpr
        (add_slack_lt_of_within afterOwnStart beforeFinish),
      add_slack_lt_of_within afterStart beforeOwnFinish⟩
  have isActive : ∀ booking ∈ held, booking.isActive sample = true := by
    intro booking inHeld
    simp only [Placement.isActive, Bool.and_eq_true, decide_eq_true_eq]
    exact ⟨startsBelow booking inHeld,
      (Scalar.le_add_slack sample).trans_lt
        (add_slack_lt_of_within sampleBefore (ofHeld booking inHeld).2.2.2)⟩
  have heldSublist : held.Sublist (overlapping.filter (·.isActive sample)) := by
    simp only [overlapping, Calendar.bookingsOn, List.filter_filter]
    apply filter_sublist_filter
    intro booking member isHeld
    have inHeld : booking ∈ held := List.mem_filter.mpr ⟨member, isHeld⟩
    simp [isActive booking inHeld, overlaps booking inHeld, (ofHeld booking inHeld).2.1]
  have startsAmong : sample ∈ start :: (overlapping.map (·.start)).filter (start < ·) := by
    rcases List.mem_cons.mp isSample with isFirst | isLater
    · rw [isFirst]
      exact List.mem_cons_self
    · have heldStarts := (heldSublist.trans List.filter_sublist).map (·.start)
      exact List.mem_cons_of_mem start ((heldStarts.filter _).subset isLater)
  calc
    Scalar.total (quantitiesHeld (calendar.bookings.map .ofPlacement) resource moment)
        = (held.map (·.quantityOf resource)).sum := by
          rw [quantitiesHeld_map_ofPlacement, Scalar.total_eq_sum]
          congr 1
          apply List.map_congr_left
          intro booking inHeld
          obtain ⟨inBookings, uses, -⟩ := ofHeld booking inHeld
          exact ((usesEachOnce booking inBookings).quantity_of_uses uses).1
    _ ≤ ((overlapping.filter (·.isActive sample)).map (·.quantityOf resource)).sum := by
          apply (heldSublist.map _).sum_le_sum
          intro quantity inUse
          obtain ⟨booking, member, rfl⟩ := List.mem_map.mp inUse
          have onResource := List.mem_of_mem_filter (List.mem_of_mem_filter member)
          obtain ⟨inBookings, uses⟩ := List.mem_filter.mp onResource
          exact ((usesEachOnce booking inBookings).quantity_of_uses uses).2.le
    _ = Calendar.usageAt overlapping resource sample :=
          (Scalar.total_eq_sum _).symm
    _ ≤ calendar.peakUsage resource start finish :=
          usageAt_le_peakUsage calendar resource startsAmong

/-- A resource that fits has the capacity for all that is held of it and the quantity besides;
one that is not shared is held by nothing. -/
theorem exists_capacity_of_hasRoom
    {calendar : Calendar α}
    (usesEachOnce : ∀ booking ∈ calendar.bookings, UsesEachOnce booking)
    {resource : Resource α}
    {quantity start finish moment : α}
    (hasRoom : calendar.hasRoom resource quantity start finish = true)
    (afterStart : start + Scalar.slack ≤ moment)
    (beforeFinish : moment < finish - Scalar.slack) :
    let held := quantitiesHeld (calendar.bookings.map .ofPlacement) resource.identifier moment
    (∃ limit,
      resource.capacityAt? moment = some limit ∧
        Scalar.total held + quantity ≤ limit + Scalar.slack) ∧
      (calendar.allowSharing = false → held = []) := by
  dsimp only
  have heldBelow :=
    total_quantitiesHeld_le_peakUsage usesEachOnce resource.identifier
      afterStart beforeFinish
  unfold Calendar.hasRoom at hasRoom
  split at hasRoom
  · simp at hasRoom
  · rename_i capacity isCapacity
    obtain ⟨limit, isLimit, capacityBelow⟩ :=
      Resource.exists_capacityAt?_of_capacityIn isCapacity afterStart beforeFinish
    dsimp only at hasRoom
    split at hasRoom
    · simp at hasRoom
    · rename_i notTaken
      have fits := of_decide_eq_true hasRoom
      refine ⟨⟨limit, isLimit, ?_⟩, ?_⟩
      · calc
          _ ≤ calendar.peakUsage resource.identifier start finish + quantity :=
              add_le_add_left heldBelow quantity
          _ ≤ capacity + Scalar.slack := fits
          _ ≤ limit + Scalar.slack := add_le_add_left capacityBelow Scalar.slack
      · intro notShared
        have nothingUsed :
            ¬ 0 < calendar.peakUsage resource.identifier start finish := by
          simpa [notShared] using notTaken
        by_contra someHeld
        have totalPos :=
          List.sum_pos _ (quantity_pos_of_mem_quantitiesHeld usesEachOnce) someHeld
        rw [← Scalar.total_eq_sum] at totalPos
        exact nothingUsed (totalPos.trans_le heldBelow)

end Scheduling

end Optima
