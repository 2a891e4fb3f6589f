import Optima.Proofs.Lists
import Optima.Proofs.Scalar.Comparison
import Optima.Scheduling.Schedule

namespace Optima

/-!
# The order in which windows of availability are listed

A resource is looked up for an interval in the first of its windows that covers it, and the starts
of all of its windows are moments at which a task is tried.  Two windows that are listed one after
the other may change places unless some task finds both of them there with different capacities.
What a task may be given is then still the same: the capacities that are found for it, the moments
at which it is tried, and with them its options.
-/

/-!
## Windows that may change places
-/

namespace AvailabilityWindow

variable {α : Type} [Scalar α]

/-- Whether a window is there for a whole interval, but for the slack. -/
def covers (window : AvailabilityWindow α) (start finish : α) : Bool :=
  window.start ≤ start + Scalar.slack && finish ≤ window.finish + Scalar.slack

/-- Tasks of given durations do not tell which of two windows is listed first: where both cover the
whole of a task they have the same capacity.  Starts that are equal are also one number, which
zeros of the two signs are not. -/
structure Commutes (durations : List α) (window other : AvailabilityWindow α) : Prop where
  capacity_eq :
    ∀ duration ∈ durations, ∀ start,
      window.covers start (start + duration) = true →
        other.covers start (start + duration) = true → window.capacity = other.capacity
  start_eq : (window.start == other.start) = true → window.start = other.start

instance [NumericScalar α] (durations : List α) : Std.Symm (Commutes durations) where
  symm _ _ commute :=
    { capacity_eq := fun duration isDuration start otherCovers windowCovers =>
        (commute.capacity_eq duration isDuration start windowCovers otherCovers).symm
      start_eq := fun isSame =>
        (commute.start_eq ((NumericScalar.beq_iff_le _ _).mpr
          ((NumericScalar.beq_iff_le _ _).mp isSame).symm)).symm }

/-- Windows that overlap, with the slack at both ends, by less than any task lasts may change
places. -/
theorem commutes_of_lt
    [ExactScalar α]
    {durations : List α}
    {window other : AvailabilityWindow α}
    (isShort :
      ∀ duration ∈ durations,
        window.finish + (Scalar.slack + Scalar.slack) < other.start + duration) :
    window.Commutes durations other where
  capacity_eq := by
    intro duration isDuration start windowCovers otherCovers
    simp only [covers, Bool.and_eq_true, decide_eq_true_eq] at windowCovers otherCovers
    refine absurd (isShort duration isDuration) (not_lt_of_ge ?_)
    calc other.start + duration
        ≤ start + Scalar.slack + duration := add_le_add_left otherCovers.1 duration
      _ = start + duration + Scalar.slack := add_right_comm start Scalar.slack duration
      _ ≤ window.finish + Scalar.slack + Scalar.slack :=
          add_le_add_left windowCovers.2 Scalar.slack
      _ = window.finish + (Scalar.slack + Scalar.slack) := add_assoc _ _ _
  start_eq isSame := by
    obtain ⟨atMost, atLeast⟩ := (OrderedScalar.beq_iff_le window.start other.start).mp isSame
    exact le_antisymm atMost atLeast

/-- Windows are listed in another order: neighbours that commute have changed places, any number of
times. -/
inductive Relisted (durations : List α) :
    List (AvailabilityWindow α) → List (AvailabilityWindow α) → Prop where
  | nil : Relisted durations [] []
  | cons {windows others : List (AvailabilityWindow α)}
      (window : AvailabilityWindow α)
      (relisted : Relisted durations windows others) :
      Relisted durations (window :: windows) (window :: others)
  | swap {first second : AvailabilityWindow α}
      (commute : first.Commutes durations second)
      (rest : List (AvailabilityWindow α)) :
      Relisted durations (first :: second :: rest) (second :: first :: rest)
  | trans {windows others last : List (AvailabilityWindow α)}
      (relisted : Relisted durations windows others)
      (relistedAgain : Relisted durations others last) :
      Relisted durations windows last

namespace Relisted

variable {durations : List α} {windows others : List (AvailabilityWindow α)}

/-- Windows of which any two commute may be listed in any order. -/
theorem of_perm
    [NumericScalar α]
    (perm : windows.Perm others)
    (commute : windows.Pairwise (Commutes durations)) :
    Relisted durations windows others := by
  induction perm with
  | nil => exact .nil
  | cons window _ inductionHypothesis =>
      exact .cons window (inductionHypothesis (List.pairwise_cons.mp commute).2)
  | swap second first rest =>
      exact .swap ((List.pairwise_cons.mp commute).1 second List.mem_cons_self) rest
  | trans perm _ inductionHypothesis inductionHypothesisAgain =>
      exact .trans (inductionHypothesis commute)
        (inductionHypothesisAgain ((perm.pairwise_iff (Std.Symm.symm _ _)).mp commute))

theorem isEmpty_eq
    (relisted : Relisted durations windows others) :
    windows.isEmpty = others.isEmpty := by
  induction relisted with
  | nil => rfl
  | cons _ _ _ => rfl
  | swap _ _ => rfl
  | trans _ _ inductionHypothesis inductionHypothesisAgain =>
      exact inductionHypothesis.trans inductionHypothesisAgain

/-- The first windows that cover the whole of a task have the same capacity. -/
theorem find?_capacity_eq
    (relisted : Relisted durations windows others)
    {duration : α}
    (isDuration : duration ∈ durations)
    (start : α) :
    (windows.find? (·.covers start (start + duration))).map (·.capacity) =
      (others.find? (·.covers start (start + duration))).map (·.capacity) := by
  induction relisted with
  | nil => rfl
  | cons window _ inductionHypothesis =>
      rw [List.find?_cons, List.find?_cons]
      split
      · rfl
      · exact inductionHypothesis
  | @swap first second commute rest =>
      have sameCapacity := commute.capacity_eq duration isDuration start
      by_cases firstCovers : first.covers start (start + duration) <;>
        by_cases secondCovers : second.covers start (start + duration) <;>
          simp_all
  | trans _ _ inductionHypothesis inductionHypothesisAgain =>
      exact inductionHypothesis.trans inductionHypothesisAgain

end Relisted

end AvailabilityWindow

/-!
## The moments at which a task is tried
-/

/-- It is all the same to put one or another list of moments in order from a time on, whatever
moments are in order already. -/
def SameMoments {α : Type} [Scalar α] (ready : α) (moments others : List α) : Prop :=
  ∀ sorted : List α,
    (moments.filter fun moment => ready ≤ moment).foldl
        (fun sorted moment => Scalar.insertDistinct moment sorted) sorted =
      (others.filter fun moment => ready ≤ moment).foldl
        (fun sorted moment => Scalar.insertDistinct moment sorted) sorted

namespace SameMoments

variable {α : Type} [Scalar α] {ready : α} {moments others last : List α}

theorem refl
    (moments : List α) :
    SameMoments ready moments moments :=
  fun _ => rfl

theorem trans
    (areSame : SameMoments ready moments others)
    (areSameAgain : SameMoments ready others last) :
    SameMoments ready moments last :=
  fun sorted => (areSame sorted).trans (areSameAgain sorted)

theorem append
    {more rest : List α}
    (areSame : SameMoments ready moments others)
    (restIsSame : SameMoments ready more rest) :
    SameMoments ready (moments ++ more) (others ++ rest) := by
  intro sorted
  rw [List.filter_append, List.filter_append, List.foldl_append, List.foldl_append, areSame,
    restIsSame]

theorem flatMap
    {β : Type}
    {points other : β → List α}
    (areSame : ∀ item, SameMoments ready (points item) (other item))
    (items : List β) :
    SameMoments ready (items.flatMap points) (items.flatMap other) := by
  induction items with
  | nil => exact refl []
  | cons item rest inductionHypothesis => exact (areSame item).append inductionHypothesis

/-- The moments from a time on are put in the same order. -/
theorem distinct_eq
    (areSame : SameMoments ready moments others) :
    Scalar.distinct (moments.filter fun moment => ready ≤ moment) =
      Scalar.distinct (others.filter fun moment => ready ≤ moment) :=
  areSame []

end SameMoments

/-- Windows that are listed in another order start at the same moments. -/
theorem AvailabilityWindow.Relisted.sameMoments
    {α : Type}
    [Scalar α]
    [NumericScalar α]
    {durations : List α}
    {windows others : List (AvailabilityWindow α)}
    (relisted : AvailabilityWindow.Relisted durations windows others)
    (ready : α) :
    SameMoments ready (windows.map (·.start)) (others.map (·.start)) := by
  induction relisted with
  | nil => exact .refl []
  | cons window _ inductionHypothesis =>
      exact SameMoments.append (.refl [window.start]) inductionHypothesis
  | @swap first second commute rest =>
      have sameTwo : SameMoments ready [first.start, second.start] [second.start, first.start] := by
        intro sorted
        by_cases firstIsLater : ready ≤ first.start
        · by_cases secondIsLater : ready ≤ second.start
          · simpa [firstIsLater, secondIsLater] using
              Scalar.insertDistinct_comm (NumericScalar.isNaN_right firstIsLater)
                (NumericScalar.isNaN_right secondIsLater) commute.start_eq sorted
          · simp [firstIsLater, secondIsLater]
        · simp [firstIsLater, List.filter_cons]
      exact sameTwo.append (.refl (rest.map (·.start)))
  | trans _ _ inductionHypothesis inductionHypothesisAgain =>
      exact inductionHypothesis.trans inductionHypothesisAgain

/-!
## Resources that list their windows in another order
-/

namespace Resource

variable {α : Type}

/-- A resource without its windows. -/
def bare (resource : Resource α) : Resource α :=
  { resource with availability := [] }

/-- A resource is another one that lists its windows in another order. -/
structure Relisted [Scalar α] (durations : List α) (resource other : Resource α) : Prop where
  windows :
    AvailabilityWindow.Relisted durations resource.availability other.availability
  bare_eq : resource.bare = other.bare

variable [Scalar α] {durations : List α} {resource other : Resource α}

namespace Relisted

theorem identifier_eq
    (relisted : resource.Relisted durations other) :
    resource.identifier = other.identifier :=
  congrArg (·.identifier) relisted.bare_eq

theorem capacity_eq
    (relisted : resource.Relisted durations other) :
    resource.capacity = other.capacity :=
  congrArg (·.capacity) relisted.bare_eq

theorem cost_eq
    (relisted : resource.Relisted durations other) :
    resource.cost = other.cost :=
  congrArg (·.cost) relisted.bare_eq

theorem regularTime_eq
    (relisted : resource.Relisted durations other) :
    resource.regularTime = other.regularTime :=
  congrArg (·.regularTime) relisted.bare_eq

/-- The capacity that is found for the whole of a task is the same. -/
theorem capacityIn_eq
    (relisted : resource.Relisted durations other)
    {duration : α}
    (isDuration : duration ∈ durations)
    (start : α) :
    resource.capacityIn start (start + duration) = other.capacityIn start (start + duration) := by
  unfold capacityIn
  rw [relisted.windows.isEmpty_eq, relisted.capacity_eq]
  split
  · rfl
  · exact relisted.windows.find?_capacity_eq isDuration start

end Relisted

end Resource

namespace Calendar

variable {α : Type}

/-- A calendar with other resources. -/
def withResources (calendar : Calendar α) (resources : List (Resource α)) : Calendar α :=
  { calendar with resources := resources }

variable [Scalar α] {durations : List α} {calendar : Calendar α} {resources : List (Resource α)}

/-- The resources of an identifier are the same but for the order of their windows. -/
theorem rel_resource?
    (relisted : List.Forall₂ (Resource.Relisted durations) calendar.resources resources)
    (identifier : String) :
    Option.Rel (Resource.Relisted durations) (calendar.resource? identifier)
      ((calendar.withResources resources).resource? identifier) := by
  unfold resource? withResources
  generalize calendar.resources = listed at relisted ⊢
  induction relisted with
  | nil => exact .none
  | cons isRelisted _ inductionHypothesis =>
      rw [List.find?_cons, List.find?_cons, isRelisted.identifier_eq]
      split
      · exact .some isRelisted
      · exact inductionHypothesis

theorem hasRoom_withResources
    {resource other : Resource α}
    (isRelisted : resource.Relisted durations other)
    {duration : α}
    (isDuration : duration ∈ durations)
    (quantity start : α) :
    (calendar.withResources resources).hasRoom other quantity start (start + duration) =
      calendar.hasRoom resource quantity start (start + duration) := by
  unfold hasRoom
  rw [isRelisted.capacityIn_eq isDuration, isRelisted.identifier_eq]
  rfl

/-- What is free for the whole of a task is the same. -/
theorem fits_withResources
    (relisted : List.Forall₂ (Resource.Relisted durations) calendar.resources resources)
    {duration : α}
    (isDuration : duration ∈ durations)
    (identifier : String)
    (quantity start : α) :
    (calendar.withResources resources).fits identifier quantity start (start + duration) =
      calendar.fits identifier quantity start (start + duration) := by
  unfold fits
  have found := calendar.rel_resource? relisted identifier
  generalize calendar.resource? identifier = resource?,
    (calendar.withResources resources).resource? identifier = other? at found ⊢
  cases found with
  | none => rfl
  | some isRelisted => exact hasRoom_withResources isRelisted isDuration quantity start

/-- The moments at which more of a resource may become free are the same. -/
theorem sameMoments_releasePoints
    [NumericScalar α]
    (relisted : List.Forall₂ (Resource.Relisted durations) calendar.resources resources)
    (ready : α)
    (identifier : String) :
    SameMoments ready ((calendar.withResources resources).releasePoints identifier)
      (calendar.releasePoints identifier) := by
  unfold releasePoints
  refine SameMoments.append (.refl _) ?_
  have found := calendar.rel_resource? relisted identifier
  generalize calendar.resource? identifier = resource?,
    (calendar.withResources resources).resource? identifier = other? at found ⊢
  cases found with
  | none => exact .refl []
  | some isRelisted => exact fun sorted => (isRelisted.windows.sameMoments ready sorted).symm

end Calendar

/-!
## Options on other resources
-/

/-- A task starts at the same moment. -/
theorem Task.earliestStart?_withResources
    {α : Type}
    [Scalar α]
    [NumericScalar α]
    {durations : List α}
    {calendar : Calendar α}
    {resources : List (Resource α)}
    (relisted : List.Forall₂ (Resource.Relisted durations) calendar.resources resources)
    {task : Task α}
    (isDuration : task.duration ∈ durations)
    (usage : Usage α)
    (ready horizonEnd : α) :
    task.earliestStart? usage ready (calendar.withResources resources) horizonEnd =
      task.earliestStart? usage ready calendar horizonEnd := by
  have sameMoments :
      SameMoments ready
        (ready :: task.openings ++
          usage.names.flatMap (calendar.withResources resources).releasePoints)
        (ready :: task.openings ++ usage.names.flatMap calendar.releasePoints) :=
    SameMoments.append (.refl _)
      (.flatMap (Calendar.sameMoments_releasePoints relisted ready) usage.names)
  unfold earliestStart?
  simp only [Calendar.fits_withResources relisted isDuration, sameMoments.distinct_eq]

namespace SchedulingProblem

variable {α : Type}

/-- A problem with other resources. -/
def withResources (problem : SchedulingProblem α) (resources : List (Resource α)) :
    SchedulingProblem α :=
  { problem with resources := resources }

variable [Scalar α] {durations : List α} {problem : SchedulingProblem α}
  {resources : List (Resource α)}

/-- Resources are chosen for a task without a look at their windows. -/
theorem map_bare_candidates
    (problem : SchedulingProblem α)
    (maxCandidates : Nat)
    (requirement : Requirement α) :
    (problem.candidates maxCandidates requirement).map Resource.bare =
      (((problem.resources.map Resource.bare).filter
        (suits problem.preferences requirement)).mergeSort cheaperFirst).take maxCandidates := by
  have sameSuits :
      suits problem.preferences requirement ∘ Resource.bare =
        suits problem.preferences requirement := rfl
  have sorted (listed : List (Resource α)) :
      (listed.mergeSort cheaperFirst).map Resource.bare =
        (listed.map Resource.bare).mergeSort cheaperFirst :=
    List.map_mergeSort fun _ _ _ _ => rfl
  rw [candidates, List.map_take, sorted, List.filter_map, sameSuits]

/-- Choosing changed items is changing the items that are chosen. -/
theorem choices_map_map
    {β γ : Type}
    (change : β → γ)
    (pools : List (List β)) :
    choices (pools.map (List.map change)) = (choices pools).map (List.map change) := by
  induction pools with
  | nil => rfl
  | cons items rest inductionHypothesis =>
      simp only [choices, List.map_cons, List.map_flatMap, List.flatMap_map, List.map_map,
        inductionHypothesis]
      rfl

theorem usageOf_map_bare
    (requirements : List (Requirement α))
    (chosen : List (Resource α)) :
    usageOf requirements (chosen.map Resource.bare) = usageOf requirements chosen := by
  rw [usageOf, List.zip_map_right, List.foldl_map]
  rfl

/-- What covers the requirements of a task does not depend on windows. -/
theorem combinations_eq_bare
    (problem : SchedulingProblem α)
    (maxCandidates : Nat)
    (task : Task α) :
    problem.combinations maxCandidates task =
      (choices (task.requirements.map fun requirement =>
        (problem.candidates maxCandidates requirement).map Resource.bare)).filterMap fun chosen =>
          let usage := usageOf task.requirements chosen
          if haveCapacity chosen usage && coverSkills problem.preferences task chosen then
            some usage
          else none := by
  have sameChoices :
      choices (task.requirements.map fun requirement =>
          (problem.candidates maxCandidates requirement).map Resource.bare) =
        (choices (task.requirements.map (problem.candidates maxCandidates))).map
          (List.map Resource.bare) := by
    rw [← choices_map_map, List.map_map]
    rfl
  have sameCapacity (chosen : List (Resource α)) (usage : Usage α) :
      haveCapacity (chosen.map Resource.bare) usage = haveCapacity chosen usage := by
    rw [haveCapacity, List.all_map]
    rfl
  have sameSkills (chosen : List (Resource α)) :
      coverSkills problem.preferences task (chosen.map Resource.bare) =
        coverSkills problem.preferences task chosen := by
    simp only [coverSkills, List.any_map]
    rfl
  rw [sameChoices, List.filterMap_map]
  unfold combinations Function.comp
  simp only [usageOf_map_bare, sameCapacity, sameSkills]

theorem combinations_withResources
    (relisted : List.Forall₂ (Resource.Relisted durations) problem.resources resources)
    (maxCandidates : Nat)
    (task : Task α) :
    (problem.withResources resources).combinations maxCandidates task =
      problem.combinations maxCandidates task := by
  have sameBare : problem.resources.map Resource.bare = resources.map Resource.bare :=
    map_eq_map_of_forall₂ relisted (·.bare_eq)
  have sameCandidates (requirement : Requirement α) :
      ((problem.withResources resources).candidates maxCandidates requirement).map Resource.bare =
        (problem.candidates maxCandidates requirement).map Resource.bare := by
    rw [map_bare_candidates, map_bare_candidates, sameBare]
    rfl
  rw [combinations_eq_bare, combinations_eq_bare]
  simp only [sameCandidates]
  rfl

/-- The metrics of a schedule do not depend on windows. -/
theorem metrics_withResources
    (relisted : List.Forall₂ (Resource.Relisted durations) problem.resources resources)
    (placements : List (Placement α)) :
    (problem.withResources resources).metrics placements = problem.metrics placements := by
  have sameBusyTime :
      problem.resources.map (busyTime placements) = resources.map (busyTime placements) :=
    map_eq_map_of_forall₂ relisted fun isRelisted => by
      rw [busyTime, isRelisted.identifier_eq, busyTime]
  have sameOvertimes :
      problem.resources.map (overtimeOf placements) = resources.map (overtimeOf placements) :=
    map_eq_map_of_forall₂ relisted fun isRelisted => by
      rw [overtimeOf, isRelisted.regularTime_eq, busyTime, isRelisted.identifier_eq, overtimeOf,
        busyTime]
  have sameOvertime :
      problem.resources.filterMap (overtimeOf placements) =
        resources.filterMap (overtimeOf placements) := by
    simpa [List.filterMap_map] using congrArg (List.filterMap id) sameOvertimes
  unfold metrics withResources
  simp only [sameOvertime, sameBusyTime]

variable {calendar : Calendar α}

theorem usageCost_withResources
    (relisted : List.Forall₂ (Resource.Relisted durations) calendar.resources resources)
    (usage : Usage α)
    (duration : α) :
    usageCost (calendar.withResources resources) usage duration =
      usageCost calendar usage duration := by
  have sameCost (identifier : String) :
      ((calendar.withResources resources).resource? identifier).map (·.cost) =
        (calendar.resource? identifier).map (·.cost) := by
    have found := calendar.rel_resource? relisted identifier
    generalize calendar.resource? identifier = resource?,
      (calendar.withResources resources).resource? identifier = other? at found ⊢
    cases found with
    | none => rfl
    | some isRelisted => rw [Option.map_some, Option.map_some, isRelisted.cost_eq]
  unfold usageCost
  simp only [sameCost]

theorem addedOvertime_withResources
    (relisted : List.Forall₂ (Resource.Relisted durations) calendar.resources resources)
    (duration : α)
    (identifier : String) :
    addedOvertime (calendar.withResources resources) duration identifier =
      addedOvertime calendar duration identifier := by
  unfold addedOvertime
  have found := calendar.rel_resource? relisted identifier
  generalize calendar.resource? identifier = resource?,
    (calendar.withResources resources).resource? identifier = other? at found ⊢
  cases found with
  | none => rfl
  | some isRelisted =>
      rw [Option.bind_some, Option.bind_some, isRelisted.regularTime_eq]
      rfl

theorem rankOf_withResources
    (relisted : List.Forall₂ (Resource.Relisted durations) calendar.resources resources)
    (preferences : Preferences)
    (usage : Usage α)
    (duration : α)
    (placement : Placement α) :
    rankOf preferences (calendar.withResources resources) usage duration placement =
      rankOf preferences calendar usage duration placement := by
  have sameOvertime :
      addedOvertime (calendar.withResources resources) duration =
        addedOvertime calendar duration :=
    funext (addedOvertime_withResources relisted duration)
  rw [rankOf, sameOvertime]
  rfl

theorem placementAt_withResources
    (relisted : List.Forall₂ (Resource.Relisted durations) calendar.resources resources)
    (task : Task α)
    (usage : Usage α)
    (start : α) :
    placementAt (calendar.withResources resources) task usage start =
      placementAt calendar task usage start := by
  rw [placementAt, usageCost_withResources relisted]
  rfl

/-- A task has the same options. -/
theorem optionsFrom_withResources
    [NumericScalar α]
    (relisted : List.Forall₂ (Resource.Relisted durations) problem.resources resources)
    (isOnProblem : calendar.resources = problem.resources)
    {task : Task α}
    (isDuration : task.duration ∈ durations)
    (maxCandidates : Nat)
    (ready : α) :
    (problem.withResources resources).optionsFrom maxCandidates (calendar.withResources resources)
        task ready =
      problem.optionsFrom maxCandidates calendar task ready := by
  have relistedToo :
      List.Forall₂ (Resource.Relisted durations) calendar.resources resources := by
    rw [isOnProblem]
    exact relisted
  unfold optionsFrom
  simp only [combinations_withResources relisted, placementAt_withResources relistedToo,
    rankOf_withResources relistedToo, Task.earliestStart?_withResources relistedToo isDuration]
  rfl

end SchedulingProblem

end Optima
