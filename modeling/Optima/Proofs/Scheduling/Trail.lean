import Mathlib.Data.List.TakeWhile
import Optima.Proofs.Scalar.Laws
import Optima.Proofs.Scheduling.Bookings
import Optima.Proofs.Table
import Optima.Scheduling.Options
import Optima.Scheduling.Schedule

namespace Optima

/-!
# Options and the schedules built of them

A schedule is built of options, one for each task in turn.
-/

/-!
## What an option of a task is worth

An option starts no earlier than the task is ready, lies where the windows of the
task and the horizon allow, and uses resources that serve the requirements of the
task and that have room on the calendar.
-/

namespace SchedulingProblem

variable {α : Type}

/-- A choice has one item of each list, in their order. -/
theorem forall₂_mem_of_mem_choices
    {β : Type}
    {lists : List (List β)}
    {chosen : List β}
    (isChoice : chosen ∈ choices lists) :
    List.Forall₂ (· ∈ ·) chosen lists := by
  induction lists generalizing chosen with
  | nil =>
      simp only [choices, List.mem_singleton] at isChoice
      subst chosen
      exact .nil
  | cons items rest inductionHypothesis =>
      simp only [choices, List.mem_flatMap, List.mem_map] at isChoice
      obtain ⟨item, inItems, others, areChoice, rfl⟩ := isChoice
      exact .cons inItems (inductionHypothesis areChoice)

/-- The quantities of the requirements for which a resource has been chosen. -/
def quantitiesServed (services : List (Requirement α × Resource α)) (resource : String) : List α :=
  (services.filter (·.2.identifier == resource)).map (·.1.quantity)

/-- A resource serves something exactly if it has been chosen for some requirement. -/
theorem quantitiesServed_ne_nil_iff
    (services : List (Requirement α × Resource α))
    (name : String) :
    quantitiesServed services name ≠ [] ↔
      ∃ service ∈ services, service.2.identifier = name := by
  simp [quantitiesServed, List.filter_eq_nil_iff]

variable [Scalar α]

/-- What a resource has to be to serve a requirement. -/
structure Serves (problem : SchedulingProblem α) (requirement : Requirement α)
    (resource : Resource α) : Prop where
  mem_resources : resource ∈ problem.resources
  kind_or_alternative :
    resource.kind = requirement.kind ∨ resource.identifier ∈ requirement.alternatives
  skills_mem :
    problem.preferences.respectSkills = true →
      ∀ skill ∈ requirement.skills, skill ∈ resource.skills

/-- Every candidate for a requirement serves it. -/
theorem serves_of_mem_candidates
    {problem : SchedulingProblem α}
    {maxCandidates : Nat}
    {requirement : Requirement α}
    {resource : Resource α}
    (member : resource ∈ problem.candidates maxCandidates requirement) :
    problem.Serves requirement resource := by
  have inSorted := List.mem_of_mem_take member
  rw [List.mem_mergeSort] at inSorted
  obtain ⟨inResources, isSuited⟩ := List.mem_filter.mp inSorted
  simp only [suits, Bool.and_eq_true, Bool.or_eq_true, decide_eq_true_eq] at isSuited
  obtain ⟨⟨isAccepted, isSkilled⟩, -⟩ := isSuited
  refine ⟨inResources, ?_, ?_⟩
  · simpa using isAccepted
  · intro respected skill inSkills
    have allThere : requirement.skills.all resource.skills.contains = true := by
      simpa [respected] using isSkilled
    simpa using List.all_eq_true.mp allThere skill inSkills

/-- What is used of each resource is what the requirements that it serves come to. -/
structure Books (services : List (Requirement α × Resource α)) (resources : List (String × α)) :
    Prop where
  nodup : (resources.map (·.1)).Nodup
  mem_names_iff :
    ∀ name, name ∈ resources.map (·.1) ↔ ∃ service ∈ services, service.2.identifier = name
  quantity_eq : ∀ use ∈ resources, use.2 = Scalar.total (quantitiesServed services use.1)

/-- Looking up what is used of a resource gives what the requirements that it serves come to,
on top of what was used before. -/
theorem get?_foldl_useFor
    (services : List (Requirement α × Resource α))
    (usage : Usage α)
    (name : String) :
    (services.foldl useFor usage).get? name =
      if quantitiesServed services name = [] then usage.get? name
      else some ((quantitiesServed services name).foldl (· + ·) ((usage.get? name).getD 0)) := by
  induction services generalizing usage with
  | nil =>
      simp [quantitiesServed]
  | cons service rest inductionHypothesis =>
      obtain ⟨requirement, resource⟩ := service
      rw [List.foldl_cons, inductionHypothesis]
      by_cases isServed : resource.identifier = name
      · subst name
        have servedFirst :
            quantitiesServed ((requirement, resource) :: rest) resource.identifier =
              requirement.quantity :: quantitiesServed rest resource.identifier := by
          simp [quantitiesServed]
        rw [servedFirst, if_neg (List.cons_ne_nil _ _), List.foldl_cons]
        split
        · rename_i noneLater
          simp [noneLater, useFor]
        · simp [useFor]
      · have servedLater :
            quantitiesServed ((requirement, resource) :: rest) name =
              quantitiesServed rest name := by
          simp [quantitiesServed, isServed]
        simp [servedLater, useFor, Ne.symm isServed]

/-- Whatever is used, every resource is named once. -/
theorem nodup_names_foldl_useFor
    (services : List (Requirement α × Resource α))
    {usage : Usage α}
    (distinct : usage.names.Nodup) :
    (services.foldl useFor usage).names.Nodup := by
  induction services generalizing usage with
  | nil =>
      exact distinct
  | cons service rest inductionHypothesis =>
      exact inductionHypothesis (Table.nodup_names_insert distinct _ _)

/-- What a task uses of the resources chosen for it is booked on them. -/
theorem books_usageOf
    (requirements : List (Requirement α))
    (chosen : List (Resource α)) :
    Books (requirements.zip chosen) (usageOf requirements chosen).entries := by
  have distinct : (usageOf requirements chosen).names.Nodup :=
    nodup_names_foldl_useFor (requirements.zip chosen) List.nodup_nil
  have nothingBefore : ∀ name, ({} : Usage α).get? name = none := by
    intro name
    rfl
  have looked : ∀ name,
      (usageOf requirements chosen).get? name =
        if quantitiesServed (requirements.zip chosen) name = [] then none
        else some (Scalar.total (quantitiesServed (requirements.zip chosen) name)) := by
    intro name
    rw [usageOf, get?_foldl_useFor, nothingBefore]
    rfl
  refine ⟨distinct, ?_, ?_⟩
  · intro name
    rw [← quantitiesServed_ne_nil_iff]
    refine (Table.mem_names_iff (usageOf requirements chosen) name).trans ?_
    simp [looked name]
  · intro use member
    have found : (usageOf requirements chosen).get? use.1 = some use.2 :=
      lookup_eq_some_of_mem distinct member
    rw [looked use.1] at found
    split at found
    · simp at found
    · exact (Option.some.inj found).symm

/-- The order in which uses are listed does not matter. -/
theorem Books.perm
    {services : List (Requirement α × Resource α)}
    {uses listed : List (String × α)}
    (books : Books services uses)
    (sameUses : listed.Perm uses) :
    Books services listed where
  nodup := (sameUses.map (·.1)).nodup_iff.mpr books.nodup
  mem_names_iff name := (sameUses.map (·.1)).mem_iff.trans (books.mem_names_iff name)
  quantity_eq use member := books.quantity_eq use (sameUses.subset member)

/-- How the requirements of a task are met. -/
structure Meets (problem : SchedulingProblem α) (task : Task α) (chosen : List (Resource α))
    (resources : List (String × α)) : Prop where
  serves : List.Forall₂ problem.Serves task.requirements chosen
  books : Books (task.requirements.zip chosen) resources
  skills_mem :
    problem.preferences.respectSkills = true →
      ∀ skill ∈ task.skills, ∃ resource ∈ chosen, skill ∈ resource.skills

/-- Every combination of resources meets the requirements of its task. -/
theorem exists_meets_of_mem_combinations
    {problem : SchedulingProblem α}
    {maxCandidates : Nat}
    {task : Task α}
    {usage : Usage α}
    (member : usage ∈ problem.combinations maxCandidates task) :
    ∃ chosen, problem.Meets task chosen usage.entries := by
  obtain ⟨chosen, isChoice, isUsage⟩ := List.mem_filterMap.mp member
  dsimp only at isUsage
  split at isUsage
  · rename_i isCovered
    obtain rfl := Option.some.inj isUsage
    refine ⟨chosen, ?_, books_usageOf task.requirements chosen, ?_⟩
    · have chosenFrom := (forall₂_mem_of_mem_choices isChoice).flip
      rw [List.forall₂_map_left_iff] at chosenFrom
      exact chosenFrom.imp fun requirement resource isCandidate =>
        serves_of_mem_candidates isCandidate
    · intro respected skill inSkills
      have covers := (Bool.and_eq_true_iff.mp isCovered).2
      simp only [coverSkills, respected, Bool.not_true, Bool.false_or] at covers
      simpa using List.all_eq_true.mp covers skill inSkills
  · simp at isUsage

/-- What holds of the earliest moment at which a task has room. -/
theorem of_earliestStart?_eq_some
    [OrderedScalar α]
    {task : Task α}
    {usage : Usage α}
    {ready horizonEnd start : α}
    {calendar : Calendar α}
    (found : task.earliestStart? usage ready calendar horizonEnd = some start) :
    ready ≤ start ∧
      start + task.duration ≤ horizonEnd + Scalar.slack ∧
      task.allows start (start + task.duration) = true ∧
      ∀ use ∈ usage.entries,
        calendar.fits use.1 use.2 start (start + task.duration) = true := by
  unfold Task.earliestStart? at found
  have isSuitable := List.find?_some found
  have inTaken := List.mem_of_find?_eq_some found
  simp only [Bool.and_eq_true] at isSuitable
  have within := List.mem_takeWhile_imp inTaken
  have isMoment :=
    Scalar.mem_of_mem_distinct ((List.takeWhile_sublist _).subset inTaken)
  refine ⟨?_, ?_, isSuitable.1, ?_⟩
  · exact of_decide_eq_true (List.mem_filter.mp isMoment).2
  · exact OrderedScalar.le_of_not_lt (by simpa using within)
  · intro use member
    exact List.all_eq_true.mp isSuitable.2 use member

/-- What an option grants a task that is ready at a moment. -/
structure Grants (problem : SchedulingProblem α) (calendar : Calendar α) (task : Task α)
    (ready : α) (placement : Placement α) : Prop where
  task_eq : placement.task = task.identifier
  finish_eq : placement.finish = placement.start + task.duration
  ready_le : ready ≤ placement.start
  finish_le : placement.finish ≤ problem.horizon.finish + Scalar.slack
  allowed : task.allows placement.start placement.finish = true
  meets : ∃ chosen, problem.Meets task chosen placement.resources
  fits :
    ∀ use ∈ placement.resources,
      calendar.fits use.1 use.2 placement.start placement.finish = true

/-- Every option of a task grants it what it needs. -/
theorem grants_of_mem_optionsFrom
    [OrderedScalar α]
    {problem : SchedulingProblem α}
    {maxCandidates : Nat}
    {calendar : Calendar α}
    {task : Task α}
    {ready : α}
    {placement : Placement α}
    (member : placement ∈ problem.optionsFrom maxCandidates calendar task ready) :
    problem.Grants calendar task ready placement := by
  obtain ⟨ranked, inSorted, rfl⟩ := List.mem_map.mp member
  rw [List.mem_mergeSort] at inSorted
  obtain ⟨usage, isCombination, isRanked⟩ := List.mem_filterMap.mp inSorted
  obtain ⟨start, isEarliest, rfl⟩ := Option.map_eq_some_iff.mp isRanked
  obtain ⟨chosen, meets⟩ := exists_meets_of_mem_combinations isCombination
  obtain ⟨isReady, inHorizon, allowed, fits⟩ := of_earliestStart?_eq_some isEarliest
  have sameUses :
      (usage.entries.mergeSort fun first second => decide (first.1 ≤ second.1)).Perm
        usage.entries :=
    List.mergeSort_perm _ _
  exact {
    task_eq := rfl
    finish_eq := rfl
    ready_le := isReady
    finish_le := inHorizon
    allowed := allowed
    meets := ⟨chosen, meets.serves, meets.books.perm sameUses, meets.skills_mem⟩
    fits := fun use inUses => fits use (sameUses.subset inUses)
  }

/-- A task is ready once the horizon has begun and all that it waits for has ended. -/
theorem of_readyTime_eq_ok
    [OrderedScalar α]
    {problem : SchedulingProblem α}
    {finished : Table α}
    {task : Task α}
    {ready : α}
    (isReady : problem.readyTime finished task = .ok ready) :
    problem.horizon.start ≤ ready ∧
      ∀ dependency ∈ task.dependencies,
        ∃ finish, finished.get? dependency = some finish ∧ finish ≤ ready := by
  obtain ⟨ends, areEnds, isLargest⟩ := bind_eq_ok isReady
  obtain ⟨greatest, found, startBelow⟩ :=
    Scalar.exists_largest?_of_mem
      (show problem.horizon.start ∈ problem.horizon.start :: ends from List.mem_cons_self)
  simp only [found, Option.getD_some, pure, Except.pure, Except.ok.injEq] at isLargest
  subst greatest
  refine ⟨startBelow, ?_⟩
  intro dependency member
  obtain ⟨finish, inEnds, isEnd⟩ :=
    exists_of_mem_of_mapM_eq_ok areEnds member
  refine ⟨finish, ?_,
    Scalar.le_of_largest?_eq_some found (List.mem_cons_of_mem _ inEnds)⟩
  unfold endOf at isEnd
  split at isEnd
  · rename_i isFinished
    rw [isFinished, Except.ok.inj isEnd]
  · simp at isEnd

/-- A task has a ready time if everything that it waits for has ended. -/
theorem exists_readyTime_eq_ok
    (problem : SchedulingProblem α)
    {finished : Table α}
    {task : Task α}
    (allFinished : ∀ dependency ∈ task.dependencies, dependency ∈ finished.names) :
    ∃ ready, problem.readyTime finished task = .ok ready := by
  have ended : ∀ dependency ∈ task.dependencies,
      ∃ finish, endOf finished dependency = .ok finish := by
    intro dependency member
    have isThere := (finished.mem_names_iff dependency).mp (allFinished dependency member)
    obtain ⟨finish, isEnd⟩ := Option.ne_none_iff_exists'.mp isThere
    exact ⟨finish, by simp [endOf, isEnd]⟩
  obtain ⟨ends, areEnds⟩ := exists_mapM_eq_ok ended
  refine ⟨(Scalar.largest? (problem.horizon.start :: ends)).getD problem.horizon.start, ?_⟩
  rw [readyTime, areEnds]
  rfl

end SchedulingProblem

/-!
## Schedules that are built task by task

A trail leads from the empty schedule to another one.  At each task it has taken
one of the options that there were, passed over those before it, and left those
after it untried.  Everything that a schedule keeps beside its placements can be
told from them, so taking the last placement back leads where the trail came from.
-/

namespace Scheduling

variable {α : Type}

/-- The end of every placement under its task. -/
def endsOf (placements : List (Placement α)) : List (String × α) :=
  placements.map fun placement => (placement.task, placement.finish)

/-- What is kept of a schedule beside its placements can be told from them. -/
structure Kept (problem : SchedulingProblem α) (tasks : List (Task α)) (schedule : Schedule α) :
    Prop where
  tasks_eq : schedule.placements.map (·.task) = tasks.map (·.identifier)
  calendar_eq :
    schedule.calendar =
      ⟨problem.resources, problem.preferences.allowSharing, schedule.placements⟩
  finished_eq : schedule.finished.entries = endsOf schedule.placements

namespace Kept

variable {problem : SchedulingProblem α} {tasks : List (Task α)} {schedule : Schedule α}

/-- The tasks whose ends are known are those that have been placed. -/
theorem names_finished
    (kept : Kept problem tasks schedule) :
    schedule.finished.names = tasks.map (·.identifier) := by
  rw [Table.names, kept.finished_eq, ← kept.tasks_eq, endsOf, List.map_map]
  rfl

/-- The end that is known of a task is the end of one of its placements. -/
theorem exists_of_finished
    {task : String}
    {finish : α}
    (kept : Kept problem tasks schedule)
    (isFinished : schedule.finished.get? task = some finish) :
    ∃ placement ∈ schedule.placements,
      placement.task = task ∧ placement.finish = finish := by
  rw [Table.get?, kept.finished_eq, List.lookup_eq_some_iff] at isFinished
  obtain ⟨before, after, shape, -⟩ := isFinished
  have member : (task, finish) ∈ endsOf schedule.placements := by
    rw [shape]
    exact List.mem_append_right before List.mem_cons_self
  obtain ⟨placement, inPlacements, isEnd⟩ := List.mem_map.mp member
  simp only [Prod.mk.injEq] at isEnd
  exact ⟨placement, inPlacements, isEnd⟩

/-- Placing a new task keeps the accounts in order. -/
theorem place
    {task : Task α}
    {placement : Placement α}
    (kept : Kept problem tasks schedule)
    (isOfTask : placement.task = task.identifier)
    (isNew : task.identifier ∉ tasks.map (·.identifier)) :
    Kept problem (tasks ++ [task]) (schedule.place placement) where
  tasks_eq := by
    simp [Schedule.place, kept.tasks_eq, isOfTask]
  calendar_eq := by
    simp [Schedule.place, Calendar.book, kept.calendar_eq]
  finished_eq := by
    have isNewName : placement.task ∉ schedule.finished.entries.map (·.1) := by
      rw [isOfTask]
      have sameNames := kept.names_finished
      rw [Table.names] at sameNames
      rwa [sameNames]
    simp only [Schedule.place, Table.insert]
    rw [Table.enter_of_not_mem _ isNewName, kept.finished_eq, endsOf, endsOf,
      List.map_append, List.map_singleton]

end Kept

variable [Scalar α]

/-- The tasks that have been placed in a schedule one after the other, and the options that
have been left untried, those of the latest task first. -/
inductive Trail (problem : SchedulingProblem α) (maxCandidates : Nat) :
    List (Task α) → Schedule α → List (List (Placement α)) → Prop where
  | start : Trail problem maxCandidates [] (.start problem) []
  | place {tasks : List (Task α)} {schedule : Schedule α}
      {untried : List (List (Placement α))} {task : Task α}
      {passed rest : List (Placement α)} {placement : Placement α}
      (trail : Trail problem maxCandidates tasks schedule untried)
      (found : schedule.options problem maxCandidates task = .ok (passed ++ placement :: rest)) :
      Trail problem maxCandidates (tasks ++ [task]) (schedule.place placement) (rest :: untried)

/-- A trail has a placement, and options left untried, for each of its tasks. -/
theorem Trail.length_eq
    {problem : SchedulingProblem α}
    {maxCandidates : Nat}
    {tasks : List (Task α)}
    {schedule : Schedule α}
    {untried : List (List (Placement α))}
    (trail : Trail problem maxCandidates tasks schedule untried) :
    schedule.placements.length = tasks.length ∧ untried.length = tasks.length := by
  induction trail with
  | start =>
      exact ⟨rfl, rfl⟩
  | place trail found inductionHypothesis =>
      obtain ⟨samePlacements, sameUntried⟩ := inductionHypothesis
      simp [Schedule.place, samePlacements, sameUntried]

/-- A task has options to go through once everything that it waits for is placed. -/
theorem Kept.exists_options
    {problem : SchedulingProblem α}
    {tasks : List (Task α)}
    {schedule : Schedule α}
    (kept : Kept problem tasks schedule)
    (maxCandidates : Nat)
    {task : Task α}
    (allPlaced : ∀ dependency ∈ task.dependencies, dependency ∈ tasks.map (·.identifier)) :
    ∃ options, schedule.options problem maxCandidates task = .ok options := by
  have allFinished : ∀ dependency ∈ task.dependencies,
      dependency ∈ schedule.finished.names := by
    rw [kept.names_finished]
    exact allPlaced
  obtain ⟨ready, isReady⟩ := problem.exists_readyTime_eq_ok allFinished
  refine ⟨problem.optionsFrom maxCandidates schedule.calendar task ready, ?_⟩
  simp [Schedule.options, SchedulingProblem.options, isReady, Except.map]

variable [OrderedScalar α]

/-- Taking a new placement back leads to the schedule that it was added to. -/
theorem Kept.withdraw_place
    {problem : SchedulingProblem α}
    {tasks : List (Task α)}
    {schedule : Schedule α}
    {placement : Placement α}
    (kept : Kept problem tasks schedule)
    (isNew : placement.task ∉ tasks.map (·.identifier)) :
    (schedule.place placement).withdraw = .ok schedule := by
  have isNewName : placement.task ∉ schedule.finished.names := by
    rw [kept.names_finished]
    exact isNew
  have isNewBooking : ∀ booking ∈ schedule.calendar.bookings, booking.task ≠ placement.task := by
    intro booking member sameTask
    rw [kept.calendar_eq] at member
    rw [← kept.tasks_eq] at isNew
    exact isNew (List.mem_map.mpr ⟨booking, member, sameTask⟩)
  have isFinished :
      (schedule.finished.insert placement.task placement.finish).contains
        placement.task = true := by
    rw [Table.contains_iff_mem_names, Table.mem_names_iff]
    simp
  unfold Schedule.withdraw
  simp [Schedule.place, Calendar.isBooked_book, Calendar.release_book isNewBooking, isFinished,
    Table.erase_insert_of_not_mem _ isNewName]

/-- An option that is taken is granted to its task at the time at which it is ready. -/
theorem exists_grants_of_options
    {problem : SchedulingProblem α}
    {maxCandidates : Nat}
    {schedule : Schedule α}
    {task : Task α}
    {passed rest : List (Placement α)}
    {placement : Placement α}
    (found : schedule.options problem maxCandidates task = .ok (passed ++ placement :: rest)) :
    ∃ ready,
      problem.horizon.start ≤ ready ∧
        (∀ dependency ∈ task.dependencies,
          ∃ finish,
            schedule.finished.get? dependency = some finish ∧ finish ≤ ready) ∧
        problem.Grants schedule.calendar task ready placement := by
  unfold Schedule.options SchedulingProblem.options at found
  cases isReady : problem.readyTime schedule.finished task with
  | error lapse =>
      simp [isReady, Except.map] at found
  | ok ready =>
      simp only [isReady, Except.map, Except.ok.injEq] at found
      obtain ⟨hasBegun, haveEnded⟩ := SchedulingProblem.of_readyTime_eq_ok isReady
      have isOption :
          placement ∈ problem.optionsFrom maxCandidates schedule.calendar task ready := by
        rw [found]
        exact List.mem_append_right passed List.mem_cons_self
      exact ⟨ready, hasBegun, haveEnded,
        SchedulingProblem.grants_of_mem_optionsFrom isOption⟩

/-- The accounts of a schedule that a trail leads to are in order. -/
theorem Trail.kept
    {problem : SchedulingProblem α}
    {maxCandidates : Nat}
    {tasks : List (Task α)}
    {schedule : Schedule α}
    {untried : List (List (Placement α))}
    (trail : Trail problem maxCandidates tasks schedule untried)
    (distinct : (tasks.map (·.identifier)).Nodup) :
    Kept problem tasks schedule := by
  induction trail with
  | start =>
      exact ⟨rfl, rfl, rfl⟩
  | place trail found inductionHypothesis =>
      rw [List.map_append, List.map_singleton, nodup_append_singleton_iff] at distinct
      obtain ⟨ready, -, -, grants⟩ := exists_grants_of_options found
      exact (inductionHypothesis distinct.1).place grants.task_eq distinct.2

/-- Placements that have been granted one after the other, each beside those before it and to a
task that had not been placed. -/
inductive GrantedInTurn (problem : SchedulingProblem α) : List (Placement α) → Prop where
  | nil : GrantedInTurn problem []
  | concat {placements : List (Placement α)} {task : Task α} {ready : α}
      {placement : Placement α}
      (grantedBefore : GrantedInTurn problem placements)
      (inProblem : task ∈ problem.tasks)
      (isNew : placement.task ∉ placements.map (·.task))
      (hasBegun : problem.horizon.start ≤ ready)
      (haveEnded : ∀ dependency ∈ task.dependencies,
        ∃ earlier ∈ placements, earlier.task = dependency ∧ earlier.finish ≤ ready)
      (grants : problem.Grants
        ⟨problem.resources, problem.preferences.allowSharing, placements⟩ task ready placement) :
      GrantedInTurn problem (placements ++ [placement])

/-- The placements along a trail have been granted one after the other. -/
theorem Trail.grantedInTurn
    {problem : SchedulingProblem α}
    {maxCandidates : Nat}
    {tasks : List (Task α)}
    {schedule : Schedule α}
    {untried : List (List (Placement α))}
    (trail : Trail problem maxCandidates tasks schedule untried)
    (inProblem : ∀ task ∈ tasks, task ∈ problem.tasks)
    (distinct : (tasks.map (·.identifier)).Nodup) :
    GrantedInTurn problem schedule.placements := by
  induction trail with
  | start =>
      exact .nil
  | @place tasks schedule untried task passed rest placement trail found inductionHypothesis =>
      rw [List.map_append, List.map_singleton, nodup_append_singleton_iff] at distinct
      have kept := trail.kept distinct.1
      have grantedBefore :=
        inductionHypothesis (fun task member => inProblem task (List.mem_append_left _ member))
          distinct.1
      obtain ⟨ready, hasBegun, haveEnded, grants⟩ := exists_grants_of_options found
      refine .concat grantedBefore (inProblem task (by simp)) ?_ hasBegun ?_
        (kept.calendar_eq ▸ grants)
      · rw [kept.tasks_eq, grants.task_eq]
        exact distinct.2
      · intro dependency member
        obtain ⟨finish, isFinished, endsBefore⟩ := haveEnded dependency member
        obtain ⟨earlier, inSchedule, isOf, rfl⟩ := kept.exists_of_finished isFinished
        exact ⟨earlier, inSchedule, isOf, endsBefore⟩

end Scheduling

end Optima
