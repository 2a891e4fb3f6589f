import Mathlib
import Optima.Proofs.Scalar.Extended
import Optima.Proofs.Scheduling.Order

namespace Optima

/-!
# What is not ordered waits for a cycle

A task that is ordered has everything that it depends on ordered before it, so no cycle can be
reached from it.  When no task is ready any more, each of those that are left depends on another
one that is left; as there are finitely many of them, following the dependencies leads to a cycle.
-/

/-- In a finite set where every item has a successor, following successors leads to a cycle. -/
theorem exists_cycle_of_finite
    {β : Type}
    {leadsTo : β → β → Prop}
    {items : Set β}
    (finite : items.Finite)
    (hasNext : ∀ item ∈ items, ∃ next ∈ items, leadsTo item next)
    {item : β}
    (member : item ∈ items) :
    ∃ last, Relation.ReflTransGen leadsTo item last ∧ Relation.TransGen leadsTo last last := by
  by_contra noCycle
  push Not at noCycle
  -- Without cycles, what is reached from the item is in a strict order, and some of it is last.
  let reached := {other : β // other ∈ items ∧ Relation.ReflTransGen leadsTo item other}
  let isBehind (later earlier : reached) : Prop :=
    Relation.TransGen leadsTo earlier.val later.val
  have : Finite reached := (finite.subset fun other isReached => isReached.1).to_subtype
  have : IsTrans reached isBehind := ⟨fun _ _ _ first second => second.trans first⟩
  have : Std.Irrefl isBehind := ⟨fun other => noCycle other.val other.property.2⟩
  obtain ⟨last, -, isLast⟩ :=
    (Finite.wellFounded_of_trans_of_irrefl isBehind).has_min Set.univ
      ⟨⟨item, member, .refl⟩, Set.mem_univ _⟩
  obtain ⟨next, isItem, isNext⟩ := hasNext last.val last.property.1
  exact isLast ⟨next, isItem, last.property.2.tail isNext⟩ (Set.mem_univ _) (.single isNext)

namespace SchedulingProblem

variable {α : Type} {problem : SchedulingProblem α}

/-- A task depends on one that it names. -/
def DependsOn (problem : SchedulingProblem α) (task other : Task α) : Prop :=
  other ∈ problem.tasks ∧ other.identifier ∈ task.dependencies

/-- Following the dependencies of a task leads to a cycle. -/
def ReachesCycle (problem : SchedulingProblem α) (task : Task α) : Prop :=
  ∃ member,
    Relation.ReflTransGen problem.DependsOn task member ∧
      Relation.TransGen problem.DependsOn member member

/-- A cycle that is reached from a task is reached from one that it depends on. -/
theorem ReachesCycle.exists_dependsOn
    {task : Task α}
    (reaches : problem.ReachesCycle task) :
    ∃ other, problem.DependsOn task other ∧ problem.ReachesCycle other := by
  obtain ⟨member, isReached, isCycle⟩ := reaches
  rcases isReached.cases_head with rfl | ⟨other, dependsOn, isReached⟩
  · obtain ⟨other, dependsOn, isReached⟩ := Relation.TransGen.head'_iff.mp isCycle
    exact ⟨other, dependsOn, task, isReached, isCycle⟩
  · exact ⟨other, dependsOn, member, isReached, isCycle⟩

/-- Tasks that are taken in turn reach no cycle. -/
theorem not_reachesCycle_of_takenInTurn
    (distinct : (problem.tasks.map (·.identifier)).Nodup)
    {taken : List (Task α)}
    (inTurn : TaskOrder.TakenInTurn problem.entrants taken)
    {task : Task α}
    (isTaken : task ∈ taken) :
    ¬ problem.ReachesCycle task := by
  induction inTurn generalizing task with
  | nil => simp at isTaken
  | @cons taken entrant inTurn isNext inductionHypothesis =>
      rcases List.mem_cons.mp isTaken with rfl | wasTaken
      · intro reaches
        obtain ⟨other, ⟨isTask, isAwaited⟩, reachesToo⟩ := reaches.exists_dependsOn
        have isName := TaskOrder.missing_eq_nil_iff.mp isNext.missing_eq_nil _ isAwaited
        obtain ⟨before, wasTaken, same⟩ := List.mem_map.mp isName
        obtain ⟨entered, isEntered, rfl⟩ := inTurn.exists_entrant wasTaken
        obtain ⟨position, isThere, -⟩ := TaskOrder.exists_position_of_mem_entrants isEntered
        obtain rfl :=
          List.inj_on_of_nodup_map distinct (List.mem_of_getElem? isThere) isTask same
        exact inductionHypothesis wasTaken reachesToo
      · exact inductionHypothesis wasTaken

/-- What a task of a problem without faults depends on is a task. -/
theorem exists_task_of_mem_dependencies
    (valid : problem.fault? = none)
    {task : Task α}
    (member : task ∈ problem.tasks)
    {name : String}
    (isAwaited : name ∈ task.dependencies) :
    ∃ other ∈ problem.tasks, other.identifier = name := by
  unfold fault? at valid
  dsimp only at valid
  split at valid
  · cases valid
  · split at valid
    · cases valid
    · have noStray := List.findSome?_eq_none_iff.mp valid task member
      unfold strayReference? at noStray
      dsimp only at noStray
      rw [Option.or_eq_none_iff, Option.map_eq_none_iff, List.find?_eq_none] at noStray
      have isKnown := noStray.1 name isAwaited
      simpa using isKnown

/-- Left are the tasks that are not in the order. -/
theorem mem_left_iff
    {task : Task α} :
    task ∈ problem.order.2 ↔
      task ∈ problem.tasks ∧ task.identifier ∉ problem.order.1.map (·.identifier) := by
  refine List.mem_filter.trans (and_congr_right fun _ => ?_)
  rw [Bool.not_eq_true', ← Bool.not_eq_true, List.contains_iff_mem]
  rfl

/-- A task that is left depends on another one that is. -/
theorem exists_dependsOn_of_mem_left
    (valid : problem.fault? = none)
    {task : Task α}
    (isLeft : task ∈ problem.order.2) :
    ∃ other ∈ problem.order.2, problem.DependsOn task other := by
  obtain ⟨isTask, notOrdered⟩ := mem_left_iff.mp isLeft
  obtain ⟨last, -, kept, isEmpty, isOrder⟩ := problem.exists_last_turn
  have sameNames (name : String) :
      name ∈ last.taken.map (·.identifier) ↔ name ∈ problem.order.1.map (·.identifier) := by
    rw [isOrder, List.map_reverse, List.mem_reverse]
  obtain ⟨position, isThere⟩ := List.mem_iff_getElem?.mp isTask
  have isEntrant :
      ⟨TaskOrder.key problem.preferences.urgentFirst position task, task⟩ ∈ problem.entrants :=
    TaskOrder.mem_entrants_of_getElem? (nodup_tasks_of_fault?_eq_none valid) isThere
  have isMissing : TaskOrder.missing last.taken task ≠ [] := by
    intro noneMissing
    have inQueue := (kept.mem_queue_iff _).mpr
      ⟨isEntrant, fun isTaken => notOrdered ((sameNames _).mp isTaken), noneMissing⟩
    rw [isEmpty] at inQueue
    exact List.not_mem_nil inQueue
  obtain ⟨name, isName⟩ := List.exists_mem_of_ne_nil _ isMissing
  obtain ⟨isAwaited, notTaken⟩ := TaskOrder.mem_missing_iff.mp isName
  obtain ⟨other, isTaskToo, rfl⟩ := exists_task_of_mem_dependencies valid isTask isAwaited
  exact ⟨other, mem_left_iff.mpr ⟨isTaskToo, fun isOrdered => notTaken ((sameNames _).mpr isOrdered)⟩,
    isTaskToo, isAwaited⟩

/-- Left are exactly the tasks that reach a cycle. -/
theorem mem_left_iff_reachesCycle
    (valid : problem.fault? = none)
    {task : Task α}
    (member : task ∈ problem.tasks) :
    task ∈ problem.order.2 ↔ problem.ReachesCycle task := by
  constructor
  · intro isLeft
    exact exists_cycle_of_finite (List.finite_toSet problem.order.2)
      (fun _ => exists_dependsOn_of_mem_left valid) isLeft
  · intro reaches
    obtain ⟨last, -, kept, -, isOrder⟩ := problem.exists_last_turn
    refine mem_left_iff.mpr ⟨member, fun isOrdered => ?_⟩
    obtain ⟨other, inOrder, same⟩ := List.mem_map.mp isOrdered
    obtain rfl :=
      List.inj_on_of_nodup_map (nodup_tasks_of_fault?_eq_none valid)
        (mem_tasks_of_mem_order inOrder) member same
    rw [isOrder, List.mem_reverse] at inOrder
    exact not_reachesCycle_of_takenInTurn (nodup_tasks_of_fault?_eq_none valid) kept.inTurn
      inOrder reaches

/-- No task is left out of the order exactly if none waits for itself. -/
theorem noneLeft_iff_acyclic
    (valid : problem.fault? = none) :
    problem.order.2 = [] ↔ ∀ task, ¬ Relation.TransGen problem.DependsOn task task := by
  constructor
  · intro noneLeft task isCycle
    obtain ⟨other, -, isLast⟩ := Relation.TransGen.tail'_iff.mp isCycle
    have isLeft := (mem_left_iff_reachesCycle valid isLast.1).mpr
      ⟨task, .refl, isCycle⟩
    rw [noneLeft] at isLeft
    exact List.not_mem_nil isLeft
  · intro acyclic
    refine List.eq_nil_iff_forall_not_mem.mpr fun task isLeft => ?_
    have isTask := (mem_left_iff.mp isLeft).1
    obtain ⟨member, -, isCycle⟩ :=
      (mem_left_iff_reachesCycle valid isTask).mp isLeft
    exact acyclic member isCycle

/--
An order of tasks takes the most urgent one first of those that are ready, and leaves those that
wait for a cycle.
-/
structure IsPriorityOrder (problem : SchedulingProblem α) (ordered left : List (Task α)) :
    Prop where
  perm : (ordered ++ left).Perm problem.tasks
  dependencies_mem :
    ∀ earlier task later, ordered = earlier ++ task :: later →
      ∀ name ∈ task.dependencies, name ∈ earlier.map (·.identifier)
  key_le :
    ∀ earlier task later, ordered = earlier ++ task :: later →
      ∀ position place other,
        problem.tasks[position]? = some task → problem.tasks[place]? = some other →
          other ∉ earlier →
            (∀ name ∈ other.dependencies, name ∈ earlier.map (·.identifier)) →
              TaskOrder.key problem.preferences.urgentFirst position task ≤
                TaskOrder.key problem.preferences.urgentFirst place other
  mem_left_iff : ∀ task ∈ problem.tasks, task ∈ left ↔ problem.ReachesCycle task

/-- Taking tasks in turn comes to an end, and what has been taken then is the order by urgency. -/
theorem order_is_priority_order
    (problem : SchedulingProblem α)
    (valid : problem.fault? = none) :
    ∃ last : TaskOrder.Line α,
      TaskOrder.Line.Turns problem.entrants (.start problem.entrants) last ∧
        last.turn? problem.entrants = none ∧ problem.order.1 = last.taken.reverse ∧
          problem.IsPriorityOrder problem.order.1 problem.order.2 := by
  have distinct := nodup_tasks_of_fault?_eq_none valid
  obtain ⟨last, turns, kept, isEmpty, isOrder⟩ := problem.exists_last_turn
  have isNext (earlier : List (Task α)) (task : Task α) (later : List (Task α))
      (shape : problem.order.1 = earlier ++ task :: later) :
      ∃ entrant, entrant.task = task ∧
        TaskOrder.IsNext problem.entrants earlier.reverse entrant := by
    have isTaken : last.taken = later.reverse ++ task :: earlier.reverse := by
      rw [← List.reverse_reverse last.taken, ← isOrder, shape]
      simp
    exact kept.inTurn.isNext isTaken
  refine ⟨last, turns, ?_, isOrder, order_perm valid, ?_, ?_,
    fun task => mem_left_iff_reachesCycle valid⟩
  · rw [TaskOrder.Line.turn?, isEmpty]
  · intro earlier task later shape name isAwaited
    obtain ⟨entrant, rfl, isNext⟩ := isNext earlier task later shape
    simpa using TaskOrder.missing_eq_nil_iff.mp isNext.missing_eq_nil name isAwaited
  · intro earlier task later shape position place other isThere isThereToo notEarlier isReady
    obtain ⟨entrant, rfl, isNext⟩ := isNext earlier task later shape
    have isKey :
        entrant.key = TaskOrder.key problem.preferences.urgentFirst position entrant.task :=
      congrArg TaskOrder.Entrant.key
        (List.inj_on_of_nodup_map (TaskOrder.nodup_entrants _ _) isNext.mem
          (TaskOrder.mem_entrants_of_getElem? distinct isThere) rfl)
    rw [← isKey]
    refine isNext.isFirst _ ⟨TaskOrder.mem_entrants_of_getElem? distinct isThereToo, ?_, ?_⟩
    · intro isTaken
      rw [List.map_reverse, List.mem_reverse] at isTaken
      obtain ⟨before, isEarlier, same⟩ := List.mem_map.mp isTaken
      have isTask : before ∈ problem.tasks :=
        mem_tasks_of_mem_order (shape ▸ List.mem_append_left _ isEarlier)
      obtain rfl :=
        List.inj_on_of_nodup_map distinct isTask (List.mem_of_getElem? isThereToo) same
      exact notEarlier isEarlier
    · rw [TaskOrder.missing_eq_nil_iff]
      intro name isAwaited
      rw [List.map_reverse, List.mem_reverse]
      exact isReady name isAwaited

/-- Tasks that name others twice, themselves or each other. -/
def tangledProblem : SchedulingProblem Extended where
  identifier := "tangled"
  name := ""
  kind := .scheduling
  description := ""
  objectives := SchedulingProblem.usualObjectives "makespan"
  constraints := []
  decisions := []
  parameters := none
  status := .pending
  tasks :=
    [⟨"paint", "", 1, 9, ["sand", "sand"], [], [], []⟩, ⟨"sand", "", 1, 0, [], [], [], []⟩,
      ⟨"sweep", "", 1, 1, [], [], [], []⟩, ⟨"wait", "", 1, 5, ["wait"], [], [], []⟩,
      ⟨"chicken", "", 1, 0, ["egg"], [], [], []⟩, ⟨"egg", "", 1, 0, ["chicken"], [], [], []⟩,
      ⟨"breakfast", "", 1, 7, ["egg", "sand"], [], [], []⟩]
  resources := []
  horizon := ⟨0, 1, .hour⟩
  preferences := ⟨false, false, true, false, true⟩

/-- Of the tangled tasks three are ordered by urgency, and four wait for themselves, for each other
or for tasks that do. -/
theorem tangledProblem_order_is_priority_order :
    tangledProblem.fault? = none ∧
      tangledProblem.order.1.map (·.identifier) = ["sweep", "sand", "paint"] ∧
        tangledProblem.order.2.map (·.identifier) = ["wait", "chicken", "egg", "breakfast"] ∧
          ∃ last : TaskOrder.Line Extended,
            TaskOrder.Line.Turns tangledProblem.entrants (.start tangledProblem.entrants) last ∧
              last.turn? tangledProblem.entrants = none ∧
                tangledProblem.order.1 = last.taken.reverse ∧
                  tangledProblem.IsPriorityOrder tangledProblem.order.1 tangledProblem.order.2 := by
  have valid : tangledProblem.fault? = none := by cbv
  exact ⟨valid, by cbv, by cbv, order_is_priority_order tangledProblem valid⟩

end SchedulingProblem

end Optima
