import Mathlib.Data.List.Lex
import Mathlib.Data.List.Nodup
import Mathlib.Data.List.Perm.Subperm
import Mathlib.Logic.Relation
import Optima.Proofs.Table
import Optima.Proofs.Scalar.Laws
import Optima.Scheduling.Order

namespace Optima

/-!
# Everything a task waits for comes before it

The count of a task is the number of distinct tasks that it waits for and that are not taken.
So the queue holds the tasks that are ready, and those only, and as it is kept in the order of
the keys, each task that is taken is the first one of them.  This is what one turn preserves.
No task is taken twice, so the turns come to an end, with an empty queue.
-/

namespace TaskOrder

variable {α : Type}

/-!
## The tasks and the queue
-/

/-- No two of the tasks with keys have the same identifier. -/
theorem nodup_entrants
    (urgentFirst : Bool)
    (tasks : List (Task α)) :
    ((entrants urgentFirst tasks).map (·.identifier)).Nodup := by
  unfold entrants
  set entries := tasks.zipIdx.map (entryOf urgentFirst)
  have areNames :
      (Table.ofList entries).values.map (·.identifier) = (Table.ofList entries).names := by
    rw [Table.values, Table.names, List.map_map]
    apply List.map_congr_left
    intro entry member
    obtain ⟨⟨task, position⟩, -, rfl⟩ :=
      List.mem_map.mp (Table.mem_of_mem_entries_ofList member)
    rfl
  rw [areNames]
  exact Table.nodup_names_ofList entries

/-- A task with a key stands in the list of tasks, at the place that its key tells. -/
theorem exists_position_of_mem_entrants
    {urgentFirst : Bool}
    {tasks : List (Task α)}
    {entrant : Entrant α}
    (member : entrant ∈ entrants urgentFirst tasks) :
    ∃ position : Nat,
      tasks[position]? = some entrant.task ∧
        entrant.key = key urgentFirst position entrant.task := by
  obtain ⟨entry, inTable, rfl⟩ := List.mem_map.mp member
  obtain ⟨⟨task, position⟩, isThere, rfl⟩ :=
    List.mem_map.mp (Table.mem_of_mem_entries_ofList inTable)
  exact ⟨position, List.mem_zipIdx_iff_getElem?.mp isThere, rfl⟩

/-- Where identifiers are distinct, every task has its key. -/
theorem mem_entrants_of_getElem?
    {urgentFirst : Bool}
    {tasks : List (Task α)}
    (distinct : (tasks.map (·.identifier)).Nodup)
    {position : Nat}
    {task : Task α}
    (isThere : tasks[position]? = some task) :
    ⟨key urgentFirst position task, task⟩ ∈ entrants urgentFirst tasks := by
  unfold entrants
  have areIdentifiers :
      (tasks.zipIdx.map (entryOf urgentFirst)).map (·.1) = tasks.map (·.identifier) := by
    conv_rhs => rw [← List.zipIdx_map_fst 0 tasks]
    rw [List.map_map, List.map_map]
    rfl
  rw [Table.values, Table.entries_ofList_of_nodup (areIdentifiers ▸ distinct), List.map_map]
  exact List.mem_map.mpr ⟨(task, position), List.mem_zipIdx_iff_getElem?.mpr isThere, rfl⟩

/-- A task that joins the queue is added to it. -/
theorem enqueue_perm
    (entrant : Entrant α)
    (queue : List (Entrant α)) :
    (enqueue entrant queue).Perm (entrant :: queue) := by
  induction queue with
  | nil =>
      exact List.Perm.refl _
  | cons first rest inductionHypothesis =>
      unfold enqueue
      split
      · exact List.Perm.refl _
      · exact (inductionHypothesis.cons first).trans (List.Perm.swap _ _ _)

/-- A queue in the order of the keys stays so when a task joins it. -/
theorem ascends_enqueue
    (entrant : Entrant α)
    {queue : List (Entrant α)}
    (ascends : queue.Pairwise (·.key ≤ ·.key)) :
    (enqueue entrant queue).Pairwise (·.key ≤ ·.key) := by
  induction queue with
  | nil =>
      simp [enqueue]
  | cons first rest inductionHypothesis =>
      obtain ⟨isFirst, restAscends⟩ := List.pairwise_cons.mp ascends
      unfold enqueue
      split
      · rename_i isBefore
        refine List.pairwise_cons.mpr ⟨?_, ascends⟩
        intro other member
        rcases List.mem_cons.mp member with rfl | inRest
        · exact isBefore.le
        · exact isBefore.le.trans (isFirst other inRest)
      · rename_i notBefore
        refine List.pairwise_cons.mpr ⟨?_, inductionHypothesis restAscends⟩
        intro other member
        rcases List.mem_cons.mp ((enqueue_perm entrant rest).mem_iff.mp member) with
          rfl | inRest
        · exact not_lt.mp notBefore
        · exact isFirst other inRest

/-- Tasks that join a queue one after the other are all added to it, in the order of the keys. -/
theorem foldl_enqueue
    (joining : List (Entrant α))
    {queue : List (Entrant α)}
    (ascends : queue.Pairwise (·.key ≤ ·.key)) :
    (joining.foldl (fun queue entrant => enqueue entrant queue) queue).Perm (joining ++ queue) ∧
      (joining.foldl (fun queue entrant => enqueue entrant queue) queue).Pairwise
        (·.key ≤ ·.key) := by
  induction joining generalizing queue with
  | nil =>
      exact ⟨List.Perm.refl _, ascends⟩
  | cons entrant rest inductionHypothesis =>
      obtain ⟨samePlaces, stillAscends⟩ := inductionHypothesis (ascends_enqueue entrant ascends)
      refine ⟨samePlaces.trans ?_, stillAscends⟩
      exact ((enqueue_perm entrant queue).append_left rest).trans List.perm_middle

/-!
## What a task still waits for
-/

/-- The names of what a task waits for and what is not taken, each once. -/
def missing (taken : List (Task α)) (task : Task α) : List String :=
  task.dependencies.eraseDups.filter fun name => !(taken.map (·.identifier)).contains name

theorem mem_missing_iff
    {taken : List (Task α)}
    {task : Task α}
    {name : String} :
    name ∈ missing taken task ↔
      name ∈ task.dependencies ∧ name ∉ taken.map (·.identifier) := by
  simp [missing, List.mem_filter]

/-- Nothing is missing where everything that a task waits for is taken. -/
theorem missing_eq_nil_iff
    {taken : List (Task α)}
    {task : Task α} :
    missing taken task = [] ↔
      ∀ name ∈ task.dependencies, name ∈ taken.map (·.identifier) := by
  rw [List.eq_nil_iff_forall_not_mem]
  refine forall_congr' fun name => ?_
  rw [mem_missing_iff]
  tauto

/-- A task that is taken is not missing any more. -/
theorem missing_cons
    (first : Task α)
    (taken : List (Task α))
    (task : Task α) :
    missing (first :: taken) task = (missing taken task).filter (· != first.identifier) := by
  unfold missing
  rw [List.filter_filter]
  apply List.filter_congr
  intro name _
  rw [Bool.eq_iff_iff]
  simp

/-- One name less is missing for those that wait for a task when it is taken. -/
theorem length_missing_cons
    {first : Task α}
    {taken : List (Task α)}
    (isNew : first.identifier ∉ taken.map (·.identifier))
    (task : Task α) :
    (missing taken task).length =
      (missing (first :: taken) task).length +
        if first.identifier ∈ task.dependencies then 1 else 0 := by
  rw [missing_cons]
  split
  · rename_i isAwaited
    have distinct : (missing taken task).Nodup :=
      (nodup_eraseDups task.dependencies).filter _
    have isMissing : first.identifier ∈ missing taken task :=
      mem_missing_iff.mpr ⟨isAwaited, isNew⟩
    rw [← distinct.erase_eq_filter, List.length_erase_of_mem isMissing]
    have := List.length_pos_of_mem isMissing
    omega
  · rename_i notAwaited
    rw [List.filter_eq_self.mpr, Nat.add_zero]
    intro name isMissing
    rw [bne_iff_ne]
    rintro rfl
    exact notAwaited (mem_missing_iff.mp isMissing).1

/-!
## Tasks that are taken in turn
-/

variable {entrants : List (Entrant α)} {taken : List (Task α)}

/-- A task is ready after some have been taken. -/
structure IsReady (entrants : List (Entrant α)) (taken : List (Task α)) (entrant : Entrant α) :
    Prop where
  mem : entrant ∈ entrants
  isNew : entrant.identifier ∉ taken.map (·.identifier)
  missing_eq_nil : missing taken entrant.task = []

/-- A task is the first one of those that are ready after some have been taken. -/
structure IsNext (entrants : List (Entrant α)) (taken : List (Task α)) (entrant : Entrant α) :
    Prop extends IsReady entrants taken entrant where
  isFirst : ∀ other, IsReady entrants taken other → entrant.key ≤ other.key

/-- What is ready does not wait for anything that is not taken. -/
theorem IsReady.not_mem_dependencies
    {entrant : Entrant α}
    (isReady : IsReady entrants taken entrant)
    {name : String}
    (isNew : name ∉ taken.map (·.identifier)) :
    name ∉ entrant.task.dependencies :=
  fun isAwaited => isNew (missing_eq_nil_iff.mp isReady.missing_eq_nil name isAwaited)

/-- Tasks, the latest first, of which each was the first one that was ready. -/
inductive TakenInTurn (entrants : List (Entrant α)) : List (Task α) → Prop where
  | nil :
      TakenInTurn entrants []
  | cons
      {taken : List (Task α)}
      {entrant : Entrant α} :
      TakenInTurn entrants taken →
      IsNext entrants taken entrant →
      TakenInTurn entrants (entrant.task :: taken)

namespace TakenInTurn

/-- No two tasks of an identifier are taken. -/
theorem nodup
    (inTurn : TakenInTurn entrants taken) :
    (taken.map (·.identifier)).Nodup := by
  induction inTurn with
  | nil => exact List.nodup_nil
  | cons _ isNext inductionHypothesis =>
      exact List.nodup_cons.mpr ⟨isNext.isNew, inductionHypothesis⟩

/-- Each task was the first one that was ready after those before it. -/
theorem isNext
    (inTurn : TakenInTurn entrants taken)
    {later earlier : List (Task α)}
    {task : Task α}
    (shape : taken = later ++ task :: earlier) :
    ∃ entrant, entrant.task = task ∧ IsNext entrants earlier entrant := by
  induction inTurn generalizing later with
  | nil => simp at shape
  | @cons taken entrant _ isNext inductionHypothesis =>
      cases later with
      | nil =>
          obtain ⟨isTask, rfl⟩ := List.cons.inj shape
          exact ⟨entrant, isTask, isNext⟩
      | cons latest later =>
          exact inductionHypothesis (List.cons.inj shape).2

/-- What has been taken is there to be taken. -/
theorem exists_entrant
    (inTurn : TakenInTurn entrants taken)
    {task : Task α}
    (isTaken : task ∈ taken) :
    ∃ entrant ∈ entrants, entrant.task = task := by
  obtain ⟨later, earlier, shape⟩ := List.append_of_mem isTaken
  obtain ⟨entrant, isTask, isNext⟩ := inTurn.isNext shape
  exact ⟨entrant, isNext.mem, isTask⟩

/-- Everything that a task that has been taken waits for has been taken. -/
theorem mem_of_mem_dependencies
    (inTurn : TakenInTurn entrants taken)
    {task : Task α}
    (isTaken : task ∈ taken)
    {name : String}
    (isAwaited : name ∈ task.dependencies) :
    name ∈ taken.map (·.identifier) := by
  obtain ⟨later, earlier, shape⟩ := List.append_of_mem isTaken
  obtain ⟨entrant, rfl, isNext⟩ := inTurn.isNext shape
  rw [shape, List.map_append, List.map_cons]
  exact List.mem_append_right _ (List.mem_cons_of_mem _
    (missing_eq_nil_iff.mp isNext.missing_eq_nil name isAwaited))

/-- What is ready after one more task either was ready before it or has waited for it. -/
theorem isReady_cons_iff
    (distinct : (entrants.map (·.identifier)).Nodup)
    (inTurn : TakenInTurn entrants taken)
    {first : Entrant α}
    (isNext : IsNext entrants taken first)
    {entrant : Entrant α} :
    IsReady entrants (first.task :: taken) entrant ↔
      (entrant ∈ entrants ∧ first.identifier ∈ entrant.task.dependencies ∧
          missing (first.task :: taken) entrant.task = []) ∨
        (IsReady entrants taken entrant ∧ entrant ≠ first) := by
  have same_of_identifier {other : Entrant α} (member : entrant ∈ entrants)
      (isThere : other ∈ entrants) (same : entrant.identifier = other.identifier) :
      entrant = other :=
    List.inj_on_of_nodup_map distinct member isThere same
  constructor
  · rintro ⟨member, isNew, isReady⟩
    by_cases isAwaited : first.identifier ∈ entrant.task.dependencies
    · exact Or.inl ⟨member, isAwaited, isReady⟩
    · refine Or.inr ⟨⟨member, fun wasTaken => isNew (List.mem_cons_of_mem _ wasTaken), ?_⟩, ?_⟩
      · have sameLength := length_missing_cons isNext.isNew entrant.task
        rw [isReady, show (if first.task.identifier ∈ entrant.task.dependencies then 1 else 0) = 0
          from if_neg isAwaited] at sameLength
        exact List.length_eq_zero_iff.mp sameLength
      · rintro rfl
        exact isNew List.mem_cons_self
  · rintro (⟨member, isAwaited, isReady⟩ | ⟨wasReady, isOther⟩)
    · refine ⟨member, fun isTaken => ?_, isReady⟩
      -- It is not among those that have been taken, as these do not wait for the first one.
      rcases List.mem_cons.mp isTaken with isFirst | wasTaken
      · obtain rfl := same_of_identifier member isNext.mem isFirst
        exact isNext.not_mem_dependencies isNext.isNew isAwaited
      · obtain ⟨task, inTaken, sameName⟩ := List.mem_map.mp wasTaken
        obtain ⟨other, isOther, rfl⟩ := inTurn.exists_entrant inTaken
        obtain rfl := same_of_identifier member isOther sameName.symm
        exact isNext.isNew (inTurn.mem_of_mem_dependencies inTaken isAwaited)
    · refine ⟨wasReady.mem, fun isTaken => ?_, ?_⟩
      · rcases List.mem_cons.mp isTaken with isFirst | wasTaken
        · exact isOther (same_of_identifier wasReady.mem isNext.mem isFirst)
        · exact wasReady.isNew wasTaken
      · rw [missing_cons, wasReady.missing_eq_nil, List.filter_nil]

end TakenInTurn

/-!
## What a turn preserves
-/

namespace Line

/-- The counts and the queue tell what is missing, and the tasks have been taken in turn. -/
structure IsKept (entrants : List (Entrant α)) (line : Line α) : Prop where
  inTurn : TakenInTurn entrants line.taken
  counts_eq :
    ∀ entrant ∈ entrants,
      line.counts.get? entrant.identifier =
        some ((missing line.taken entrant.task).length : Int)
  mem_queue_iff : ∀ entrant, entrant ∈ line.queue ↔ IsReady entrants line.taken entrant
  nodup : line.queue.Nodup
  ascends : line.queue.Pairwise (·.key ≤ ·.key)

section CountingDown

variable {waiters : List (Entrant α)} (line : Line α)

@[simp] theorem taken_foldl_countDown :
    (waiters.foldl countDown line).taken = line.taken := by
  induction waiters generalizing line with
  | nil => rfl
  | cons waiter rest inductionHypothesis => exact inductionHypothesis (line.countDown waiter)

/-- The counts of those that are counted down for are one less, and the others are as they were. -/
theorem counts_foldl_countDown
    (distinct : (waiters.map (·.identifier)).Nodup)
    (name : String) :
    (waiters.foldl countDown line).counts.get? name =
      if name ∈ waiters.map (·.identifier) then some ((line.counts.get? name).getD 0 - 1)
      else line.counts.get? name := by
  induction waiters generalizing line with
  | nil => simp
  | cons waiter rest inductionHypothesis =>
      obtain ⟨isNew, restDistinct⟩ := List.nodup_cons.mp distinct
      rw [List.foldl_cons, inductionHypothesis _ restDistinct]
      simp only [countDown, Table.get?_insert, List.map_cons, List.mem_cons]
      by_cases isWaiter : name = waiter.identifier
      · subst isWaiter
        simp [isNew]
      · simp [isWaiter]

/-- Those whose count comes down to zero join the queue. -/
theorem queue_foldl_countDown_perm
    (distinct : (waiters.map (·.identifier)).Nodup) :
    (waiters.foldl countDown line).queue.Perm
      (waiters.filter (fun waiter => (line.counts.get? waiter.identifier).getD 0 = 1) ++
        line.queue) := by
  induction waiters generalizing line with
  | nil => exact List.Perm.refl _
  | cons waiter rest inductionHypothesis =>
      obtain ⟨isNew, restDistinct⟩ := List.nodup_cons.mp distinct
      rw [List.foldl_cons]
      refine (inductionHypothesis _ restDistinct).trans ?_
      -- Counting down for one task leaves the counts of the others.
      have sameRest :
          rest.filter (fun other =>
              ((line.countDown waiter).counts.get? other.identifier).getD 0 = 1) =
            rest.filter fun other => (line.counts.get? other.identifier).getD 0 = 1 := by
        apply List.filter_congr
        intro other inRest
        have isOther : other.identifier ≠ waiter.identifier := by
          intro same
          exact isNew (List.mem_map.mpr ⟨other, inRest, same⟩)
        simp [countDown, isOther]
      rw [sameRest, List.filter_cons]
      have isZero :
          (line.counts.get? waiter.identifier).getD 0 - 1 = 0 ↔
            (line.counts.get? waiter.identifier).getD 0 = 1 := by
        omega
      simp only [countDown, isZero, decide_eq_true_eq]
      split
      · exact ((enqueue_perm waiter line.queue).append_left _).trans List.perm_middle
      · exact List.Perm.refl _

theorem ascends_foldl_countDown
    (ascends : line.queue.Pairwise (·.key ≤ ·.key)) :
    (waiters.foldl countDown line).queue.Pairwise (·.key ≤ ·.key) := by
  induction waiters generalizing line with
  | nil => exact ascends
  | cons waiter rest inductionHypothesis =>
      apply inductionHypothesis
      unfold countDown
      dsimp only
      split
      · exact ascends_enqueue waiter ascends
      · exact ascends

end CountingDown

variable {line next : Line α}

/-- The first task of the queue is the first one of those that are ready. -/
theorem IsKept.isNext
    (kept : line.IsKept entrants)
    {first : Entrant α}
    {rest : List (Entrant α)}
    (isQueue : line.queue = first :: rest) :
    IsNext entrants line.taken first where
  toIsReady := (kept.mem_queue_iff first).mp (isQueue ▸ List.mem_cons_self)
  isFirst other isReady := by
    have inQueue := (kept.mem_queue_iff other).mpr isReady
    have ascends := kept.ascends
    rw [isQueue] at inQueue ascends
    rcases List.mem_cons.mp inQueue with rfl | inRest
    · exact le_rfl
    · exact (List.pairwise_cons.mp ascends).1 other inRest

/-- A turn takes the first task that is ready and keeps the counts and the queue. -/
theorem IsKept.turn
    (distinct : (entrants.map (·.identifier)).Nodup)
    (kept : line.IsKept entrants)
    (turned : line.turn? entrants = some next) :
    next.IsKept entrants ∧ next.taken.length = line.taken.length + 1 := by
  unfold turn? at turned
  split at turned
  · cases turned
  · rename_i first rest isQueue
    obtain rfl := Option.some.inj turned
    have isNext := kept.isNext isQueue
    set waiters := entrants.filter (·.waitsFor first.identifier)
    set popped : Line α := { line with queue := rest, taken := first.task :: line.taken }
    have mem_waiters_iff (entrant : Entrant α) :
        entrant ∈ waiters ↔
          entrant ∈ entrants ∧ first.identifier ∈ entrant.task.dependencies := by
      simp [waiters, Entrant.waitsFor]
    have waitersDistinct : (waiters.map (·.identifier)).Nodup :=
      distinct.sublist (List.filter_sublist.map _)
    have isWaiterName (entrant : Entrant α) (member : entrant ∈ entrants) :
        entrant.identifier ∈ waiters.map (·.identifier) ↔
          first.identifier ∈ entrant.task.dependencies := by
      refine ⟨fun isName => ?_, fun isAwaited =>
        List.mem_map_of_mem ((mem_waiters_iff entrant).mpr ⟨member, isAwaited⟩)⟩
      obtain ⟨waiter, inWaiters, sameName⟩ := List.mem_map.mp isName
      obtain ⟨isThere, isAwaited⟩ := (mem_waiters_iff waiter).mp inWaiters
      exact List.inj_on_of_nodup_map distinct isThere member sameName ▸ isAwaited
    have count_eq (entrant : Entrant α) (member : entrant ∈ entrants) :
        popped.counts.get? entrant.identifier =
          some (((missing (first.task :: line.taken) entrant.task).length : Int) +
            if first.identifier ∈ entrant.task.dependencies then 1 else 0) := by
      have sameLength := length_missing_cons isNext.isNew entrant.task
      rw [kept.counts_eq entrant member, sameLength]
      by_cases isAwaited : first.task.identifier ∈ entrant.task.dependencies <;>
        simp [Entrant.identifier, isAwaited]
    -- Those that become ready have waited for the first task, so they were not ready before.
    have becomesReady (entrant : Entrant α) :
        entrant ∈ waiters.filter
            (fun waiter => (popped.counts.get? waiter.identifier).getD 0 = 1) ↔
          entrant ∈ entrants ∧ first.identifier ∈ entrant.task.dependencies ∧
            missing (first.task :: line.taken) entrant.task = [] := by
      rw [List.mem_filter, mem_waiters_iff, decide_eq_true_eq, and_assoc]
      refine and_congr_right fun member => and_congr_right fun isAwaited => ?_
      rw [count_eq entrant member, if_pos isAwaited, Option.getD_some, ← List.length_eq_zero_iff]
      omega
    have queuePerm := queue_foldl_countDown_perm popped waitersDistinct
    obtain ⟨firstOnce, restNodup⟩ := List.nodup_cons.mp (isQueue ▸ kept.nodup)
    have mem_rest_iff (entrant : Entrant α) :
        entrant ∈ rest ↔ IsReady entrants line.taken entrant ∧ entrant ≠ first := by
      rw [← kept.mem_queue_iff, isQueue, List.mem_cons]
      constructor
      · intro inRest
        exact ⟨Or.inr inRest, fun same => firstOnce (same ▸ inRest)⟩
      · rintro ⟨inQueue, isOther⟩
        exact inQueue.resolve_left isOther
    refine ⟨⟨?_, ?_, ?_, ?_, ?_⟩, by simp [popped]⟩
    · rw [taken_foldl_countDown]
      exact kept.inTurn.cons isNext
    · intro entrant member
      rw [counts_foldl_countDown popped waitersDistinct, count_eq entrant member,
        taken_foldl_countDown]
      simp only [isWaiterName entrant member]
      split <;> simp [popped]
    · intro entrant
      rw [queuePerm.mem_iff, List.mem_append, becomesReady, taken_foldl_countDown,
        kept.inTurn.isReady_cons_iff distinct isNext]
      exact or_congr_right (mem_rest_iff entrant)
    · rw [queuePerm.nodup_iff]
      have entrantsNodup : entrants.Nodup := distinct.of_map
      refine List.nodup_append.mpr ⟨(entrantsNodup.filter _).filter _, restNodup, ?_⟩
      rintro entrant isLate other inRest rfl
      exact ((mem_rest_iff entrant).mp inRest).1.not_mem_dependencies isNext.isNew
        ((becomesReady entrant).mp isLate).2.1
    · exact ascends_foldl_countDown popped (List.pairwise_cons.mp (isQueue ▸ kept.ascends)).2

/-- Before a task is taken, the counts and the queue are right. -/
theorem isKept_start
    (distinct : (entrants.map (·.identifier)).Nodup) :
    (start entrants).IsKept entrants := by
  have missing_nil (task : Task α) : missing [] task = task.dependencies.eraseDups := by
    simp [missing]
  obtain ⟨queuePerm, ascends⟩ :=
    foldl_enqueue (entrants.filter fun entrant => demandOf entrant.task = 0) .nil
  rw [List.append_nil] at queuePerm
  refine ⟨.nil, ?_, ?_, ?_, ascends⟩
  · intro entrant member
    have areNames :
        (entrants.map fun entrant => (entrant.identifier, demandOf entrant.task)).map (·.1) =
          entrants.map (·.identifier) := by
      rw [List.map_map]
      rfl
    rw [start, missing_nil]
    exact Table.get?_ofList_of_mem (areNames ▸ distinct)
      (List.mem_map.mpr ⟨entrant, member, rfl⟩)
  · intro entrant
    rw [start, queuePerm.mem_iff, List.mem_filter]
    constructor
    · rintro ⟨member, isFree⟩
      exact ⟨member, List.not_mem_nil, by simpa [missing_nil, demandOf] using isFree⟩
    · rintro ⟨member, -, isFree⟩
      exact ⟨member, by simpa [missing_nil, demandOf] using isFree⟩
  · rw [start, queuePerm.nodup_iff]
    exact (List.Nodup.of_map _ distinct).filter _

/-- Turns from one line to another. -/
abbrev Turns (entrants : List (Entrant α)) : Line α → Line α → Prop :=
  Relation.ReflTransGen fun before after => before.turn? entrants = some after

/-- Turns keep the counts and the queue, and end where they are bounded or the queue is empty. -/
theorem IsKept.run
    (distinct : (entrants.map (·.identifier)).Nodup)
    (kept : line.IsKept entrants)
    (count : Nat) :
    line.Turns entrants (line.run entrants count) ∧
      (line.run entrants count).IsKept entrants ∧
        ((line.run entrants count).queue = [] ∨
          (line.run entrants count).taken.length = line.taken.length + count) := by
  induction count generalizing line with
  | zero => exact ⟨.refl, kept, Or.inr rfl⟩
  | succ count inductionHypothesis =>
      unfold Line.run
      cases turned : line.turn? entrants with
      | none =>
          refine ⟨.refl, kept, Or.inl ?_⟩
          unfold turn? at turned
          split at turned
          · assumption
          · cases turned
      | some next =>
          obtain ⟨nextKept, isLonger⟩ := kept.turn distinct turned
          obtain ⟨turns, lastKept, isOver⟩ := inductionHypothesis nextKept
          refine ⟨.head turned turns, lastKept, isOver.imp id fun isLength => ?_⟩
          rw [isLength, isLonger]
          omega

/-- As many turns as there are tasks empty the queue. -/
theorem queue_run_start_eq_nil
    (distinct : (entrants.map (·.identifier)).Nodup) :
    ((start entrants).run entrants entrants.length).queue = [] := by
  obtain ⟨-, kept, isEmpty | isLength⟩ := (isKept_start distinct).run distinct entrants.length
  · exact isEmpty
  · -- All tasks have been taken, so none of them is left to be ready.
    set last := (start entrants).run entrants entrants.length
    have areAmong : last.taken.map (·.identifier) ⊆ entrants.map (·.identifier) := by
      intro name isTaken
      obtain ⟨task, inTaken, rfl⟩ := List.mem_map.mp isTaken
      obtain ⟨entrant, member, rfl⟩ := kept.inTurn.exists_entrant inTaken
      exact List.mem_map_of_mem member
    have areAll : (last.taken.map (·.identifier)).Perm (entrants.map (·.identifier)) := by
      refine (List.subperm_of_subset kept.inTurn.nodup areAmong).perm_of_length_le ?_
      simp [isLength, start]
    rw [List.eq_nil_iff_forall_not_mem]
    intro entrant inQueue
    have isReady := (kept.mem_queue_iff entrant).mp inQueue
    exact isReady.isNew (areAll.mem_iff.mpr (List.mem_map_of_mem isReady.mem))

end Line

end TaskOrder

namespace SchedulingProblem

variable {α : Type}

/-- What is checked of a scheduling problem before it is solved. -/
structure Valid [Scalar α] (problem : SchedulingProblem α) : Prop where
  tasks_ne_nil : problem.tasks ≠ []
  references : problem.fault? = none
  quantity_pos :
    ∀ task ∈ problem.tasks, ∀ requirement ∈ task.requirements, 0 < requirement.quantity
  capacity_nonneg :
    ∀ resource ∈ problem.resources,
      0 ≤ resource.capacity ∧ ∀ window ∈ resource.availability, 0 ≤ window.capacity

/-- A problem without faults has no two tasks of an identifier. -/
theorem nodup_tasks_of_fault?_eq_none
    {problem : SchedulingProblem α}
    (valid : problem.fault? = none) :
    (problem.tasks.map (·.identifier)).Nodup := by
  unfold fault? at valid
  dsimp only at valid
  split at valid
  · simp at valid
  · rename_i sameLength
    exact nodup_of_length_eraseDups_eq (by simpa using sameLength)

/-- A problem without faults has no two resources of an identifier. -/
theorem nodup_resources_of_fault?_eq_none
    {problem : SchedulingProblem α}
    (valid : problem.fault? = none) :
    (problem.resources.map (·.identifier)).Nodup := by
  unfold fault? at valid
  dsimp only at valid
  split at valid
  · simp at valid
  · split at valid
    · simp at valid
    · rename_i sameLength
      exact nodup_of_length_eraseDups_eq (by simpa using sameLength)

/-- A resource of a problem without faults is found by its identifier. -/
theorem resource?_eq_some_of_mem
    {problem : SchedulingProblem α}
    (valid : problem.fault? = none)
    {resource : Resource α}
    (member : resource ∈ problem.resources) :
    problem.resource? resource.identifier = some resource := by
  unfold resource?
  cases found : problem.resources.find? (·.identifier == resource.identifier) with
  | none =>
      have noneThere := List.find?_eq_none.mp found resource member
      simp at noneThere
  | some other =>
      have sameIdentifier : other.identifier = resource.identifier := by
        simpa using List.find?_some found
      have same :=
        List.inj_on_of_nodup_map (nodup_resources_of_fault?_eq_none valid)
          (List.mem_of_find?_eq_some found) member sameIdentifier
      rw [same]

/-- What the search relies on in an order of tasks. -/
structure OrderedTasks (problem : SchedulingProblem α) (order : List (Task α)) : Prop where
  mem_tasks : ∀ task ∈ order, task ∈ problem.tasks
  nodup : (order.map (·.identifier)).Nodup
  dependencies_mem :
    ∀ {position task}, order[position]? = some task →
      ∀ dependency ∈ task.dependencies,
        dependency ∈ (order.take position).map (·.identifier)

/-- The first tasks of an order are all different. -/
theorem OrderedTasks.nodup_take
    {problem : SchedulingProblem α}
    {order : List (Task α)}
    (ordered : problem.OrderedTasks order)
    (count : Nat) :
    ((order.take count).map (·.identifier)).Nodup :=
  ordered.nodup.sublist ((List.take_sublist count order).map _)

/-- The turns come to an end, and the order is what has been taken then. -/
theorem exists_last_turn
    (problem : SchedulingProblem α) :
    ∃ last : TaskOrder.Line α,
      TaskOrder.Line.Turns problem.entrants (.start problem.entrants) last ∧
        last.IsKept problem.entrants ∧ last.queue = [] ∧
          problem.order.1 = last.taken.reverse := by
  have distinct : (problem.entrants.map (·.identifier)).Nodup := TaskOrder.nodup_entrants _ _
  obtain ⟨turns, kept, -⟩ :=
    (TaskOrder.Line.isKept_start distinct).run distinct problem.entrants.length
  exact ⟨_, turns, kept, TaskOrder.Line.queue_run_start_eq_nil distinct, rfl⟩

/-- The tasks of an order stand in the list of tasks. -/
theorem mem_tasks_of_mem_order
    {problem : SchedulingProblem α}
    {task : Task α}
    (member : task ∈ problem.order.1) :
    task ∈ problem.tasks := by
  obtain ⟨last, -, kept, -, isOrder⟩ := problem.exists_last_turn
  rw [isOrder, List.mem_reverse] at member
  obtain ⟨entrant, isThere, rfl⟩ := kept.inTurn.exists_entrant member
  obtain ⟨position, isAt, -⟩ := TaskOrder.exists_position_of_mem_entrants isThere
  exact List.mem_of_getElem? isAt

/-- The order of the tasks of a problem is one that a search may rely on. -/
theorem orderedTasks_order
    (problem : SchedulingProblem α) :
    problem.OrderedTasks problem.order.1 := by
  obtain ⟨last, -, kept, -, isOrder⟩ := problem.exists_last_turn
  refine ⟨fun _ => mem_tasks_of_mem_order, ?_, ?_⟩
  · rw [isOrder, List.map_reverse, List.nodup_reverse]
    exact kept.inTurn.nodup
  · intro position task isThere dependency isAwaited
    obtain ⟨inBounds, rfl⟩ := List.getElem?_eq_some_iff.mp isThere
    have shape :
        last.taken =
          (problem.order.1.drop (position + 1)).reverse ++
            problem.order.1[position] :: (problem.order.1.take position).reverse := by
      rw [← List.reverse_reverse last.taken, ← isOrder]
      conv_lhs =>
        rw [← List.take_append_drop position problem.order.1, List.drop_eq_getElem_cons inBounds]
      simp
    obtain ⟨entrant, isTask, isNext⟩ := kept.inTurn.isNext shape
    rw [← isTask] at isAwaited
    simpa using TaskOrder.missing_eq_nil_iff.mp isNext.missing_eq_nil dependency isAwaited

/-- The order of a problem without faults loses none of its tasks. -/
theorem order_perm
    {problem : SchedulingProblem α}
    (valid : problem.fault? = none) :
    (problem.order.1 ++ problem.order.2).Perm problem.tasks := by
  have distinct := nodup_tasks_of_fault?_eq_none valid
  have ordered := problem.orderedTasks_order
  have areOrdered :
      (problem.tasks.filter fun task =>
        (problem.order.1.map (·.identifier)).contains task.identifier).Perm problem.order.1 := by
    refine (List.perm_ext_iff_of_nodup ((List.Nodup.of_map _ distinct).filter _)
      (List.Nodup.of_map _ ordered.nodup)).mpr fun task => ?_
    rw [List.mem_filter, List.contains_iff_mem]
    constructor
    · rintro ⟨member, isPlaced⟩
      obtain ⟨other, inOrder, same⟩ := List.mem_map.mp isPlaced
      exact List.inj_on_of_nodup_map distinct (ordered.mem_tasks other inOrder) member same ▸
        inOrder
    · intro inOrder
      exact ⟨ordered.mem_tasks task inOrder, List.mem_map_of_mem inOrder⟩
  exact (areOrdered.symm.append_right _).trans (List.filter_append_perm _ _)

/-- Where no task waits for a cycle, every task is in the order. -/
theorem mem_order_of_noneLeft
    {problem : SchedulingProblem α}
    (noneLeft : problem.order.2 = [])
    {task : Task α}
    (member : task ∈ problem.tasks) :
    task.identifier ∈ problem.order.1.map (·.identifier) := by
  have isKept := List.filter_eq_nil_iff.mp noneLeft task member
  rwa [Bool.not_eq_true', Bool.not_eq_false, List.contains_iff_mem] at isKept

/-- Where there are tasks and none of them waits for a cycle, the order is not empty. -/
theorem order_ne_nil
    {problem : SchedulingProblem α}
    (nonempty : problem.tasks ≠ [])
    (noneLeft : problem.order.2 = []) :
    problem.order.1 ≠ [] := by
  obtain ⟨task, member⟩ := List.exists_mem_of_ne_nil _ nonempty
  intro isEmpty
  simpa [isEmpty] using mem_order_of_noneLeft noneLeft member

end SchedulingProblem

end Optima
