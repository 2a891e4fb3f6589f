import Optima.Proofs.Scheduling.Completeness
import Optima.Proofs.Scheduling.Cycles
import Optima.Proofs.Scheduling.Verdict

namespace Optima

/-!
# What becomes of every task in a greedy pass

A pass comes to each task in turn.  The task is placed at its first option, or it is reported: as
blocked where one of those that it waits for has not been placed, and else because it has no option.
All that a task waits for has had its turn before, so it is known by then what became of it, and
nothing that follows changes this.  So the whole outcome can be told task by task.
-/

namespace Scheduling

variable {α : Type}

theorem append_append_append_perm
    {β : Type}
    (first second third fourth : List β) :
    ((first ++ second) ++ (third ++ fourth)).Perm ((first ++ third) ++ (second ++ fourth)) := by
  rw [List.append_assoc, List.append_assoc]
  exact (List.perm_append_comm_assoc second third fourth).append_left first

/-- The task that is not placed. -/
def Unplaced.task : Unplaced → String
  | .blocked task _ => task
  | .withoutOption task => task

/-- The schedule that placements make one after the other. -/
def builtFrom (problem : SchedulingProblem α) (placements : List (Placement α)) : Schedule α :=
  placements.foldl Schedule.place (.start problem)

/-- The schedule that those of some placements make that are of given tasks. -/
def builtOf (problem : SchedulingProblem α) (tasks : List (Task α))
    (placements : List (Placement α)) : Schedule α :=
  builtFrom problem
    (placements.filter fun placement => (tasks.map (·.identifier)).contains placement.task)

section Built

theorem builtFrom_concat
    (problem : SchedulingProblem α)
    (placements : List (Placement α))
    (placement : Placement α) :
    builtFrom problem (placements ++ [placement]) =
      (builtFrom problem placements).place placement := by
  rw [builtFrom, List.foldl_append]
  rfl

theorem placements_builtFrom
    (problem : SchedulingProblem α)
    (placements : List (Placement α)) :
    (builtFrom problem placements).placements = placements := by
  induction placements using List.reverseRecOn with
  | nil => rfl
  | append_singleton placements placement inductionHypothesis =>
      rw [builtFrom_concat, Schedule.place, inductionHypothesis]

/-- The ends that are known are those of the tasks that have been placed. -/
theorem contains_finished_builtFrom
    (problem : SchedulingProblem α)
    (placements : List (Placement α))
    (name : String) :
    (builtFrom problem placements).finished.contains name =
      (placements.map (·.task)).contains name := by
  induction placements using List.reverseRecOn with
  | nil => rfl
  | append_singleton placements placement inductionHypothesis =>
      rw [Bool.eq_iff_iff, Table.contains_iff_mem_names, List.contains_iff_mem] at *
      rw [builtFrom_concat, Schedule.place, Table.mem_names_iff, Table.get?_insert, List.map_append,
        List.mem_append, ← inductionHypothesis, Table.mem_names_iff]
      by_cases isSame : name = placement.task
      · simp [isSame]
      · simp [isSame]

theorem missingPrerequisites_builtFrom
    (problem : SchedulingProblem α)
    (placements : List (Placement α))
    (task : Task α) :
    missingPrerequisites (builtFrom problem placements) task =
      task.dependencies.filter fun name => !(placements.map (·.task)).contains name := by
  simp only [missingPrerequisites, contains_finished_builtFrom]

/-- All that a task waits for stands before it in an order. -/
theorem mem_earlier_of_ordered
    {problem : SchedulingProblem α}
    {order earlier later : List (Task α)}
    {task : Task α}
    (ordered : problem.OrderedTasks order)
    (shape : order = earlier ++ task :: later) :
    ∀ name ∈ task.dependencies, name ∈ earlier.map (·.identifier) := by
  have isThere : order[earlier.length]? = some task := by
    simp [shape]
  simpa [shape] using ordered.dependencies_mem isThere

end Built

variable [Scalar α] {problem : SchedulingProblem α} {maxCandidates : Nat}

/-- How a task fares when a pass comes to it after some placements: what is placed, and what is
reported. -/
inductive Fares (problem : SchedulingProblem α) (maxCandidates : Nat)
    (placements : List (Placement α)) (task : Task α) :
    List (Placement α) → List Unplaced → Prop where
  | placed {placement : Placement α} {others : List (Placement α)}
      (noneMissing : missingPrerequisites (builtFrom problem placements) task = [])
      (found : (builtFrom problem placements).options problem maxCandidates task =
        .ok (placement :: others)) :
      Fares problem maxCandidates placements task [placement] []
  | withoutOption
      (noneMissing : missingPrerequisites (builtFrom problem placements) task = [])
      (noneFound : (builtFrom problem placements).options problem maxCandidates task = .ok []) :
      Fares problem maxCandidates placements task [] [.withoutOption task.identifier]
  | blocked
      (someMissing : missingPrerequisites (builtFrom problem placements) task ≠ []) :
      Fares problem maxCandidates placements task []
        [.blocked task.identifier (missingPrerequisites (builtFrom problem placements) task)]

/-- A pass has gone through tasks, one after the other. -/
inductive Passed (problem : SchedulingProblem α) (maxCandidates : Nat) :
    List (Task α) → List (Placement α) → List Unplaced → Prop where
  | start : Passed problem maxCandidates [] [] []
  | next {tasks : List (Task α)} {placements more : List (Placement α)}
      {unplaced left : List Unplaced} {task : Task α}
      (passed : Passed problem maxCandidates tasks placements unplaced)
      (fares : Fares problem maxCandidates placements task more left) :
      Passed problem maxCandidates (tasks ++ [task]) (placements ++ more) (unplaced ++ left)

/-- A task fares in some way, and the pass goes on from there. -/
theorem exists_fares
    (problem : SchedulingProblem α)
    (maxCandidates : Nat)
    (placements : List (Placement α))
    (task : Task α) :
    ∃ more left,
      Fares problem maxCandidates placements task more left ∧
        ∀ rest,
          greedy problem maxCandidates (builtFrom problem placements) (task :: rest) =
            (greedy problem maxCandidates (builtFrom problem (placements ++ more)) rest).map
              fun (schedule, others) => (schedule, left ++ others) := by
  by_cases noneMissing : missingPrerequisites (builtFrom problem placements) task = []
  · have allFinished :
        ∀ name ∈ task.dependencies, name ∈ (builtFrom problem placements).finished.names := by
      intro name isAwaited
      rw [missingPrerequisites, List.filter_eq_nil_iff] at noneMissing
      simpa [Table.contains_iff_mem_names] using noneMissing name isAwaited
    obtain ⟨ready, isReady⟩ := problem.exists_readyTime_eq_ok allFinished
    obtain ⟨options, found⟩ :
        ∃ options,
          (builtFrom problem placements).options problem maxCandidates task = .ok options :=
      ⟨_, by rw [Schedule.options, SchedulingProblem.options, isReady]; rfl⟩
    cases options with
    | nil =>
        refine ⟨[], _, .withoutOption noneMissing found, fun rest => ?_⟩
        rw [greedy, List.append_nil]
        simp only [noneMissing, found]
        cases greedy problem maxCandidates (builtFrom problem placements) rest <;> rfl
    | cons placement others =>
        refine ⟨[placement], [], .placed noneMissing found, fun rest => ?_⟩
        rw [greedy, builtFrom_concat]
        simp only [noneMissing, found]
        change
          greedy problem maxCandidates ((builtFrom problem placements).place placement) rest = _
        cases greedy problem maxCandidates ((builtFrom problem placements).place placement) rest <;>
          rfl
  · refine ⟨[], _, .blocked noneMissing, fun rest => ?_⟩
    have someMissing :
        (!(missingPrerequisites (builtFrom problem placements) task).isEmpty) = true := by
      simpa using noneMissing
    rw [greedy, List.append_nil]
    simp only [someMissing, if_true]
    cases greedy problem maxCandidates (builtFrom problem placements) rest <;> rfl

/-- A pass does not lapse, and goes through all of its tasks. -/
theorem exists_passed
    {tasks : List (Task α)}
    {placements : List (Placement α)}
    {unplaced : List Unplaced}
    (passed : Passed problem maxCandidates tasks placements unplaced)
    (rest : List (Task α)) :
    ∃ more left,
      greedy problem maxCandidates (builtFrom problem placements) rest =
          .ok (builtFrom problem (placements ++ more), left) ∧
        Passed problem maxCandidates (tasks ++ rest) (placements ++ more) (unplaced ++ left) := by
  induction rest generalizing tasks placements unplaced with
  | nil => exact ⟨[], [], by rw [List.append_nil]; rfl, by simpa using passed⟩
  | cons task rest inductionHypothesis =>
      obtain ⟨more, left, fares, goesOn⟩ := exists_fares problem maxCandidates placements task
      obtain ⟨others, othersLeft, isGreedy, passedAll⟩ := inductionHypothesis (passed.next fares)
      refine ⟨more ++ others, left ++ othersLeft, ?_, by simpa using passedAll⟩
      rw [goesOn, isGreedy, List.append_assoc]
      rfl

namespace Fares

variable {placements more : List (Placement α)} {task : Task α} {left : List Unplaced}

/-- A task is either placed or reported, and only itself. -/
theorem map_task_eq
    (fares : Fares problem maxCandidates placements task more left) :
    more.map (·.task) ++ left.map Unplaced.task = [task.identifier] := by
  cases fares with
  | @placed placement others noneMissing found =>
      rw [List.map_singleton, Schedule.task_eq_of_options found placement List.mem_cons_self]
      rfl
  | withoutOption _ _ => rfl
  | blocked _ => rfl

theorem blocked_iff
    (fares : Fares problem maxCandidates placements task more left) :
    (∃ names, .blocked task.identifier names ∈ left) ↔
      missingPrerequisites (builtFrom problem placements) task ≠ [] := by
  cases fares with
  | placed noneMissing _ => simp [noneMissing]
  | withoutOption noneMissing _ => simp [noneMissing]
  | blocked someMissing => simp [someMissing]

theorem names_eq
    {names : List String}
    (fares : Fares problem maxCandidates placements task more left)
    (isBlocked : .blocked task.identifier names ∈ left) :
    names = missingPrerequisites (builtFrom problem placements) task := by
  cases fares with
  | placed _ _ => cases isBlocked
  | withoutOption _ _ => simp at isBlocked
  | blocked _ => simpa using isBlocked

theorem of_withoutOption
    (fares : Fares problem maxCandidates placements task more left)
    (isReported : .withoutOption task.identifier ∈ left) :
    missingPrerequisites (builtFrom problem placements) task = [] ∧
      (builtFrom problem placements).options problem maxCandidates task = .ok [] := by
  cases fares with
  | placed _ _ => cases isReported
  | withoutOption noneMissing noneFound => exact ⟨noneMissing, noneFound⟩
  | blocked _ => simp at isReported

theorem exists_options_eq_ok
    {placement : Placement α}
    (fares : Fares problem maxCandidates placements task more left)
    (isPlaced : placement ∈ more) :
    ∃ others,
      (builtFrom problem placements).options problem maxCandidates task =
        .ok (placement :: others) := by
  cases fares with
  | placed _ found =>
      obtain rfl := List.mem_singleton.mp isPlaced
      exact ⟨_, found⟩
  | withoutOption _ _ => cases isPlaced
  | blocked _ => cases isPlaced

end Fares

namespace Passed

variable {tasks earlier later : List (Task α)} {task : Task α} {placements : List (Placement α)}
  {unplaced : List Unplaced}

/-- Every task that a pass has gone through is either placed or reported, and only once. -/
theorem perm
    (passed : Passed problem maxCandidates tasks placements unplaced) :
    (placements.map (·.task) ++ unplaced.map Unplaced.task).Perm (tasks.map (·.identifier)) := by
  induction passed with
  | start => exact .nil
  | @next tasks placements more unplaced left task _ fares inductionHypothesis =>
      have isTask := fares.map_task_eq
      rw [List.map_append, List.map_append, List.map_append, List.map_singleton, ← isTask]
      exact (append_append_append_perm _ _ _ _).trans (inductionHypothesis.append_right _)

/-- When the pass came to one of its tasks, it had gone through those before it; what followed is of
those after it. -/
theorem exists_fares_of_mem
    (passed : Passed problem maxCandidates tasks placements unplaced)
    (shape : tasks = earlier ++ task :: later) :
    ∃ before more after beforeLeft left afterLeft,
      placements = before ++ more ++ after ∧
        unplaced = beforeLeft ++ left ++ afterLeft ∧
        Passed problem maxCandidates earlier before beforeLeft ∧
        Fares problem maxCandidates before task more left ∧
        (after.map (·.task) ++ afterLeft.map Unplaced.task).Perm (later.map (·.identifier)) := by
  induction passed generalizing later with
  | start => simp at shape
  | @next tasks placements more unplaced left last passed fares inductionHypothesis =>
      rcases later.eq_nil_or_concat' with rfl | ⟨others, final, rfl⟩
      · obtain ⟨rfl, isLast⟩ := List.append_inj' shape rfl
        obtain rfl := List.singleton_inj.mp isLast
        exact ⟨placements, more, [], unplaced, left, [], by simp, by simp, passed, fares, .nil⟩
      · rw [← List.cons_append, ← List.append_assoc] at shape
        obtain ⟨rfl, isLast⟩ := List.append_inj' shape rfl
        obtain rfl := List.singleton_inj.mp isLast
        obtain ⟨before, first, after, beforeLeft, firstLeft, afterLeft, rfl, rfl, passedBefore,
          faresFirst, perm⟩ := inductionHypothesis rfl
        refine ⟨before, first, after ++ more, beforeLeft, firstLeft, afterLeft ++ left, by simp,
          by simp, passedBefore, faresFirst, ?_⟩
        rw [List.map_append, List.map_append, List.map_append, List.map_singleton,
          ← fares.map_task_eq]
        exact (append_append_append_perm _ _ _ _).trans (perm.append_right _)

/-- What a pass has done when it came to one of its tasks can be told from its outcome. -/
theorem exists_turn
    (passed : Passed problem maxCandidates tasks placements unplaced)
    (ordered : problem.OrderedTasks tasks)
    (shape : tasks = earlier ++ task :: later) :
    ∃ before more left,
      Fares problem maxCandidates before task more left ∧
        before ⊆ placements ∧
        builtOf problem earlier placements = builtFrom problem before ∧
        (∀ placement ∈ placements, placement.task = task.identifier → placement ∈ more) ∧
        (∀ entry, entry.task = task.identifier → (entry ∈ unplaced ↔ entry ∈ left)) ∧
        missingPrerequisites (builtFrom problem before) task =
          task.dependencies.filter fun name => (unplaced.map Unplaced.task).contains name := by
  obtain ⟨before, more, after, beforeLeft, left, afterLeft, rfl, rfl, passedBefore, fares, perm⟩ :=
    passed.exists_fares_of_mem shape
  have distinct := ordered.nodup
  have areEarlier := mem_earlier_of_ordered ordered shape
  subst shape
  have permBefore := passedBefore.perm
  have isTask := fares.map_task_eq
  rw [List.map_append, List.map_cons, List.nodup_append, List.nodup_cons] at distinct
  obtain ⟨distinctBefore, ⟨notAfter, -⟩, areApart⟩ := distinct
  -- What has been placed or reported before is of the tasks before, and likewise for the rest.
  have isBefore (placement : Placement α) (member : placement ∈ before) :
      placement.task ∈ earlier.map (·.identifier) :=
    permBefore.subset (List.mem_append_left _ (List.mem_map_of_mem member))
  have isBeforeLeft (entry : Unplaced) (member : entry ∈ beforeLeft) :
      entry.task ∈ earlier.map (·.identifier) :=
    permBefore.subset (List.mem_append_right _ (List.mem_map_of_mem member))
  have isMore (placement : Placement α) (member : placement ∈ more) :
      placement.task = task.identifier := by
    refine List.mem_singleton.mp (isTask ▸ List.mem_append_left _ ?_)
    exact List.mem_map_of_mem member
  have isLeft (entry : Unplaced) (member : entry ∈ left) :
      entry.task = task.identifier := by
    refine List.mem_singleton.mp (isTask ▸ List.mem_append_right _ ?_)
    exact List.mem_map_of_mem member
  have isAfter (placement : Placement α) (member : placement ∈ after) :
      placement.task ∈ later.map (·.identifier) :=
    perm.subset (List.mem_append_left _ (List.mem_map_of_mem member))
  have isAfterLeft (entry : Unplaced) (member : entry ∈ afterLeft) :
      entry.task ∈ later.map (·.identifier) :=
    perm.subset (List.mem_append_right _ (List.mem_map_of_mem member))
  have notTask {name : String} (member : name ∈ earlier.map (·.identifier)) :
      name ≠ task.identifier :=
    areApart name member _ List.mem_cons_self
  have notLater {name : String} (member : name ∈ earlier.map (·.identifier)) :
      name ∉ later.map (·.identifier) :=
    fun isLater => areApart name member name (List.mem_cons_of_mem _ isLater) rfl
  refine ⟨before, more, left, fares, ?_, ?_, ?_, ?_, ?_⟩
  · exact fun _ member => List.mem_append_left _ (List.mem_append_left _ member)
  · rw [builtOf, List.filter_append, List.filter_append, List.filter_eq_self.mpr,
      List.filter_eq_nil_iff.mpr, List.filter_eq_nil_iff.mpr, List.append_nil, List.append_nil]
    · intro placement member
      rw [List.contains_iff_mem]
      exact fun isEarlier => notLater isEarlier (isAfter placement member)
    · intro placement member
      rw [List.contains_iff_mem]
      exact fun isEarlier => notTask isEarlier (isMore placement member)
    · intro placement member
      rw [List.contains_iff_mem]
      exact isBefore placement member
  · intro placement member isOfTask
    rcases List.mem_append.mp member with member | member
    · rcases List.mem_append.mp member with member | member
      · exact absurd isOfTask (notTask (isBefore placement member))
      · exact member
    · exact absurd (isOfTask ▸ isAfter placement member) notAfter
  · intro entry isOfTask
    refine ⟨fun member => ?_, fun member =>
      List.mem_append_left _ (List.mem_append_right _ member)⟩
    rcases List.mem_append.mp member with member | member
    · rcases List.mem_append.mp member with member | member
      · exact absurd isOfTask (notTask (isBeforeLeft entry member))
      · exact member
    · exact absurd (isOfTask ▸ isAfterLeft entry member) notAfter
  · rw [missingPrerequisites_builtFrom]
    refine List.filter_congr fun name isAwaited => ?_
    have isEarlier := areEarlier name isAwaited
    rw [Bool.eq_iff_iff, Bool.not_eq_true', ← Bool.not_eq_true, List.contains_iff_mem,
      List.contains_iff_mem]
    refine Iff.symm ⟨?_, ?_⟩
    · intro isReported isPlaced
      obtain ⟨entry, member, rfl⟩ := List.mem_map.mp isReported
      rcases List.mem_append.mp member with member | member
      · rcases List.mem_append.mp member with member | member
        · have areDistinct := permBefore.nodup_iff.mpr distinctBefore
          exact (List.nodup_append.mp areDistinct).2.2 _ isPlaced _ (List.mem_map_of_mem member) rfl
        · exact notTask isEarlier (isLeft entry member)
      · exact notLater isEarlier (isAfterLeft entry member)
    · intro notPlaced
      have isReported :=
        (List.mem_append.mp (permBefore.symm.subset isEarlier)).resolve_left notPlaced
      obtain ⟨entry, member, isName⟩ := List.mem_map.mp isReported
      exact List.mem_map.mpr
        ⟨entry, List.mem_append_left _ (List.mem_append_left _ member), isName⟩

end Passed

/-- What a pass has placed and reported tells of every task what became of it. -/
structure Accounts (problem : SchedulingProblem α) (maxCandidates : Nat)
    (placements : List (Placement α)) (unplaced : List Unplaced) : Prop where
  /-- Every task is either placed or reported, and only once. -/
  perm :
    (placements.map (·.task) ++ unplaced.map Unplaced.task).Perm
      (problem.tasks.map (·.identifier))
  /-- A task is blocked exactly if one that it waits for is reported, blocked or not. -/
  blocked_iff :
    ∀ task ∈ problem.tasks,
      (∃ names, .blocked task.identifier names ∈ unplaced) ↔
        ∃ name ∈ task.dependencies, name ∈ unplaced.map Unplaced.task
  /-- A blocked task names those that it waits for and that are reported. -/
  names_eq :
    ∀ task ∈ problem.tasks, ∀ names,
      .blocked task.identifier names ∈ unplaced →
        names = task.dependencies.filter fun name => (unplaced.map Unplaced.task).contains name
  /-- A task that is reported without being blocked has no option after the tasks before it. -/
  withoutOption :
    ∀ earlier task later, problem.order.1 = earlier ++ task :: later →
      .withoutOption task.identifier ∈ unplaced →
        (∀ name ∈ task.dependencies, name ∈ placements.map (·.task)) ∧
          (builtOf problem earlier placements).options problem maxCandidates task = .ok []
  /-- A task that is placed takes its first option after the tasks before it. -/
  placed :
    ∀ earlier task later, problem.order.1 = earlier ++ task :: later →
      ∀ placement ∈ placements, placement.task = task.identifier →
        ∃ others,
          (builtOf problem earlier placements).options problem maxCandidates task =
            .ok (placement :: others)

/-- A pass through the order of a problem accounts for every task. -/
theorem Passed.accounts
    {placements : List (Placement α)}
    {unplaced : List Unplaced}
    (valid : problem.fault? = none)
    (noneLeft : problem.order.2 = [])
    (passed : Passed problem maxCandidates problem.order.1 placements unplaced) :
    Accounts problem maxCandidates placements unplaced := by
  have ordered := problem.orderedTasks_order
  have perm : problem.order.1.Perm problem.tasks := by
    simpa [noneLeft] using SchedulingProblem.order_perm valid
  refine ⟨passed.perm.trans (perm.map _), ?_, ?_, ?_, ?_⟩
  · intro task isTask
    obtain ⟨earlier, later, shape⟩ := List.append_of_mem (perm.mem_iff.mpr isTask)
    obtain ⟨before, more, left, fares, -, -, -, isEntry, isMissing⟩ :=
      passed.exists_turn ordered shape
    calc (∃ names, .blocked task.identifier names ∈ unplaced)
        ↔ ∃ names, .blocked task.identifier names ∈ left :=
          exists_congr fun names => isEntry (.blocked task.identifier names) rfl
      _ ↔ missingPrerequisites (builtFrom problem before) task ≠ [] := fares.blocked_iff
      _ ↔ ∃ name ∈ task.dependencies, name ∈ unplaced.map Unplaced.task := by
          rw [isMissing, Ne, List.filter_eq_nil_iff]
          simp only [List.contains_iff_mem, not_forall, not_not, exists_prop]
  · intro task isTask names isBlocked
    obtain ⟨earlier, later, shape⟩ := List.append_of_mem (perm.mem_iff.mpr isTask)
    obtain ⟨before, more, left, fares, -, -, -, isEntry, isMissing⟩ :=
      passed.exists_turn ordered shape
    rw [fares.names_eq ((isEntry _ rfl).mp isBlocked), isMissing]
  · intro earlier task later shape isReported
    obtain ⟨before, more, left, fares, areKept, isBuilt, -, isEntry, -⟩ :=
      passed.exists_turn ordered shape
    obtain ⟨noneMissing, noneFound⟩ := fares.of_withoutOption ((isEntry _ rfl).mp isReported)
    refine ⟨fun name isAwaited => List.map_subset _ areKept ?_, isBuilt ▸ noneFound⟩
    rw [missingPrerequisites_builtFrom, List.filter_eq_nil_iff] at noneMissing
    simpa using noneMissing name isAwaited
  · intro earlier task later shape placement isPlaced isOfTask
    obtain ⟨before, more, left, fares, -, isBuilt, isMore, -, -⟩ :=
      passed.exists_turn ordered shape
    rw [isBuilt]
    exact fares.exists_options_eq_ok (isMore placement isPlaced isOfTask)

/-- A search ends without a complete schedule: it has taken none, and kept none. -/
structure EndsEmpty (halt? : Option (Halt α)) (progress : Progress α) : Prop where
  noneFound : ∀ placements, halt? ≠ some (.found placements)
  noneKept : progress.fallback = none

/-- A search that ends without a complete schedule is reported on by its greedy pass. -/
theorem reports_greedy_of_reportOn_eq_ok
    {setting : Setting α}
    {order : List (Task α)}
    {halt? : Option (Halt α)}
    {progress : Progress α}
    {schedule : Schedule α}
    {unplaced : List Unplaced}
    {report : Report α}
    (endsEmpty : EndsEmpty halt? progress)
    (notCancelled : halt? ≠ some (.interrupted .cancelled))
    (isGreedy :
      greedy setting.problem setting.maxCandidates (.start setting.problem) order =
        .ok (schedule, unplaced))
    (someLeft : unplaced ≠ [])
    (isReport : reportOn setting order halt? progress = .ok report) :
    report.status = .infeasible ∧
      report.placements = schedule.placements ∧
      "schedule" ∉ report.details.map (·.1) ∧
      ∃ missed,
        Constraints.violations setting.tolerance (setting.problem.metricsOf schedule.placements)
            setting.problem.constraints = .ok missed ∧
          report.violations = unplaced.map Unplaced.violation ++ missed := by
  have isEmpty : unplaced.isEmpty = false := by
    simpa using someLeft
  have notInterrupted : halt?.bind Halt.interruption? ≠ some .cancelled := by
    intro isCancelled
    obtain ⟨halt, rfl, isInterruption⟩ := Option.bind_eq_some_iff.mp isCancelled
    cases halt with
    | found placements => cases isInterruption
    | interrupted interruption =>
        cases isInterruption
        exact notCancelled rfl
  unfold reportOn at isReport
  dsimp only at isReport
  split at isReport
  · exact absurd rfl (endsEmpty.noneFound _)
  · rename_i isKept
    rw [endsEmpty.noneKept] at isKept
    cases isKept
  · unfold greedyReport at isReport
    rw [isGreedy] at isReport
    simp only [Except.mapError, bind, Except.bind, isEmpty, Bool.false_eq_true, if_false,
      notInterrupted] at isReport
    obtain ⟨missed, areMissed, isJudged⟩ := bind_eq_ok (mapError_eq_ok isReport)
    cases isJudged
    refine ⟨ite_self _, rfl, ?_, missed, areMissed, rfl⟩
    unfold greedyDetails
    split <;> simp [Report.bare]

/-- A solve that returns the schedule of its greedy pass, with tasks left over, says so. -/
theorem reports_greedy_of_solve_eq_ok
    {parameters : SchedulingParameters α}
    {watch : Watch α}
    {halt? : Option (Halt α)}
    {progress : Progress α}
    {schedule : Schedule α}
    {unplaced : List Unplaced}
    {outcome : Solution α}
    (noneLeft : problem.order.2 = [])
    (isGreedy :
      greedy problem parameters.maxCandidates (.start problem) problem.order.1 =
        .ok (schedule, unplaced))
    (started : watch.lookAtFlag.1 = false)
    (searched : searchOf problem parameters watch = .ok (halt?, progress))
    (endsEmpty : EndsEmpty halt? progress)
    (notCancelled : halt? ≠ some (.interrupted .cancelled))
    (someLeft : unplaced ≠ [])
    (solved : solve problem parameters watch = .ok outcome) :
    outcome.status = .infeasible ∧
      Reports outcome schedule.placements ∧
        ∃ missed,
          Constraints.violations parameters.tolerance (problem.metricsOf schedule.placements)
              problem.constraints = .ok missed ∧
            outcome.violations = unplaced.map Unplaced.violation ++ missed := by
  obtain ⟨⟨report, after⟩, isReport, told⟩ := bind_eq_ok (mapError_eq_ok solved)
  have told := mapError_eq_ok told
  have noneCyclic : (settingOf problem parameters).problem.order.2 = [] := noneLeft
  have sameSearch :
      run (settingOf problem parameters) (settingOf problem parameters).problem.order.1
          (.start (settingOf problem parameters).problem watch.lookAtFlag.2) =
        .ok (halt?, progress) := searched
  unfold searchUnlessCancelled search at isReport
  simp only [started, Bool.false_eq_true, if_false, noneCyclic, List.isEmpty_nil, Bool.not_true,
    sameSearch] at isReport
  obtain ⟨-, ⟨rfl, rfl⟩, isReport⟩ := bind_eq_ok isReport
  obtain ⟨final, isFinal, isReport⟩ := bind_eq_ok isReport
  cases isReport
  obtain ⟨isStatus, arePlacements, silent, missed, areMissed, areViolations⟩ :=
    reports_greedy_of_reportOn_eq_ok endsEmpty notCancelled isGreedy someLeft isFinal
  have takes := takes_of_solution_eq_ok told
  obtain ⟨reported, isReported, perm⟩ := reportedSchedule?_of_solution silent told
  exact ⟨takes.isStatus.trans isStatus, ⟨reported, isReported, arePlacements ▸ perm⟩, missed,
    areMissed, takes.areViolations.trans areViolations⟩

/--
Where no task waits for itself, the greedy pass ends without a lapse and accounts for every task.
Each is placed at its first option or reported, blocked exactly where one that it waits for is
reported, and else because it had no option when the pass came to it.  A solve that is not cancelled
and returns this schedule is infeasible if a task is left over, and reports these tasks and then the
constraints that the schedule violates.
-/
theorem greedy_accounts_for_every_task
    (problem : SchedulingProblem α)
    (valid : problem.fault? = none)
    (acyclic : ∀ task, ¬ Relation.TransGen problem.DependsOn task task)
    (parameters : SchedulingParameters α) :
    ∃ schedule unplaced,
      greedy problem parameters.maxCandidates (.start problem) problem.order.1 =
          .ok (schedule, unplaced) ∧
        Accounts problem parameters.maxCandidates schedule.placements unplaced ∧
        ∀ watch halt? progress outcome,
          watch.lookAtFlag.1 = false →
            searchOf problem parameters watch = .ok (halt?, progress) →
              EndsEmpty halt? progress →
                halt? ≠ some (.interrupted .cancelled) →
                  unplaced ≠ [] →
                    solve problem parameters watch = .ok outcome →
                      outcome.status = .infeasible ∧
                        Reports outcome schedule.placements ∧
                          ∃ missed,
                            Constraints.violations parameters.tolerance
                                (problem.metricsOf schedule.placements) problem.constraints =
                              .ok missed ∧
                            outcome.violations = unplaced.map Unplaced.violation ++ missed := by
  have noneLeft := (SchedulingProblem.noneLeft_iff_acyclic valid).mpr acyclic
  obtain ⟨placements, unplaced, isGreedy, passed⟩ :=
    exists_passed (Passed.start : Passed problem parameters.maxCandidates [] [] [])
      problem.order.1
  rw [List.nil_append, List.nil_append, List.nil_append] at passed
  rw [List.nil_append] at isGreedy
  refine ⟨builtFrom problem placements, unplaced, isGreedy, ?_, ?_⟩
  · rw [placements_builtFrom]
    exact passed.accounts valid noneLeft
  · intro watch halt? progress outcome started searched endsEmpty notCancelled someLeft solved
    exact reports_greedy_of_solve_eq_ok noneLeft isGreedy started searched endsEmpty notCancelled
      someLeft solved

/-- A house whose roof needs more hands than there are.  It cannot be painted before, nor cleaned
before it is painted, but it can be swept. -/
def houseProblem : SchedulingProblem Extended where
  identifier := "house"
  name := ""
  kind := .scheduling
  description := ""
  objectives := SchedulingProblem.usualObjectives "makespan"
  constraints :=
    [⟨.expression (.variable "makespan"), "pace", "", .inequality, .atLeast, .finite 3, none, ""⟩]
  decisions := []
  parameters := none
  status := .pending
  tasks :=
    [⟨"roof", "", 1, 0, [], [⟨.human, .finite 3, [], []⟩], [], []⟩,
      ⟨"paint", "", 1, 0, ["roof"], [], [], []⟩,
      ⟨"clean", "", 1, 0, ["paint", "sweep"], [], [], []⟩,
      ⟨"sweep", "", 1, 1, [], [⟨.human, 1, [], []⟩], [], []⟩]
  resources := [⟨"ann", "", .human, 1, [], [], 0, none⟩]
  horizon := ⟨0, .finite 4, .hour⟩
  preferences := ⟨false, false, true, false, true⟩

/-- The end of the search in the house, which has swept it and gone back. -/
def houseEnd : Progress Extended :=
  ⟨1, 1, none, [], ⟨fun _ => 0, fun _ => false, 0, 2⟩⟩

/-- What the pass places in the house. -/
def housePlacements : List (Placement Extended) :=
  [⟨"sweep", 0, 1, [("ann", 1)], 0, false⟩]

theorem exists_solve_houseProblem :
    searchOf houseProblem plainParameters Routing.quietWatch = .ok (none, houseEnd) ∧
      ∃ outcome, solve houseProblem plainParameters Routing.quietWatch = .ok outcome := by
  have isOver :
      endWithin (settingOf houseProblem plainParameters) houseProblem.order.1 10
          (.start houseProblem Routing.quietWatch.lookAtFlag.2) =
        some (.ok (none, houseEnd)) := by
    cbv
  refine ⟨run_eq_of_endWithin_eq_some isOver, ?_⟩
  obtain ⟨report, reported, arePlacements⟩ :
      ∃ report : Report Extended,
        reportOn (settingOf houseProblem plainParameters) houseProblem.order.1 none houseEnd =
            .ok report ∧
          report.placements = housePlacements :=
    ⟨_, by cbv, rfl⟩
  obtain ⟨outcome, solved, -⟩ :=
    exists_solve_status_eq rfl (search_eq_ok_of_endWithin (by cbv) isOver reported)
      (by rw [arePlacements]; cbv) (by rw [arePlacements]; cbv)
  exact ⟨outcome, solved⟩

/-- In the house the roof is left over, and with it everything that waits for it. -/
theorem houseProblem_accounts_for_every_task :
    ∃ outcome missed,
      solve houseProblem plainParameters Routing.quietWatch = .ok outcome ∧
        outcome.status = .infeasible ∧
        Reports outcome housePlacements ∧
        outcome.violations =
          [⟨"roof", 1, .critical, some .noPlacement⟩,
            ⟨"paint", 1, .high, some (.blockedTask ["roof"])⟩,
            ⟨"clean", 1, .high, some (.blockedTask ["paint"])⟩] ++ missed ∧
        missed.map (·.identifier) = ["pace"] := by
  have valid : houseProblem.fault? = none := by cbv
  have noneLeft : houseProblem.order.2 = [] := by cbv
  obtain ⟨schedule, isGreedy, arePlacements⟩ :
      ∃ schedule : Schedule Extended,
        greedy houseProblem plainParameters.maxCandidates (.start houseProblem)
              houseProblem.order.1 =
            .ok (schedule,
              [.withoutOption "roof", .blocked "paint" ["roof"], .blocked "clean" ["paint"]]) ∧
          schedule.placements = housePlacements :=
    ⟨_, by cbv, rfl⟩
  have isMissed :
      (Constraints.violations plainParameters.tolerance (houseProblem.metricsOf housePlacements)
          houseProblem.constraints).map (·.map (·.identifier)) = .ok ["pace"] := by
    cbv
  obtain ⟨searched, outcome, solved⟩ := exists_solve_houseProblem
  obtain ⟨scheduleToo, unplaced, passed, -, told⟩ :=
    greedy_accounts_for_every_task houseProblem valid
      ((SchedulingProblem.noneLeft_iff_acyclic valid).mp noneLeft) plainParameters
  obtain ⟨rfl, rfl⟩ := Prod.mk.inj (Except.ok.inj (isGreedy.symm.trans passed))
  obtain ⟨isStatus, reports, missed, areMissed, areViolations⟩ :=
    told Routing.quietWatch none houseEnd outcome rfl searched ⟨by simp, rfl⟩ (by simp)
      (List.cons_ne_nil _ _) solved
  rw [arePlacements] at areMissed reports
  rw [areMissed] at isMissed
  refine ⟨outcome, missed, solved, isStatus, reports, ?_, Except.ok.inj isMissed⟩
  rw [areViolations]
  cbv

end Scheduling

end Optima
