import Optima.Proofs.Scheduling.Budget
import Optima.Proofs.Scheduling.Search
import Optima.Proofs.Scheduling.Reported
import Optima.Proofs.Search.Verdict

namespace Optima

/-!
# What a search for a schedule tells

A complete schedule has a placement of each task in turn, for all options that are kept for a
task are placements of it.  The status of a schedule is positive only where it is complete and
nothing is reported against it.
-/

variable {α : Type} [Scalar α]

theorem SchedulingProblem.task_eq_of_mem_optionsFrom
    {problem : SchedulingProblem α}
    {maxCandidates : Nat}
    {calendar : Calendar α}
    {task : Task α}
    {ready : α} :
    ∀ placement ∈ problem.optionsFrom maxCandidates calendar task ready,
      placement.task = task.identifier := by
  intro placement member
  obtain ⟨ranked, inSorted, rfl⟩ := List.mem_map.mp member
  rw [List.mem_mergeSort] at inSorted
  obtain ⟨usage, -, isRanked⟩ := List.mem_filterMap.mp inSorted
  obtain ⟨start, -, rfl⟩ := Option.map_eq_some_iff.mp isRanked
  rfl

/-- Every option of a task is a placement of it. -/
theorem Schedule.task_eq_of_options
    {schedule : Schedule α}
    {problem : SchedulingProblem α}
    {maxCandidates : Nat}
    {task : Task α}
    {options : List (Placement α)}
    (areOptions : schedule.options problem maxCandidates task = .ok options) :
    ∀ placement ∈ options, placement.task = task.identifier := by
  unfold Schedule.options SchedulingProblem.options at areOptions
  cases isReady : problem.readyTime schedule.finished task with
  | error lapse =>
      rw [isReady] at areOptions
      cases areOptions
  | ok ready =>
      rw [isReady] at areOptions
      cases areOptions
      exact SchedulingProblem.task_eq_of_mem_optionsFrom

/-- An outcome has no violations, reports a schedule of all tasks, and tells the metrics of its
placements, under which all constraints hold. -/
def SchedulingProblem.IsSolvedBy (problem : SchedulingProblem α) (tolerance : α)
    (outcome : Solution α) : Prop :=
  outcome.violations = [] ∧
    ∃ placements reported,
      Scheduling.reportedSchedule? outcome = some reported ∧
        reported.Perm (placements.map .ofPlacement) ∧
        (∀ task ∈ problem.tasks, ∃ placement ∈ reported, placement.task = task.identifier) ∧
        (placements ≠ [] →
          ∃ values,
            Objectives.values problem.objectives (problem.metricsOf placements) = .ok values ∧
              outcome.objectiveValues = (Table.mk (problem.metrics placements)).merge values) ∧
        Constraints.AllHold tolerance (problem.metricsOf placements) problem.constraints

namespace Scheduling

variable {setting : Setting α} {order : List (Task α)} {state : Descent α}

/-- Options that are kept, those of the latest task first, are placements of the tasks in turn. -/
def AreKept (order : List (Task α)) : List (List (Placement α)) → Prop
  | [] => True
  | options :: others =>
    (∃ task, order[others.length]? = some task ∧
        ∀ placement ∈ options, placement.task = task.identifier) ∧
      AreKept order others

/-- The placements of a search are those of the first tasks, and it has kept options for these, or
for the next one as well. -/
structure Descent.InTurn (order : List (Task α)) (state : Descent α) : Prop where
  placed :
    state.schedule.placements.map (·.task) =
      (order.take state.schedule.placements.length).map (·.identifier)
  kept : AreKept order state.untried
  count :
    state.untried.length = state.schedule.placements.length ∨
      state.untried.length = state.schedule.placements.length + 1

/-- A list of placements has one for each task in turn. -/
def AreAll (order : List (Task α)) (placements : List (Placement α)) : Prop :=
  placements.map (·.task) = order.map (·.identifier)

/-- What a turn leads to is in turn, and a schedule that it takes is complete. -/
def Turn.InTurn (order : List (Task α)) : Turn α → Prop
  | .onward state => state.InTurn order
  | .ended halt? _ => ∀ placements, halt? = some (.found placements) → AreAll order placements

omit [Scalar α] in
theorem AreKept.length_le
    {untried : List (List (Placement α))}
    (kept : AreKept order untried) :
    untried.length ≤ order.length := by
  cases untried with
  | nil => exact Nat.zero_le _
  | cons options others =>
      obtain ⟨⟨task, isThere, -⟩, -⟩ := kept
      exact (List.getElem?_eq_some_iff.mp isThere).1

/-- The options of the next task are placements of it, and what is kept besides is for the tasks
that are placed. -/
theorem Descent.InTurn.of_untriedOf
    (inTurn : state.InTurn order)
    {task : Task α}
    (isNext : order[state.schedule.placements.length]? = some task)
    {options : List (Placement α)}
    {others : List (List (Placement α))}
    (untried : state.untriedOf setting task = .ok (options, others)) :
    (∀ placement ∈ options, placement.task = task.identifier) ∧
      AreKept order others ∧ others.length = state.schedule.placements.length := by
  obtain ⟨-, kept, count⟩ := inTurn
  unfold Descent.untriedOf at untried
  split at untried
  · rename_i isFirstTime
    cases areOptions : state.schedule.options setting.problem setting.maxCandidates task with
    | error lapse =>
        rw [areOptions] at untried
        cases untried
    | ok found =>
        rw [areOptions] at untried
        cases untried
        exact ⟨Schedule.task_eq_of_options areOptions, kept, isFirstTime⟩
  · rename_i notFirstTime
    cases untried
    cases areKept : state.untried with
    | nil =>
        rw [areKept] at notFirstTime count
        simp only [List.length_nil] at notFirstTime count
        omega
    | cons latest earlier =>
        rw [areKept] at kept notFirstTime count
        simp only [List.length_cons] at notFirstTime count
        have sameLength : earlier.length = state.schedule.placements.length := by
          omega
        obtain ⟨⟨same, isThere, areOfTask⟩, kept⟩ := kept
        rw [sameLength, isNext] at isThere
        cases isThere
        exact ⟨areOfTask, kept, sameLength⟩

theorem placements_of_withdraw_eq_ok
    {schedule earlier : Schedule α}
    (withdrawn : schedule.withdraw = .ok earlier) :
    schedule.placements.length = earlier.placements.length + 1 ∧
      earlier.placements = schedule.placements.dropLast := by
  have isShorter := length_withdraw_lt withdrawn
  unfold Schedule.withdraw at withdrawn
  repeat' split at withdrawn
  all_goals cases withdrawn
  rw [List.length_dropLast] at isShorter ⊢
  exact ⟨by omega, rfl⟩

/-- A schedule that goes back one placement has those of the tasks before. -/
theorem map_task_of_withdraw_eq_ok
    {schedule earlier : Schedule α}
    (placed :
      schedule.placements.map (·.task) =
        (order.take schedule.placements.length).map (·.identifier))
    (withdrawn : schedule.withdraw = .ok earlier) :
    earlier.placements.map (·.task) =
      (order.take earlier.placements.length).map (·.identifier) := by
  obtain ⟨sameLength, isEarlier⟩ := placements_of_withdraw_eq_ok withdrawn
  have isPart :
      earlier.placements.map (·.task) =
        (schedule.placements.map (·.task)).take earlier.placements.length := by
    rw [← List.map_take, isEarlier, List.length_dropLast, List.dropLast_eq_take]
  rw [isPart, placed, ← List.map_take, List.take_take, sameLength, min_eq_left (Nat.le_succ _)]

/-- A turn of a search that is in turn leads to one that is, or takes a complete schedule. -/
theorem inTurn_of_turn
    {next : Turn α}
    (inTurn : state.InTurn order)
    (turned : turn setting order state = .ok next) :
    next.InTurn order := by
  obtain ⟨placed, kept, count⟩ := inTurn
  cases turnDone_of_turn turned with
  | taken isComplete outcome =>
      rcases of_judge_eq_ok outcome with ⟨isFound, -⟩ | ⟨isNone, -⟩
      · rintro placements isHalt
        cases isFound.symm.trans isHalt
        rwa [List.take_of_length_le (List.getElem?_eq_none_iff.mp isComplete)] at placed
      · cases isNone
  | kept isComplete outcome withdrawn =>
      have atMost := kept.length_le
      have isEnd := List.getElem?_eq_none_iff.mp isComplete
      obtain ⟨sameLength, -⟩ := placements_of_withdraw_eq_ok withdrawn
      exact ⟨map_task_of_withdraw_eq_ok placed withdrawn, kept, .inr (by dsimp only; omega)⟩
  | exhausted isNext untried isFirst => exact nofun
  | back isNext untried withdrawn =>
      obtain ⟨-, keptOthers, sameCount⟩ :=
        Descent.InTurn.of_untriedOf ⟨placed, kept, count⟩ isNext untried
      obtain ⟨sameLength, -⟩ := placements_of_withdraw_eq_ok withdrawn
      exact ⟨map_task_of_withdraw_eq_ok placed withdrawn, keptOthers,
        .inr (by dsimp only; omega)⟩
  | interrupted isNext untried stops => exact nofun
  | @tried task placement rest others watch isNext untried goesOn =>
      obtain ⟨areOfTask, keptOthers, sameCount⟩ :=
        Descent.InTurn.of_untriedOf ⟨placed, kept, count⟩ isNext untried
      rw [List.forall_mem_cons] at areOfTask
      refine ⟨?_, ⟨⟨task, by rw [sameCount, isNext], areOfTask.2⟩, keptOthers⟩, .inl ?_⟩
      · simp [Schedule.place, List.take_add_one, isNext, placed, areOfTask.1]
      · simp [Schedule.place, sameCount]

/-- A schedule that a search takes is complete. -/
theorem areAll_of_run_eq_ok
    (inTurn : state.InTurn order)
    {progress : Progress α}
    {placements : List (Placement α)}
    (searched : run setting order state = .ok (some (.found placements), progress)) :
    AreAll order placements := by
  fun_induction run setting order state with
  | case1 state failure turned => cases searched
  | case2 state halt? progress turned =>
      cases searched
      exact inTurn_of_turn inTurn turned placements rfl
  | case3 state next turned inductionHypothesis =>
      exact inductionHypothesis (inTurn_of_turn inTurn turned) searched

/-- A pass that leaves no task unplaced has placed all of them. -/
theorem map_task_of_greedy_eq_ok
    {problem : SchedulingProblem α}
    {maxCandidates : Nat}
    {schedule final : Schedule α}
    (passed : greedy problem maxCandidates schedule order = .ok (final, [])) :
    final.placements.map (·.task) =
      schedule.placements.map (·.task) ++ order.map (·.identifier) := by
  induction order generalizing schedule with
  | nil =>
      cases passed
      rw [List.map_nil, List.append_nil]
  | cons task rest inductionHypothesis =>
      unfold greedy at passed
      dsimp only at passed
      split at passed
      · obtain ⟨⟨outcome, unplaced⟩, -, passed⟩ := bind_eq_ok passed
        cases passed
      · obtain ⟨options, areOptions, passed⟩ := bind_eq_ok passed
        cases options with
        | nil =>
            obtain ⟨⟨outcome, unplaced⟩, -, passed⟩ := bind_eq_ok passed
            cases passed
        | cons placement others =>
            have isOfTask := Schedule.task_eq_of_options areOptions placement (by simp)
            rw [inductionHypothesis passed]
            simp [Schedule.place, isOfTask]

/-- A report that claims to have a schedule has one of all tasks, and nothing against it. -/
structure Report.IsAnswer (setting : Setting α) (order : List (Task α)) (report : Report α) :
    Prop where
  areAll : AreAll order report.placements
  noViolation : report.violations = []
  allHold :
    Constraints.AllHold setting.tolerance (setting.problem.metricsOf report.placements)
      setting.problem.constraints
  silent : "schedule" ∉ report.details.map (·.1)

variable [MeasuringScalar α] {report final : Report α}

/-- A complete schedule that is still claimed after it has been judged is an answer. -/
theorem isAnswer_of_judged_eq_ok
    (areAll : report.status.IsPositive → AreAll order report.placements)
    (silent : "schedule" ∉ report.details.map (·.1))
    (isJudged : judged setting report = .ok final)
    (isPositive : final.status.IsPositive) :
    final.IsAnswer setting order := by
  obtain ⟨missed, areMissed, isJudged⟩ := bind_eq_ok isJudged
  cases isJudged
  dsimp only at isPositive
  split at isPositive
  · rename_i noViolation
    have noViolation := List.isEmpty_iff.mp noViolation
    obtain ⟨-, rfl⟩ := List.append_eq_nil_iff.mp noViolation
    exact ⟨areAll isPositive, noViolation, Constraints.violations_eq_nil_iff.mp areMissed, silent⟩
  · exact isPositive.elim

/-- The report on a search without a complete schedule claims one only if all tasks could be placed
in one pass. -/
theorem isAnswer_of_greedyReport_eq_ok
    {interruption? : Option Interruption}
    (silent : "schedule" ∉ report.details.map (·.1))
    (isReport : greedyReport setting order interruption? report = .ok final)
    (isPositive : final.status.IsPositive) :
    final.IsAnswer setting order := by
  obtain ⟨⟨schedule, unplaced⟩, passed, isReport⟩ := bind_eq_ok isReport
  have silent (isComplete : Bool) :
      "schedule" ∉
        (report.details ++ greedyDetails (α := α) isComplete interruption?).map (·.1) := by
    rw [List.map_append, List.mem_append, not_or]
    refine ⟨silent, ?_⟩
    unfold greedyDetails
    split
    · simp
    · split <;> simp
    · simp
  dsimp only at isReport
  split at isReport
  · rename_i allPlaced
    rw [List.isEmpty_iff] at allPlaced
    subst allPlaced
    refine isAnswer_of_judged_eq_ok (fun _ => ?_) (silent _) (mapError_eq_ok isReport) isPositive
    exact map_task_of_greedy_eq_ok (mapError_eq_ok passed)
  · split at isReport
    · cases isReport
      exact isPositive.elim
    · refine isAnswer_of_judged_eq_ok ?_ (silent _) (mapError_eq_ok isReport) isPositive
      exact fun isPositive => isPositive.elim

/-- The report on the end of a search is an answer where it claims to have one. -/
theorem isAnswer_of_reportOn_eq_ok
    {halt? : Option (Halt α)}
    {progress : Progress α}
    (isFound : ∀ placements, halt? = some (.found placements) → AreAll order placements)
    (isReport : reportOn setting order halt? progress = .ok report)
    (isPositive : report.status.IsPositive) :
    report.IsAnswer setting order := by
  unfold reportOn at isReport
  dsimp only at isReport
  split at isReport
  · refine isAnswer_of_judged_eq_ok ?_ ?_ (mapError_eq_ok isReport) isPositive
    · exact fun _ => isFound _ rfl
    · simp [Report.bare]
  · refine isAnswer_of_judged_eq_ok ?_ ?_ (mapError_eq_ok isReport) isPositive
    · exact fun isPositive => isPositive.elim
    · simp [Report.bare]
  · exact isAnswer_of_greedyReport_eq_ok (by simp [Report.bare]) isReport isPositive

/-- The report of a search is an answer where it claims to have one, and then no task waits for a
cycle. -/
theorem isAnswer_of_searchUnlessCancelled_eq_ok
    {watch now : Watch α}
    (isReport : searchUnlessCancelled setting watch = .ok (report, now))
    (isPositive : report.status.IsPositive) :
    report.IsAnswer setting setting.problem.order.1 ∧ setting.problem.order.2 = [] := by
  unfold searchUnlessCancelled at isReport
  dsimp only at isReport
  split at isReport
  · cases isReport
    exact isPositive.elim
  · unfold search at isReport
    dsimp only at isReport
    split at isReport
    · cases isReport
      exact isPositive.elim
    · rename_i noneCyclic
      obtain ⟨⟨halt?, progress⟩, searched, isReport⟩ := bind_eq_ok isReport
      obtain ⟨told, isTold, isReport⟩ := bind_eq_ok isReport
      cases isReport
      have atStart :
          (Descent.start setting.problem watch.lookAtFlag.2).InTurn setting.problem.order.1 :=
        ⟨rfl, trivial, .inl rfl⟩
      refine ⟨isAnswer_of_reportOn_eq_ok ?_ isTold isPositive, by simpa using noneCyclic⟩
      rintro placements rfl
      exact areAll_of_run_eq_ok atStart searched

omit [MeasuringScalar α] in
/-- A solution of placements tells their metrics and objectives. -/
theorem exists_values_of_solution_eq_ok
    {problem : SchedulingProblem α}
    {tolerance runtime : α}
    {outcome : Solution α}
    (told : solution problem tolerance runtime report = .ok outcome)
    (somePlaced : report.placements ≠ []) :
    ∃ values,
      Objectives.values problem.objectives (problem.metricsOf report.placements) = .ok values ∧
        outcome.objectiveValues = (Table.mk (problem.metrics report.placements)).merge values := by
  unfold solution at told
  dsimp only at told
  split at told
  · rename_i nonePlaced
    exact absurd (List.isEmpty_iff.mp nonePlaced) somePlaced
  · obtain ⟨values, areValues, told⟩ := bind_eq_ok told
    obtain ⟨sensitivity, -, told⟩ := bind_eq_ok told
    cases told
    exact ⟨values, areValues, rfl⟩

/-- A solve with a positive status solves the problem. -/
theorem isSolvedBy_of_solve_eq_ok
    {problem : SchedulingProblem α}
    {parameters : SchedulingParameters α}
    {watch : Watch α}
    {outcome : Solution α}
    (solved : solve problem parameters watch = .ok outcome)
    (isPositive : outcome.status.IsPositive) :
    problem.IsSolvedBy parameters.tolerance outcome := by
  obtain ⟨⟨report, now⟩, isReport, told⟩ := bind_eq_ok (mapError_eq_ok solved)
  have told := mapError_eq_ok told
  have takes := takes_of_solution_eq_ok told
  obtain ⟨⟨areAll, noViolation, allHold, silent⟩, noneCyclic⟩ :=
    isAnswer_of_searchUnlessCancelled_eq_ok isReport (takes.isStatus ▸ isPositive)
  obtain ⟨reported, isReported, isSchedule⟩ := reportedSchedule?_of_solution silent told
  refine ⟨takes.areViolations.trans noViolation, report.placements, reported, isReported,
    isSchedule, fun task isTask => ?_, exists_values_of_solution_eq_ok told, allHold⟩
  have isPlaced : task.identifier ∈ report.placements.map (·.task) := by
    rw [areAll]
    exact SchedulingProblem.mem_order_of_noneLeft noneCyclic isTask
  obtain ⟨placement, isThere, isOfTask⟩ := List.mem_map.mp isPlaced
  exact ⟨.ofPlacement placement, isSchedule.mem_iff.mpr (List.mem_map_of_mem isThere), isOfTask⟩

end Scheduling

end Optima
