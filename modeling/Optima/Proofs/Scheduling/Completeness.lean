import Optima.Proofs.Scheduling.Exact
import Optima.Proofs.Scheduling.OptionTree

namespace Optima

/-!
# The search for a schedule is complete

A search that nothing interrupts answers with the first complete schedule that
satisfies the constraints.  If there is none it answers with the first complete
schedule, and if there is no complete schedule at all, with what remains where each
task takes its first option.
-/

namespace Scheduling

variable {α : Type} [Scalar α]

/-- A search stops at a limit, or because it is cancelled. -/
def BreaksOff (ending : Except (SearchFailure α) (Option (Halt α) × Progress α)) : Prop :=
  ∃ interruption progress, ending = .ok (some (.interrupted interruption), progress)

/-- The search that a solve makes after its first look at the flag. -/
def searchOf (problem : SchedulingProblem α) (parameters : SchedulingParameters α)
    (watch : Watch α) : Except (SearchFailure α) (Option (Halt α) × Progress α) :=
  run (settingOf problem parameters) problem.order.1 (.start problem watch.lookAtFlag.2)

/-- The placements that a solve may have to judge by their metrics: complete schedules, and where
there is none, what remains if each task takes its first option. -/
def IsJudged (problem : SchedulingProblem α) (maxCandidates : Nat)
    (placements : List (Placement α)) : Prop :=
  ∃ tree,
    survey problem maxCandidates problem.order.1 (.start problem) = .ok tree ∧
      (placements ∈ tree.complete ∨
        tree.complete = [] ∧
          ∃ schedule unplaced,
            greedy problem maxCandidates (.start problem) problem.order.1 =
                .ok (schedule, unplaced) ∧
              schedule.placements = placements)

/-- A solution reports placements. -/
def Reports (outcome : Solution α) (placements : List (Placement α)) : Prop :=
  ∃ reported,
    reportedSchedule? outcome = some reported ∧ reported.Perm (placements.map .ofPlacement)

/-- A solution is what a search through the whole tree of options has to answer. -/
structure Answers (problem : SchedulingProblem α) (parameters : SchedulingParameters α)
    (tree : Survey α) (outcome : Solution α) : Prop where
  feasible :
    ∀ placements,
      IsFirst (Meets problem parameters.tolerance) tree.complete placements →
        outcome.status = .feasible ∧ Reports outcome placements
  infeasible :
    (∀ placements ∈ tree.complete, ¬ Meets problem parameters.tolerance placements) →
      outcome.status = .infeasible ∧
        (∀ placements, tree.complete.head? = some placements → Reports outcome placements) ∧
        (tree.complete = [] →
          ∃ schedule unplaced,
            greedy problem parameters.maxCandidates (.start problem) problem.order.1 =
                .ok (schedule, unplaced) ∧
              unplaced ≠ [] ∧
              Reports outcome schedule.placements)

section Reporting

variable {problem : SchedulingProblem α} {parameters : SchedulingParameters α}
  {report : Report α}

/-- A report that is judged by constraints with values makes a solution. -/
theorem exists_solution_of_judged
    (parameters : SchedulingParameters α)
    (runtime : α)
    (silent : "schedule" ∉ report.details.map (·.1))
    (valued : problem.toProblem.IsValuedOn (problem.metricsOf report.placements)) :
    ∃ missed final outcome,
      Constraints.violations parameters.tolerance (problem.metricsOf report.placements)
          problem.constraints = .ok missed ∧
        judged (settingOf problem parameters) report = .ok final ∧
        solution problem parameters.tolerance runtime final = .ok outcome ∧
        outcome.status =
          (if (report.violations ++ missed).isEmpty then report.status else .infeasible) ∧
        Reports outcome report.placements := by
  obtain ⟨missed, areMissed⟩ :=
    Constraints.exists_violations_eq_ok parameters.tolerance valued.constraints
  obtain ⟨values, areValues⟩ := Objectives.exists_values_eq_ok valued.objectives
  obtain ⟨sensitivity, isSensitivity⟩ :=
    Sensitivity.exists_ofMetrics_eq_ok valued parameters.tolerance
  obtain ⟨final, isJudged, samePlacements, sameDetails, isStatus⟩ :
      ∃ final,
        judged (settingOf problem parameters) report = .ok final ∧
          final.placements = report.placements ∧
          final.details = report.details ∧
          final.status =
            (if (report.violations ++ missed).isEmpty then report.status else .infeasible) := by
    simp [judged, settingOf, areMissed, bind, Except.bind, pure, Except.pure]
  obtain ⟨outcome, ended⟩ :
      ∃ outcome, solution problem parameters.tolerance runtime final = .ok outcome :=
    exists_solution_eq_ok runtime (by rw [samePlacements, areValues]; rfl)
      (by rw [samePlacements, isSensitivity]; rfl)
  obtain ⟨reported, isReported, areReported⟩ :=
    reportedSchedule?_of_solution (sameDetails ▸ silent) ended
  exact ⟨missed, final, outcome, areMissed, isJudged, ended,
    (takes_of_solution_eq_ok ended).isStatus.trans isStatus, reported, isReported,
    samePlacements ▸ areReported⟩

/-- A solve whose search ends with a report to be judged answers with it. -/
theorem exists_solve_of_reportOn
    {watch : Watch α}
    {halt? : Option (Halt α)}
    {progress : Progress α}
    (acyclic : problem.order.2 = [])
    (started : watch.lookAtFlag.1 = false)
    (searched : searchOf problem parameters watch = .ok (halt?, progress))
    (reported : reportOn (settingOf problem parameters) problem.order.1 halt? progress =
      (judged (settingOf problem parameters) report).mapError SearchFailure.evaluation)
    (silent : "schedule" ∉ report.details.map (·.1))
    (valued : problem.toProblem.IsValuedOn (problem.metricsOf report.placements)) :
    ∃ missed outcome,
      Constraints.violations parameters.tolerance (problem.metricsOf report.placements)
          problem.constraints = .ok missed ∧
        solve problem parameters watch = .ok outcome ∧
        outcome.status =
          (if (report.violations ++ missed).isEmpty then report.status else .infeasible) ∧
        Reports outcome report.placements := by
  obtain ⟨missed, final, outcome, areMissed, isJudged, ended, isStatus, reports⟩ :=
    exists_solution_of_judged parameters progress.watch.lookAtClock.1 silent valued
  refine ⟨missed, outcome, areMissed, ?_, isStatus, reports⟩
  have searchEnds :
      search (settingOf problem parameters) watch.lookAtFlag.2 =
        .ok (final, progress.watch) := by
    have sameSearch :
        run (settingOf problem parameters) (settingOf problem parameters).problem.order.1
            (.start (settingOf problem parameters).problem watch.lookAtFlag.2) =
          .ok (halt?, progress) := searched
    have sameReport :
        reportOn (settingOf problem parameters) (settingOf problem parameters).problem.order.1
          halt? progress = .ok final := by
      rw [isJudged] at reported
      exact reported
    have noneCyclic : (settingOf problem parameters).problem.order.2 = [] := acyclic
    simp [search, noneCyclic, sameSearch, sameReport, bind, Except.bind, pure, Except.pure]
  simp [solve, attempt, searchUnlessCancelled, started, searchEnds, ended, bind, Except.bind,
    Except.mapError]

/-- A search that keeps nothing is reported on by what the greedy pass has placed. -/
theorem reportOn_eq_judged_of_greedy
    (setting : Setting α)
    {order : List (Task α)}
    {progress : Progress α}
    {schedule : Schedule α}
    {unplaced : List Unplaced}
    (noneKept : progress.fallback = none)
    (isGreedy :
      greedy setting.problem setting.maxCandidates (.start setting.problem) order =
        .ok (schedule, unplaced))
    (someLeft : unplaced ≠ []) :
    reportOn setting order none progress =
      (judged setting
        { Report.bare .infeasible
            [("topological_order", .texts (order.map (·.identifier))),
              ("backtracks", .natural progress.backtracks)] with
          placements := schedule.placements
          violations := unplaced.map Unplaced.violation
          iterations := progress.iterations
          history := progress.history.reverse }).mapError .evaluation := by
  simp [reportOn, noneKept, greedyReport, isGreedy, someLeft, greedyDetails, Report.bare, bind,
    Except.bind, Except.mapError]

end Reporting

variable [OrderedScalar α]

/-- Where nothing complete exists, some task is left when each takes its first option. -/
theorem exists_greedy_of_complete_eq_nil
    {problem : SchedulingProblem α}
    {maxCandidates : Nat}
    {tree : Survey α}
    (ordered : problem.OrderedTasks problem.order.1)
    (surveyed : survey problem maxCandidates problem.order.1 (.start problem) = .ok tree)
    (noneComplete : tree.complete = []) :
    ∃ schedule unplaced,
      greedy problem maxCandidates (.start problem) problem.order.1 = .ok (schedule, unplaced) ∧
        unplaced ≠ [] := by
  have fromStart : Trail problem maxCandidates [] (.start problem) [] := .start
  obtain ⟨schedule, unplaced, placed, left, isGreedy, -, -⟩ :=
    exists_greedy_eq_ok fromStart problem.order.1 (by simpa using ordered.nodup)
  refine ⟨schedule, unplaced, isGreedy, ?_⟩
  rintro rfl
  have member := mem_complete_of_greedy isGreedy surveyed
  simp [noneComplete] at member

/-- A search that went through its tree, or took a schedule, gives the answer that it has to. -/
theorem exists_solve_answers
    {problem : SchedulingProblem α}
    {parameters : SchedulingParameters α}
    {watch : Watch α}
    {halt? : Option (Halt α)}
    {progress : Progress α}
    {tree : Survey α}
    (ordered : problem.OrderedTasks problem.order.1)
    (acyclic : problem.order.2 = [])
    (valued : ∀ placements, IsJudged problem parameters.maxCandidates placements →
      problem.toProblem.IsValuedOn (problem.metricsOf placements))
    (started : watch.lookAtFlag.1 = false)
    (surveyed : survey problem parameters.maxCandidates problem.order.1 (.start problem) =
      .ok tree)
    (searched : searchOf problem parameters watch = .ok (halt?, progress))
    (explored : Explored (settingOf problem parameters) tree (.start watch.lookAtFlag.2) halt?
      progress)
    (goesOn : ∀ interruption, halt? ≠ some (.interrupted interruption)) :
    ∃ outcome,
      solve problem parameters watch = .ok outcome ∧
        Answers problem parameters tree outcome := by
  have noSchedule : ∀ (first second : Document α),
      "schedule" ∉ [("topological_order", first), ("backtracks", second)].map (·.1) := by
    simp
  cases halt? with
  | some halt =>
      cases halt with
      | interrupted interruption => exact absurd rfl (goesOn interruption)
      | found placements =>
          have isFirst := explored.found placements rfl
          obtain ⟨missed, outcome, areMissed, solved, isStatus, reports⟩ :=
            exists_solve_of_reportOn acyclic started searched rfl (noSchedule _ _)
              (valued placements ⟨tree, surveyed, .inl isFirst.mem⟩)
          obtain rfl : missed = [] :=
            Except.ok.inj (areMissed.symm.trans (Constraints.violations_eq_nil isFirst.good_item))
          refine ⟨outcome, solved, ?_, ?_⟩
          · intro others isFirstToo
            exact isFirstToo.eq isFirst ▸ ⟨isStatus, reports⟩
          · intro noneMeets
            exact absurd isFirst.good_item (noneMeets placements isFirst.mem)
  | none =>
      obtain ⟨noneMeets, isKept⟩ := explored.through rfl
      have neverFirst : ∀ {placements},
          ¬ IsFirst (Meets problem parameters.tolerance) tree.complete placements :=
        fun isFirst => noneMeets _ isFirst.mem isFirst.good_item
      change progress.fallback = none.or tree.complete.head? at isKept
      rw [Option.none_or] at isKept
      cases isHead : tree.complete.head? with
      | some placements =>
          have member : placements ∈ tree.complete := List.mem_of_mem_head? isHead
          rw [isHead] at isKept
          obtain ⟨missed, outcome, -, solved, isStatus, reports⟩ :=
            exists_solve_of_reportOn acyclic started searched
              (by unfold reportOn; simp only [isKept]; rfl) (noSchedule _ _)
              (valued placements ⟨tree, surveyed, .inl member⟩)
          refine ⟨outcome, solved, fun _ isFirst => absurd isFirst neverFirst, fun _ =>
            ⟨?_, ?_, ?_⟩⟩
          · rw [isStatus]
            exact ite_self _
          · intro others isHeadToo
            exact Option.some.inj (isHeadToo.symm.trans isHead) ▸ reports
          · intro noneComplete
            simp [noneComplete] at member
      | none =>
          have noneComplete : tree.complete = [] := List.head?_eq_none_iff.mp isHead
          obtain ⟨schedule, unplaced, isGreedy, someLeft⟩ :=
            exists_greedy_of_complete_eq_nil ordered surveyed noneComplete
          rw [isHead] at isKept
          have isReport :=
            reportOn_eq_judged_of_greedy (settingOf problem parameters) isKept isGreedy someLeft
          obtain ⟨missed, outcome, -, solved, isStatus, reports⟩ :=
            exists_solve_of_reportOn acyclic started searched isReport (noSchedule _ _)
              (valued schedule.placements
                ⟨tree, surveyed, .inr ⟨noneComplete, schedule, unplaced, isGreedy, rfl⟩⟩)
          refine ⟨outcome, solved, fun _ isFirst => absurd isFirst neverFirst, fun _ =>
            ⟨?_, ?_, ?_⟩⟩
          · rw [isStatus]
            exact ite_self _
          · intro others isHeadToo
            simp [isHead] at isHeadToo
          · intro _
            exact ⟨schedule, unplaced, isGreedy, someLeft, reports⟩

/--
A search that neither a limit nor the flag interrupts is a complete search through the
tree of options.  It is the recursion over the tasks, it tries no more options than there
are, and its solve answers with the first complete schedule that satisfies the
constraints, else with the first complete schedule as an infeasible one, else with an
infeasible schedule from which tasks are missing.
-/
theorem solve_searches_completely
    (problem : SchedulingProblem α)
    (valid : problem.Valid)
    (acyclic : problem.order.2 = [])
    (parameters : SchedulingParameters α)
    (valued : ∀ placements, IsJudged problem parameters.maxCandidates placements →
      problem.toProblem.IsValuedOn (problem.metricsOf placements))
    (watch : Watch α)
    (started : watch.lookAtFlag.1 = false) :
    ∃ tree,
      survey problem parameters.maxCandidates problem.order.1 (.start problem) = .ok tree ∧
        searchOf problem parameters watch =
          explore (settingOf problem parameters) problem.order.1 (.start problem)
            (.start watch.lookAtFlag.2) ∧
        (watch.IsQuiet parameters.timeLimit →
          tree.size ≤ parameters.maxIterations →
            ¬ BreaksOff (searchOf problem parameters watch)) ∧
        (¬ BreaksOff (searchOf problem parameters watch) →
          ∃ outcome,
            solve problem parameters watch = .ok outcome ∧
              Answers problem parameters tree outcome) := by
  have ordered := problem.orderedTasks_order
  have nonempty : problem.order.1 ≠ [] :=
    SchedulingProblem.order_ne_nil valid.tasks_ne_nil acyclic
  have fromStart : Trail problem parameters.maxCandidates [] (.start problem) [] := .start
  obtain ⟨tree, surveyed⟩ :=
    exists_survey_eq_ok ordered (List.nil_append _).symm fromStart
  have isRecursion :
      searchOf problem parameters watch =
        explore (settingOf problem parameters) problem.order.1 (.start problem)
          (.start watch.lookAtFlag.2) :=
    run_start_eq_explore ordered nonempty _
  obtain ⟨halt?, progress, searched, explored⟩ :=
    exists_explore_explored (settingOf problem parameters) surveyed
      (fun placements member => valued placements ⟨tree, surveyed, .inl member⟩)
      (.start watch.lookAtFlag.2)
  rw [← isRecursion] at searched
  refine ⟨tree, surveyed, isRecursion, ?_, ?_⟩
  · rintro isQuiet enough ⟨interruption, stopped, breaksOff⟩
    obtain ⟨rfl, -⟩ := Prod.mk.inj (Except.ok.inj (searched.symm.trans breaksOff))
    exact explored.notInterrupted isQuiet.lookAtFlag
      (by simpa [Progress.start, settingOf] using enough) interruption rfl
  · intro goesOn
    refine exists_solve_answers ordered acyclic valued started surveyed searched explored ?_
    rintro interruption rfl
    exact goesOn ⟨interruption, progress, searched⟩

/-- The workshop with a budget that has to be spent. -/
def spendingProblem : SchedulingProblem Extended :=
  { workshopProblem with
    constraints :=
      [⟨.expression (.variable "total_cost"), "spending", "", .inequality, .atLeast, .finite 3,
        none, ""⟩] }

/-- The second complete schedule: Bob packs and is paid for it, where before him Ann packs for
nothing. -/
def spendingPlacements : List (Placement Extended) :=
  [⟨"sand", 0, .finite 2, [("bob", 1)], .finite 2, false⟩,
   ⟨"glue", 0, .finite 2, [("ann", 1)], 0, false⟩,
   ⟨"pack", .finite 2, .finite 3, [("bob", 1)], 1, false⟩]

/-- The search in the workshop passes over a complete schedule that spends too little. -/
theorem spendingProblem_searches_completely :
    ∃ outcome,
      solve spendingProblem plainParameters Routing.quietWatch = .ok outcome ∧
        outcome.status = .feasible ∧
        Reports outcome spendingPlacements := by
  have valid : spendingProblem.Valid :=
    ⟨workshopProblem_valid.tasks_ne_nil, workshopProblem_valid.references,
      workshopProblem_valid.quantity_pos, workshopProblem_valid.capacity_nonneg⟩
  have isQuiet : Routing.quietWatch.IsQuiet plainParameters.timeLimit :=
    ⟨fun _ => rfl, fun _ isLimit => by simp [plainParameters] at isLimit⟩
  have areLeaves :
      survey spendingProblem plainParameters.maxCandidates spendingProblem.order.1
          (.start spendingProblem) =
        .ok ⟨[workshopPlacements, spendingPlacements], 5⟩ := by
    cbv
  obtain ⟨tree, surveyed, -, isThrough, answers⟩ :=
    solve_searches_completely spendingProblem valid (by cbv) plainParameters
      (fun placements _ => by
        constructor
        · intro objective member
          obtain rfl := List.mem_singleton.mp member
          exact ⟨_, rfl⟩
        · intro constraint member
          obtain rfl := List.mem_singleton.mp member
          exact ⟨_, rfl⟩)
      Routing.quietWatch rfl
  obtain rfl := Except.ok.inj (areLeaves.symm.trans surveyed)
  obtain ⟨outcome, solved, answer⟩ := answers (isThrough isQuiet (by decide))
  have meets : Meets spendingProblem plainParameters.tolerance spendingPlacements :=
    Constraints.feasible_eq_ok_true_iff.mp (by cbv)
  have misses : ¬ Meets spendingProblem plainParameters.tolerance workshopPlacements := by
    intro wouldMeet
    have isFeasible := Constraints.feasible_eq_ok_true_iff.mpr wouldMeet
    have isInfeasible :
        Constraints.feasible plainParameters.tolerance
            (spendingProblem.metricsOf workshopPlacements) spendingProblem.constraints =
          .ok false := by
      cbv
    exact absurd (isFeasible.symm.trans isInfeasible) (by simp)
  exact ⟨outcome, solved, answer.feasible spendingPlacements
    ⟨[workshopPlacements], [], rfl, meets, by simpa using misses⟩⟩

end Scheduling

end Optima
