import Optima.Proofs.Scheduling.Exact
import Optima.Proofs.Scheduling.Listing

namespace Optima

/-!
# A search does not tell in which order windows are listed

A problem is solved twice, the second time with resources that list their windows in another order.
The two searches take the same turns: they stand at the same placements, and for the next task they
find the same options, whatever is booked.  So they end alike, and their reports are the same.
-/

variable {α : Type}

/-- A schedule on a calendar with other resources. -/
def Schedule.withResources (schedule : Schedule α) (resources : List (Resource α)) : Schedule α :=
  { schedule with calendar := schedule.calendar.withResources resources }

@[simp] theorem Schedule.placements_withResources
    (schedule : Schedule α)
    (resources : List (Resource α)) :
    (schedule.withResources resources).placements = schedule.placements :=
  rfl

/-- A problem is another one whose resources list their windows in another order, as far as its
tasks do not tell. -/
def SchedulingProblem.Relists [Scalar α] (problem : SchedulingProblem α)
    (resources : List (Resource α)) : Prop :=
  List.Forall₂ (Resource.Relisted (problem.tasks.map (·.duration))) problem.resources resources

namespace Schedule

variable [Scalar α] {schedule : Schedule α} {resources : List (Resource α)}

/-- Taking the latest placement back leaves the resources. -/
theorem resources_of_withdraw_eq_ok
    {earlier : Schedule α}
    (withdrawn : schedule.withdraw = .ok earlier) :
    earlier.calendar.resources = schedule.calendar.resources := by
  unfold withdraw at withdrawn
  split at withdrawn
  · cases withdrawn
  · split at withdrawn
    · cases withdrawn
    · split at withdrawn
      · cases withdrawn
      · cases withdrawn
        rfl

theorem withdraw_withResources
    (schedule : Schedule α)
    (resources : List (Resource α)) :
    (schedule.withResources resources).withdraw =
      schedule.withdraw.map (·.withResources resources) := by
  unfold withdraw withResources Calendar.withResources
  dsimp only
  split
  · rfl
  · unfold Calendar.isBooked
    split
    · rfl
    · split <;> rfl

/-- A task of the problem has the same options. -/
theorem options_withResources
    [NumericScalar α]
    {problem : SchedulingProblem α}
    (relists : problem.Relists resources)
    (isOnProblem : schedule.calendar.resources = problem.resources)
    {task : Task α}
    (isTask : task ∈ problem.tasks)
    (maxCandidates : Nat) :
    (schedule.withResources resources).options (problem.withResources resources) maxCandidates
        task =
      schedule.options problem maxCandidates task := by
  have sameOptions :
      (problem.withResources resources).optionsFrom maxCandidates
          (schedule.calendar.withResources resources) task =
        problem.optionsFrom maxCandidates schedule.calendar task :=
    funext (SchedulingProblem.optionsFrom_withResources relists isOnProblem
      (List.mem_map_of_mem isTask) maxCandidates)
  unfold options SchedulingProblem.options withResources
  rw [sameOptions]
  rfl

end Schedule

namespace Scheduling

/-- A search for the same schedule on other resources. -/
def Setting.withResources (setting : Setting α) (resources : List (Resource α)) : Setting α :=
  { setting with problem := setting.problem.withResources resources }

/-- A search that stands at the same placements on other resources. -/
def Descent.withResources (state : Descent α) (resources : List (Resource α)) : Descent α :=
  { state with schedule := state.schedule.withResources resources }

/-- A turn that leads to the same placements on other resources. -/
def Turn.withResources (resources : List (Resource α)) : Turn α → Turn α
  | .onward state => .onward (state.withResources resources)
  | .ended halt? progress => .ended halt? progress

section Fields

variable (setting : Setting α) (state : Descent α) (resources : List (Resource α))

@[simp] theorem Setting.problem_withResources :
    (setting.withResources resources).problem = setting.problem.withResources resources :=
  rfl

@[simp] theorem Setting.tolerance_withResources :
    (setting.withResources resources).tolerance = setting.tolerance :=
  rfl

@[simp] theorem Setting.budget_withResources :
    (setting.withResources resources).budget = setting.budget :=
  rfl

@[simp] theorem Descent.schedule_withResources :
    (state.withResources resources).schedule = state.schedule.withResources resources :=
  rfl

@[simp] theorem Descent.progress_withResources :
    (state.withResources resources).progress = state.progress :=
  rfl

end Fields

variable [Scalar α] {problem : SchedulingProblem α} {setting : Setting α}
  {resources : List (Resource α)} {order : List (Task α)} {state : Descent α}

theorem metricsOf_withResources
    (relists : problem.Relists resources)
    (placements : List (Placement α)) :
    (problem.withResources resources).metricsOf placements = problem.metricsOf placements :=
  congrArg Assignment.ofNumbers (problem.metrics_withResources relists placements)

theorem judge_withResources
    (relists : problem.Relists resources)
    (tolerance : α)
    (placements : List (Placement α))
    (progress : Progress α) :
    judge (problem.withResources resources) tolerance placements progress =
      judge problem tolerance placements progress := by
  unfold judge
  rw [metricsOf_withResources relists]
  rfl

/-- A turn leaves the resources. -/
theorem resources_of_turn_eq_ok
    {next : Descent α}
    (turned : turn setting order state = .ok (.onward next)) :
    next.schedule.calendar.resources = state.schedule.calendar.resources := by
  cases turnDone_of_turn turned with
  | kept _ _ withdrawn => exact Schedule.resources_of_withdraw_eq_ok withdrawn
  | back _ _ withdrawn => exact Schedule.resources_of_withdraw_eq_ok withdrawn
  | tried _ _ _ => rfl

section Run

variable [NumericScalar α]

theorem untriedOf_withResources
    (relists : setting.problem.Relists resources)
    (isOnProblem : state.schedule.calendar.resources = setting.problem.resources)
    {task : Task α}
    (isTask : task ∈ setting.problem.tasks) :
    (state.withResources resources).untriedOf (setting.withResources resources) task =
      state.untriedOf setting task := by
  unfold Descent.untriedOf
  rw [← Schedule.options_withResources relists isOnProblem isTask setting.maxCandidates]
  rfl

/-- The two searches take the same turn. -/
theorem turn_withResources
    (relists : setting.problem.Relists resources)
    (areTasks : ∀ task ∈ order, task ∈ setting.problem.tasks)
    (isOnProblem : state.schedule.calendar.resources = setting.problem.resources) :
    turn (setting.withResources resources) order (state.withResources resources) =
      (turn setting order state).map (Turn.withResources resources) := by
  have sameWithdraw := state.schedule.withdraw_withResources resources
  unfold turn
  simp only [Setting.problem_withResources, Setting.tolerance_withResources,
    Setting.budget_withResources, Descent.schedule_withResources, Descent.progress_withResources,
    Schedule.placements_withResources, judge_withResources relists, sameWithdraw]
  cases isNext : order[state.schedule.placements.length]? with
  | none =>
      dsimp only
      rcases judge setting.problem setting.tolerance state.schedule.placements
        state.progress with failure | ⟨_ | halt, judged⟩
      · rfl
      · cases state.schedule.withdraw <;> rfl
      · rfl
  | some task =>
      have isTask := areTasks task (List.mem_of_getElem? isNext)
      dsimp only
      rw [untriedOf_withResources relists isOnProblem isTask]
      rcases state.untriedOf setting task with lapse | ⟨_ | ⟨placement, rest⟩, others⟩
      · rfl
      · dsimp only [Except.mapError, bind, Except.bind]
        split
        · rfl
        · cases state.schedule.withdraw <;> rfl
      · dsimp only [Except.mapError, bind, Except.bind]
        split <;> rfl

/-- The two searches end alike. -/
theorem run_withResources
    (relists : setting.problem.Relists resources)
    (areTasks : ∀ task ∈ order, task ∈ setting.problem.tasks)
    (state : Descent α)
    (isOnProblem : state.schedule.calendar.resources = setting.problem.resources) :
    run (setting.withResources resources) order (state.withResources resources) =
      run setting order state := by
  have sameTurn := turn_withResources relists areTasks isOnProblem
  fun_induction run setting order state with
  | case1 state cause turned =>
      rw [turned] at sameTurn
      exact run_eq_of_turn_error sameTurn
  | case2 state halt? progress turned =>
      rw [turned] at sameTurn
      exact run_eq_of_turn_ended sameTurn
  | case3 state next turned inductionHypothesis =>
      have staysOnProblem :
          next.schedule.calendar.resources = setting.problem.resources :=
        (resources_of_turn_eq_ok turned).trans isOnProblem
      rw [turned] at sameTurn
      rw [run_eq_of_turn_onward sameTurn]
      exact inductionHypothesis staysOnProblem (turn_withResources relists areTasks staysOnProblem)

/-- The two greedy passes place the same, and leave the same tasks. -/
theorem greedy_withResources
    (relists : problem.Relists resources)
    (maxCandidates : Nat)
    (schedule : Schedule α)
    (isOnProblem : schedule.calendar.resources = problem.resources)
    (areTasks : ∀ task ∈ order, task ∈ problem.tasks) :
    greedy (problem.withResources resources) maxCandidates (schedule.withResources resources)
        order =
      (greedy problem maxCandidates schedule order).map fun (outcome, unplaced) =>
        (outcome.withResources resources, unplaced) := by
  induction order generalizing schedule with
  | nil => rfl
  | cons task rest inductionHypothesis =>
      have restAreTasks : ∀ other ∈ rest, other ∈ problem.tasks :=
        fun other member => areTasks other (List.mem_cons_of_mem task member)
      have sameMissing :
          missingPrerequisites (schedule.withResources resources) task =
            missingPrerequisites schedule task := rfl
      have sameOptions := Schedule.options_withResources relists isOnProblem
        (areTasks task List.mem_cons_self) maxCandidates
      unfold greedy
      dsimp only
      rw [sameMissing, sameOptions]
      split
      · rw [inductionHypothesis schedule isOnProblem restAreTasks]
        cases greedy problem maxCandidates schedule rest <;> rfl
      · rcases schedule.options problem maxCandidates task with lapse | _ | ⟨placement, others⟩
        · rfl
        · change (do
            let (outcome, unplaced) ← greedy (problem.withResources resources) maxCandidates
              (schedule.withResources resources) rest
            return (outcome, Unplaced.withoutOption task.identifier :: unplaced)) = _
          rw [inductionHypothesis schedule isOnProblem restAreTasks]
          change _ = (do
            let (outcome, unplaced) ← greedy problem maxCandidates schedule rest
            return (outcome, Unplaced.withoutOption task.identifier :: unplaced)).map _
          cases greedy problem maxCandidates schedule rest <;> rfl
        · exact inductionHypothesis (schedule.place placement) isOnProblem restAreTasks

end Run

/-!
## The reports are the same
-/

theorem judged_withResources
    (relists : setting.problem.Relists resources)
    (report : Report α) :
    judged (setting.withResources resources) report = judged setting report := by
  unfold judged
  simp only [Setting.problem_withResources, metricsOf_withResources relists]
  rfl

theorem solution_withResources
    (relists : problem.Relists resources)
    (tolerance runtime : α)
    (report : Report α) :
    solution (problem.withResources resources) tolerance runtime report =
      solution problem tolerance runtime report := by
  unfold solution
  simp only [problem.metrics_withResources relists]
  rfl

variable [NumericScalar α]

theorem reportOn_withResources
    (relists : setting.problem.Relists resources)
    (areTasks : ∀ task ∈ order, task ∈ setting.problem.tasks)
    (halt? : Option (Halt α))
    (progress : Progress α) :
    reportOn (setting.withResources resources) order halt? progress =
      reportOn setting order halt? progress := by
  have sameGreedy :
      greedy (setting.withResources resources).problem
          (setting.withResources resources).maxCandidates
          (.start (setting.withResources resources).problem) order =
        (greedy setting.problem setting.maxCandidates (.start setting.problem) order).map
          fun (outcome, unplaced) => (outcome.withResources resources, unplaced) :=
    greedy_withResources relists setting.maxCandidates (.start setting.problem) rfl areTasks
  unfold reportOn greedyReport
  simp only [judged_withResources relists, sameGreedy]
  rcases greedy setting.problem setting.maxCandidates (.start setting.problem) order with
    lapse | ⟨schedule, unplaced⟩ <;> rfl

/-- The two searches have the same report. -/
theorem search_withResources
    (setting : Setting α)
    (relists : setting.problem.Relists resources)
    (watch : Watch α) :
    search (setting.withResources resources) watch = search setting watch := by
  have areTasks : ∀ task ∈ setting.problem.order.1, task ∈ setting.problem.tasks :=
    fun _ member => SchedulingProblem.mem_tasks_of_mem_order member
  have sameOrder : (setting.withResources resources).problem.order = setting.problem.order := rfl
  have sameRun :
      run (setting.withResources resources) setting.problem.order.1
          (.start (setting.withResources resources).problem watch) =
        run setting setting.problem.order.1 (.start setting.problem watch) :=
    run_withResources relists areTasks (.start setting.problem watch) rfl
  unfold search
  simp only [sameOrder, sameRun, reportOn_withResources relists areTasks]

/--
It does not matter in which order resources list their windows, as long as windows of different
capacities that both cover the whole of some task stay in their order.  Listing the other windows in
another order leaves the outcome of a solve as it is, under the same limits and the same clock: its
status, its values, its schedule, and also how it fails.
-/
theorem solve_ignores_listing
    (problem : SchedulingProblem α)
    (resources : List (Resource α))
    (relists : problem.Relists resources)
    (parameters : SchedulingParameters α)
    (watch : Watch α) :
    solve { problem with resources := resources } parameters watch =
      solve problem parameters watch := by
  have sameSearch (looked : Watch α) :
      search (settingOf (problem.withResources resources) parameters) looked =
        search (settingOf problem parameters) looked :=
    search_withResources (settingOf problem parameters) relists looked
  change solve (problem.withResources resources) parameters watch = _
  unfold solve attempt searchUnlessCancelled
  simp only [sameSearch, solution_withResources relists]

/-- A lift of three hours for two of a crew, which lists its windows in an order. -/
def liftProblem (windows : List (AvailabilityWindow Extended)) : SchedulingProblem Extended where
  identifier := "lift"
  name := ""
  kind := .scheduling
  description := ""
  objectives := SchedulingProblem.usualObjectives "makespan"
  constraints := []
  decisions := []
  parameters := none
  status := .pending
  tasks := [⟨"lift", "", .finite 3, 0, [], [⟨.human, .finite 2, [], []⟩], [], []⟩]
  resources := [⟨"crew", "", .human, .finite 2, windows, [], 0, none⟩]
  horizon := ⟨0, .finite 10, .hour⟩
  preferences := ⟨false, false, true, true, true⟩

/-- One of the crew is there by day, and two are by night.  They overlap for two hours, in which no
lift fits, so the night may be listed before the day. -/
theorem liftProblem_ignores_listing :
    solve (liftProblem [⟨.finite 4, .finite 10, .finite 2⟩, ⟨0, .finite 6, 1⟩]) plainParameters
        Routing.quietWatch =
      solve (liftProblem [⟨0, .finite 6, 1⟩, ⟨.finite 4, .finite 10, .finite 2⟩]) plainParameters
        Routing.quietWatch := by
  have commute :
      AvailabilityWindow.Commutes (α := Extended) [.finite 3] ⟨0, .finite 6, 1⟩
        ⟨.finite 4, .finite 10, .finite 2⟩ :=
    AvailabilityWindow.commutes_of_lt (by decide +kernel)
  have relists :
      (liftProblem [⟨0, .finite 6, 1⟩, ⟨.finite 4, .finite 10, .finite 2⟩]).Relists
        (liftProblem [⟨.finite 4, .finite 10, .finite 2⟩, ⟨0, .finite 6, 1⟩]).resources :=
    .cons ⟨.of_perm (.swap _ _ []) (List.pairwise_pair.mpr commute), rfl⟩ .nil
  exact solve_ignores_listing _ _ relists plainParameters Routing.quietWatch

/-- The windows of a crew of which one is there all day, and two are as well. -/
def roundTheClock : List (AvailabilityWindow Extended) :=
  [⟨0, .finite 10, 1⟩, ⟨0, .finite 10, .finite 2⟩]

/-- The lift that is placed where the two of the crew are found. -/
def liftPlacement : Placement Extended :=
  ⟨"lift", 0, .finite 3, [("crew", .finite 2)], 0, false⟩

theorem roundTheClock_valid :
    (liftProblem roundTheClock).Valid where
  tasks_ne_nil := by simp [liftProblem]
  references := by cbv
  quantity_pos := by decide +kernel
  capacity_nonneg := by decide +kernel

theorem exists_solve_roundTheClock :
    ∃ outcome,
      solve (liftProblem roundTheClock) plainParameters Routing.quietWatch = .ok outcome ∧
        outcome.status = .infeasible := by
  have isOver :
      endWithin (settingOf (liftProblem roundTheClock) plainParameters)
          (liftProblem roundTheClock).order.1 10
          (.start (liftProblem roundTheClock) Routing.quietWatch.lookAtFlag.2) =
        some (.ok (none, ⟨0, 0, none, [], ⟨fun _ => 0, fun _ => false, 0, 1⟩⟩)) := by
    cbv
  have reported :
      reportOn (settingOf (liftProblem roundTheClock) plainParameters)
          (liftProblem roundTheClock).order.1 none
          ⟨0, 0, none, [], ⟨fun _ => 0, fun _ => false, 0, 1⟩⟩ =
        .ok
          { status := .infeasible
            placements := []
            violations := [⟨"lift", 1, .critical, some .noPlacement⟩]
            iterations := 0
            history := []
            details := [("topological_order", .texts ["lift"]), ("backtracks", .natural 0)] } := by
    cbv
  exact exists_solve_status_eq rfl (search_eq_ok_of_endWithin (by cbv) isOver reported) (by cbv)
    (by cbv)

theorem exists_solve_reverse_roundTheClock :
    ∃ outcome,
      solve (liftProblem roundTheClock.reverse) plainParameters Routing.quietWatch = .ok outcome ∧
        outcome.status = .feasible := by
  have isOver :
      endWithin (settingOf (liftProblem roundTheClock.reverse) plainParameters)
          (liftProblem roundTheClock.reverse).order.1 10
          (.start (liftProblem roundTheClock.reverse) Routing.quietWatch.lookAtFlag.2) =
        some (.ok (some (.found [liftPlacement]),
          ⟨1, 0, none, [⟨1, .finite 3, 0, 0⟩], ⟨fun _ => 0, fun _ => false, 1, 2⟩⟩)) := by
    cbv
  have reported :
      reportOn (settingOf (liftProblem roundTheClock.reverse) plainParameters)
          (liftProblem roundTheClock.reverse).order.1 (some (.found [liftPlacement]))
          ⟨1, 0, none, [⟨1, .finite 3, 0, 0⟩], ⟨fun _ => 0, fun _ => false, 1, 2⟩⟩ =
        .ok
          { status := .feasible
            placements := [liftPlacement]
            violations := []
            iterations := 1
            history := [⟨1, .finite 3, 0, 0⟩]
            details := [("topological_order", .texts ["lift"]), ("backtracks", .natural 0)] } := by
    cbv
  exact exists_solve_status_eq rfl (search_eq_ok_of_endWithin (by cbv) isOver reported) (by cbv)
    (by cbv)

/-- Where two windows cover the same day, a lift finds the crew of the one that is listed first. -/
theorem solve_depends_on_listing :
    (liftProblem roundTheClock).Valid ∧
      roundTheClock.Perm roundTheClock.reverse ∧
        ∃ outcome other,
          solve (liftProblem roundTheClock) plainParameters Routing.quietWatch = .ok outcome ∧
            solve (liftProblem roundTheClock.reverse) plainParameters Routing.quietWatch =
                .ok other ∧
              outcome.status = .infeasible ∧ other.status = .feasible := by
  obtain ⟨outcome, solved, isStatus⟩ := exists_solve_roundTheClock
  obtain ⟨other, solvedToo, isStatusToo⟩ := exists_solve_reverse_roundTheClock
  exact ⟨roundTheClock_valid, (List.reverse_perm _).symm, outcome, other, solved, solvedToo,
    isStatus, isStatusToo⟩

end Scheduling

end Optima
