import Optima.Proofs.Scheduling.Reported
import Optima.Proofs.Scheduling.Search

namespace Optima

/-!
# What is reported has been built

Whichever way the search ends, the solution reports a schedule that has been built
option by option from tasks of the problem in their order.
-/

namespace Scheduling

variable {α : Type} [Scalar α]

/-- Placements of some tasks of a problem that have been made option by option. -/
def IsBuilt (problem : SchedulingProblem α) (maxCandidates : Nat)
    (placements : List (Placement α)) : Prop :=
  ∃ tasks schedule untried,
    tasks.Sublist problem.order.1 ∧
      Trail problem maxCandidates tasks schedule untried ∧
      schedule.placements = placements

/-- No placements are built at once. -/
theorem IsBuilt.nil
    (problem : SchedulingProblem α)
    (maxCandidates : Nat) :
    IsBuilt problem maxCandidates [] :=
  ⟨[], .start problem, [], List.nil_sublist _, .start, rfl⟩

/-- A complete schedule has been built. -/
theorem IsComplete.isBuilt
    {setting : Setting α}
    {placements : List (Placement α)}
    (isComplete : IsComplete setting setting.problem.order.1 placements) :
    IsBuilt setting.problem setting.maxCandidates placements := by
  obtain ⟨schedule, untried, trail, rfl⟩ := isComplete
  exact ⟨_, schedule, untried, List.Sublist.refl _, trail, rfl⟩

/-- The placements of a report have been built, and its details leave the schedule to the
solution. -/
structure Report.Sound (problem : SchedulingProblem α) (maxCandidates : Nat) (report : Report α) :
    Prop where
  isBuilt : IsBuilt problem maxCandidates report.placements
  silent : "schedule" ∉ report.details.map (·.1)

/-- Judging a report leaves its placements and details as they are. -/
theorem Report.Sound.judged
    {problem : SchedulingProblem α}
    {maxCandidates : Nat}
    {setting : Setting α}
    {report : Report α}
    (sound : report.Sound problem maxCandidates) :
    Delivers (Report.Sound problem maxCandidates)
      ((judged setting report).mapError .evaluation) := by
  apply Delivers.of_evaluation
  intro outcome isJudged
  obtain ⟨missed, -, isJudged⟩ := bind_eq_ok isJudged
  cases isJudged
  exact ⟨sound.isBuilt, sound.silent⟩

variable [OrderedScalar α]

/-- The report on a search without a complete schedule is sound. -/
theorem greedyReport_delivers
    {setting : Setting α}
    (ordered : setting.problem.OrderedTasks setting.problem.order.1)
    (interruption? : Option Interruption)
    {report : Report α}
    (sound : report.Sound setting.problem setting.maxCandidates) :
    Delivers (Report.Sound setting.problem setting.maxCandidates)
      (greedyReport setting setting.problem.order.1 interruption? report) := by
  have fromStart :
      Trail setting.problem setting.maxCandidates [] (.start setting.problem) [] := .start
  obtain ⟨schedule, unplaced, placed, untried, isGreedy, trail, isPart⟩ :=
    exists_greedy_eq_ok fromStart setting.problem.order.1 (by simpa using ordered.nodup)
  unfold greedyReport
  refine Delivers.lapse_bind isGreedy ?_
  have isBuilt : IsBuilt setting.problem setting.maxCandidates schedule.placements :=
    ⟨placed, schedule, untried, isPart, by simpa using trail, rfl⟩
  have silent : ∀ isComplete,
      "schedule" ∉
        (report.details ++ greedyDetails (α := α) isComplete interruption?).map (·.1) := by
    intro isComplete
    rw [List.map_append, List.mem_append, not_or]
    refine ⟨sound.silent, ?_⟩
    unfold greedyDetails
    split
    · simp
    · split <;> simp
    · simp
  dsimp only
  split
  · exact Report.Sound.judged ⟨isBuilt, silent _⟩
  · split
    · exact ⟨sound.isBuilt, silent _⟩
    · exact Report.Sound.judged ⟨isBuilt, silent _⟩

/-- The report on the end of a search is sound. -/
theorem reportOn_delivers
    {setting : Setting α}
    (ordered : setting.problem.OrderedTasks setting.problem.order.1)
    {halt? : Option (Halt α)}
    {progress : Progress α}
    (ends : EndsSoundly setting setting.problem.order.1 halt? progress) :
    Delivers (Report.Sound setting.problem setting.maxCandidates)
      (reportOn setting setting.problem.order.1 halt? progress) := by
  unfold reportOn
  dsimp only
  split
  · rename_i placements
    exact Report.Sound.judged
      ⟨(ends.found placements rfl).isBuilt, by simp [Report.bare]⟩
  · rename_i placements notFound isKept
    exact Report.Sound.judged
      ⟨(ends.progress_sound placements isKept).isBuilt, by simp [Report.bare]⟩
  · exact greedyReport_delivers ordered _ ⟨.nil _ _, by simp [Report.bare]⟩

/-- A search for a schedule ends with a sound report. -/
theorem search_delivers
    {setting : Setting α}
    (someTasks : setting.problem.tasks ≠ [])
    (watch : Watch α) :
    Delivers (fun (report, _) => report.Sound setting.problem setting.maxCandidates)
      (search setting watch) := by
  have ordered := setting.problem.orderedTasks_order
  unfold search
  dsimp only
  split
  · exact ⟨.nil _ _, by simp [Report.bare]⟩
  · rename_i noneCyclic
    have noneLeft : setting.problem.order.2 = [] := by simpa using noneCyclic
    have nonempty : setting.problem.order.1 ≠ [] :=
      SchedulingProblem.order_ne_nil someTasks noneLeft
    refine (run_delivers ordered nonempty (.start setting _ watch)).bind ?_
    rintro ⟨halt?, progress⟩ ends
    refine (reportOn_delivers ordered ends).bind ?_
    intro report sound
    exact sound

/-- A solution reports placements that have been built. -/
def ReportsBuilt (problem : SchedulingProblem α) (maxCandidates : Nat) (outcome : Solution α) :
    Prop :=
  ∃ placements reported,
    IsBuilt problem maxCandidates placements ∧
      reportedSchedule? outcome = some reported ∧
      reported.Perm (placements.map .ofPlacement)

/-- An attempt to solve a problem does not lapse, and reports placements that have been built. -/
theorem attempt_delivers
    {problem : SchedulingProblem α}
    (someTasks : problem.tasks ≠ [])
    (parameters : SchedulingParameters α)
    (watch : Watch α) :
    Delivers (ReportsBuilt problem parameters.maxCandidates)
      (attempt problem parameters watch) := by
  have searched :
      Delivers (fun (report, _) => report.Sound problem parameters.maxCandidates)
        (searchUnlessCancelled (settingOf problem parameters) watch) := by
    unfold searchUnlessCancelled
    dsimp only
    split
    · exact ⟨.nil _ _, by simp [Report.bare]⟩
    · exact search_delivers someTasks _
  refine searched.bind ?_
  rintro ⟨report, after⟩ sound
  apply Delivers.of_evaluation
  intro outcome ended
  obtain ⟨reported, isReported, samePlacements⟩ :=
    reportedSchedule?_of_solution sound.silent ended
  exact ⟨report.placements, reported, sound.isBuilt, isReported, samePlacements⟩

/-- Placements that have been built have been granted one after the other. -/
theorem IsBuilt.grantedInTurn
    {problem : SchedulingProblem α}
    {maxCandidates : Nat}
    {placements : List (Placement α)}
    (isBuilt : IsBuilt problem maxCandidates placements) :
    GrantedInTurn problem placements := by
  obtain ⟨tasks, schedule, untried, isPart, trail, rfl⟩ := isBuilt
  have ordered := problem.orderedTasks_order
  exact trail.grantedInTurn
    (fun task member => ordered.mem_tasks task (isPart.subset member))
    (ordered.nodup.sublist (isPart.map _))

/-- A solution reports placements that have been granted one after the other. -/
theorem exists_granted_of_solve_eq_ok
    {problem : SchedulingProblem α}
    (valid : problem.Valid)
    {parameters : SchedulingParameters α}
    {watch : Watch α}
    {outcome : Solution α}
    (solved : solve problem parameters watch = .ok outcome) :
    ∃ placements reported,
      GrantedInTurn problem placements ∧
        reportedSchedule? outcome = some reported ∧
        reported.Perm (placements.map .ofPlacement) := by
  have delivered :=
    attempt_delivers valid.tasks_ne_nil parameters watch
  rw [mapError_eq_ok solved] at delivered
  obtain ⟨placements, reported, isBuilt, isReported, samePlacements⟩ := delivered
  exact ⟨placements, reported, isBuilt.grantedInTurn, isReported,
    samePlacements⟩

end Scheduling

end Optima
