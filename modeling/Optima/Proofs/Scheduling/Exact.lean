import Mathlib
import Optima.Proofs.Scalar.Exact
import Optima.Proofs.Scheduling.Order
import Optima.Proofs.Scheduling.Reported
import Optima.Proofs.Scheduling.Search

namespace Optima

/-!
# Solves that can be followed to their end

A search that is over within a number of turns is the search: this is how a run on
exact numbers is evaluated.
-/

namespace Scheduling

section Evaluation

variable {α : Type} [Scalar α] {setting : Setting α} {order : List (Task α)}

/-- The end of a search, if it is over within a number of turns. -/
def endWithin (setting : Setting α) (order : List (Task α)) :
    Nat → Descent α → Option (Except (SearchFailure α) (Option (Halt α) × Progress α))
  | 0, _ => none
  | count + 1, state =>
    match turn setting order state with
    | .error cause => some (.error cause)
    | .ok (.ended halt? progress) => some (.ok (halt?, progress))
    | .ok (.onward next) => endWithin setting order count next

/-- The end of a search that is over within a number of turns is its end. -/
theorem run_eq_of_endWithin_eq_some
    {count : Nat}
    {state : Descent α}
    {ending : Except (SearchFailure α) (Option (Halt α) × Progress α)}
    (isOver : endWithin setting order count state = some ending) :
    run setting order state = ending := by
  induction count generalizing state with
  | zero =>
      simp [endWithin] at isOver
  | succ count inductionHypothesis =>
      unfold endWithin at isOver
      cases turned : turn setting order state with
      | error cause =>
          simp only [turned, Option.some.injEq] at isOver
          rw [run_eq_of_turn_error turned, isOver]
      | ok next =>
          cases next with
          | ended halt? progress =>
              simp only [turned, Option.some.injEq] at isOver
              rw [run_eq_of_turn_ended turned, isOver]
          | onward next =>
              simp only [turned] at isOver
              rw [run_eq_of_turn_onward turned, inductionHypothesis isOver]

/-- A search that is over within a number of turns has the report on its end. -/
theorem search_eq_ok_of_endWithin
    {watch : Watch α}
    {count : Nat}
    {halt? : Option (Halt α)}
    {progress : Progress α}
    {report : Report α}
    (noneCyclic : setting.problem.order.2 = [])
    (isOver :
      endWithin setting setting.problem.order.1 count (.start setting.problem watch) =
        some (.ok (halt?, progress)))
    (reported : reportOn setting setting.problem.order.1 halt? progress = .ok report) :
    search setting watch = .ok (report, progress.watch) := by
  unfold search
  simp only [noneCyclic, List.isEmpty_nil, Bool.not_true, Bool.false_eq_true, ↓reduceIte,
    run_eq_of_endWithin_eq_some isOver]
  simp only [reported, bind, Except.bind, pure, Except.pure]

/-- A report whose metrics have values gives a solution. -/
theorem exists_solution_eq_ok
    {problem : SchedulingProblem α}
    {tolerance : α}
    (runtime : α)
    {report : Report α}
    (valued :
      (Objectives.values problem.objectives (problem.metricsOf report.placements)).isOk = true)
    (priced :
      (Sensitivity.ofMetrics problem.toProblem (problem.metricsOf report.placements)
        tolerance).isOk = true) :
    ∃ outcome, solution problem tolerance runtime report = .ok outcome := by
  unfold solution
  dsimp only
  split
  · exact ⟨_, rfl⟩
  · unfold SchedulingProblem.metricsOf at valued priced
    cases values :
        Objectives.values problem.objectives
          (.ofNumbers (problem.metrics report.placements)) with
    | error failure =>
        simp [values, Except.isOk, Except.toBool] at valued
    | ok value =>
        cases prices :
            Sensitivity.ofMetrics problem.toProblem
              (.ofNumbers (problem.metrics report.placements)) tolerance with
        | error failure =>
            simp [prices, Except.isOk, Except.toBool] at priced
        | ok sensitivity =>
            exact ⟨_, rfl⟩

/-- A search that ends with a report whose metrics have values gives a solve that reports its
placements. -/
theorem exists_solve_eq_ok
    {problem : SchedulingProblem α}
    {parameters : SchedulingParameters α}
    {watch after : Watch α}
    {report : Report α}
    (started : watch.lookAtFlag.1 = false)
    (searched :
      search (settingOf problem parameters) watch.lookAtFlag.2 = .ok (report, after))
    (silent : "schedule" ∉ report.details.map (·.1))
    (valued :
      (Objectives.values problem.objectives (problem.metricsOf report.placements)).isOk = true)
    (priced :
      (Sensitivity.ofMetrics problem.toProblem (problem.metricsOf report.placements)
        parameters.tolerance).isOk = true) :
    ∃ outcome placements,
      solve problem parameters watch = .ok outcome ∧
        reportedSchedule? outcome = some placements ∧
        placements.Perm (report.placements.map .ofPlacement) := by
  obtain ⟨outcome, ended⟩ :=
    exists_solution_eq_ok after.lookAtClock.1 valued priced
  obtain ⟨placements, isReported, samePlacements⟩ :=
    reportedSchedule?_of_solution silent ended
  refine ⟨outcome, placements, ?_, isReported, samePlacements⟩
  unfold solve attempt searchUnlessCancelled
  simp only [started, Bool.false_eq_true, ↓reduceIte, searched]
  simp only [bind, Except.bind, ended, Except.mapError]

/-- A search that ends with a report whose metrics have values gives a solve with its status. -/
theorem exists_solve_status_eq
    {problem : SchedulingProblem α}
    {parameters : SchedulingParameters α}
    {watch after : Watch α}
    {report : Report α}
    (started : watch.lookAtFlag.1 = false)
    (searched :
      search (settingOf problem parameters) watch.lookAtFlag.2 = .ok (report, after))
    (valued :
      (Objectives.values problem.objectives (problem.metricsOf report.placements)).isOk = true)
    (priced :
      (Sensitivity.ofMetrics problem.toProblem (problem.metricsOf report.placements)
        parameters.tolerance).isOk = true) :
    ∃ outcome, solve problem parameters watch = .ok outcome ∧ outcome.status = report.status := by
  obtain ⟨outcome, ended⟩ :=
    exists_solution_eq_ok after.lookAtClock.1 valued priced
  refine ⟨outcome, ?_, (takes_of_solution_eq_ok ended).isStatus⟩
  unfold solve attempt searchUnlessCancelled
  simp only [started, Bool.false_eq_true, ↓reduceIte, searched]
  simp only [bind, Except.bind, ended, Except.mapError]

end Evaluation

/-- Parameters that leave a search for a schedule room enough. -/
def plainParameters : SchedulingParameters Extended where
  maxIterations := 10
  tolerance := 0
  timeLimit := none
  seed := none
  convergence := ⟨.objectiveChange, 0, 1⟩
  parallelization := ⟨false, 1, .masterSlave⟩
  defaultBounds := (0, 1)
  maxCandidates := 2

/-- A workshop in which only Ann can glue, and the glue dries soon: Bob has to sand. -/
def workshopProblem : SchedulingProblem Extended where
  identifier := "workshop"
  name := ""
  kind := .scheduling
  description := ""
  objectives := SchedulingProblem.usualObjectives "makespan"
  constraints := []
  decisions := []
  parameters := none
  status := .pending
  tasks :=
    [⟨"sand", "", .finite 2, 1, [], [⟨.human, 1, [], []⟩], [], []⟩,
     ⟨"glue", "", .finite 2, 0, [], [⟨.human, 1, ["glueing"], []⟩],
       [⟨0, .finite 2, .required⟩], []⟩,
     ⟨"pack", "", 1, 0, ["sand", "glue"], [⟨.human, 1, [], []⟩], [], []⟩]
  resources :=
    [⟨"ann", "", .human, 1, [], ["glueing"], 0, none⟩,
     ⟨"bob", "", .human, 1, [⟨0, .finite 3, 1⟩], [], 1, none⟩]
  horizon := ⟨0, .finite 4, .hour⟩
  preferences := ⟨false, false, true, false, true⟩

/-- The schedule that the search finds, after it has gone back once. -/
def workshopPlacements : List (Placement Extended) :=
  [⟨"sand", 0, .finite 2, [("bob", 1)], .finite 2, false⟩,
   ⟨"glue", 0, .finite 2, [("ann", 1)], 0, false⟩,
   ⟨"pack", .finite 2, .finite 3, [("ann", 1)], 0, false⟩]

/-- The end of the search in the workshop. -/
def workshopEnd : Progress Extended where
  iterations := 4
  backtracks := 1
  fallback := none
  history := [⟨4, .finite 3, 0, 0⟩]
  watch := ⟨fun _ => 0, fun _ => false, 1, 5⟩

/-- The report on the end of the search in the workshop. -/
def workshopReport : Report Extended where
  status := .feasible
  placements := workshopPlacements
  violations := []
  iterations := 4
  history := [⟨4, .finite 3, 0, 0⟩]
  details :=
    [("topological_order", .texts ["sand", "glue", "pack"]), ("backtracks", .natural 1)]

/-- The workshop is a valid problem. -/
theorem workshopProblem_valid :
    workshopProblem.Valid where
  tasks_ne_nil := by simp [workshopProblem]
  references := by cbv
  quantity_pos := by decide +kernel
  capacity_nonneg := by decide +kernel

/-- The solve in the workshop reports the schedule that its search finds. -/
theorem exists_solve_workshopProblem :
    ∃ outcome placements,
      solve workshopProblem plainParameters Routing.quietWatch = .ok outcome ∧
        reportedSchedule? outcome = some placements ∧
        placements.Perm (workshopPlacements.map .ofPlacement) := by
  have isOver :
      endWithin (settingOf workshopProblem plainParameters) workshopProblem.order.1 10
          (.start workshopProblem Routing.quietWatch.lookAtFlag.2) =
        some (.ok (some (.found workshopPlacements), workshopEnd)) := by
    cbv
  have reported :
      reportOn (settingOf workshopProblem plainParameters) workshopProblem.order.1
          (some (.found workshopPlacements)) workshopEnd = .ok workshopReport := by
    cbv
  have searched :
      search (settingOf workshopProblem plainParameters) Routing.quietWatch.lookAtFlag.2 =
        .ok (workshopReport, workshopEnd.watch) :=
    search_eq_ok_of_endWithin (by cbv) isOver reported
  exact exists_solve_eq_ok rfl searched (by simp [workshopReport]) (by cbv) (by cbv)

end Scheduling

end Optima
