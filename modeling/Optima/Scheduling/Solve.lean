import Optima.Problem.Sensitivity
import Optima.Scheduling.Search

namespace Optima

/-!
# Scheduling

What the end of the search for a schedule says of the problem.
-/

namespace Scheduling

variable {α : Type}

/-- What a solution is made of. -/
structure Report (α : Type) where
  status : SolutionStatus
  placements : List (Placement α)
  violations : List (Violation α)
  iterations : Nat
  history : List (ConvergencePoint α)
  details : List (String × Document α)

/-- A report that has a status and details only. -/
def Report.bare (status : SolutionStatus) (details : List (String × Document α)) : Report α :=
  ⟨status, [], [], 0, [], details⟩

/-- The quantity of a resource in use as a document. -/
def useDocument (use : String × α) : Document α :=
  .mapping [("resource_id", .text use.1), ("quantity", .number use.2)]

/-- A placement as a document. -/
def placementDocument (placement : Placement α) : Document α :=
  .mapping [("task_id", .text placement.task),
    ("start", .number placement.start), ("end", .number placement.finish),
    ("resources", .listOf useDocument placement.resources),
    ("cost", .number placement.cost)]

/-- What is told of a placed task: its start, its end and its resources. -/
def placementValues (placement : Placement α) : List (String × Datum α) :=
  [(placement.task ++ "_start", .number placement.start),
   (placement.task ++ "_end", .number placement.finish),
   (placement.task ++ "_resource", .text (",".intercalate (placement.resources.map (·.1))))]

/-- The violation of a task that waits for a cycle. -/
def cyclicViolation [Scalar α] (task : Task α) : Violation α :=
  ⟨task.identifier, 1, .critical, some .cyclicTask⟩

/-- The violation of a task that is not placed. -/
def Unplaced.violation [Scalar α] : Unplaced → Violation α
  | .blocked task prerequisites =>
    let sorted := prerequisites.eraseDups.mergeSort fun first second => decide (first ≤ second)
    ⟨task, 1, .high, some (.blockedTask sorted)⟩
  | .withoutOption task => ⟨task, 1, .critical, some .noPlacement⟩

/-- The interruption that ended a search. -/
def Halt.interruption? : Halt α → Option Interruption
  | .found _ => none
  | .interrupted interruption => some interruption

/-- The status of a schedule in which every task took its first option. -/
def greedyStatus : Option Interruption → SolutionStatus
  | none => .feasible
  | some .cancelled => .iterationLimit
  | some (.exhausted status) => status

/-- What is said of a search that did not reach a complete schedule. -/
def greedyDetails (isComplete : Bool) : Option Interruption → List (String × Document α)
  | some .cancelled => [("cancelled", .boolean true)]
  | some (.exhausted _) => if isComplete then [] else [("budget_exhausted", .boolean true)]
  | none => []

variable [Scalar α]

/-- Whether one placement comes before another in the order of starts and tasks. -/
def earlierFirst (first second : Placement α) : Bool :=
  if first.start == second.start then decide (first.task ≤ second.task)
  else first.start < second.start

/-- A report on placements, which are judged by the constraints. -/
def judged (setting : Setting α) (report : Report α) : Except (EvalFailure α) (Report α) := do
  let metrics := setting.problem.metricsOf report.placements
  let missed ← Constraints.violations setting.tolerance metrics setting.problem.constraints
  let violations := report.violations ++ missed
  return { report with
    violations := violations
    status := if violations.isEmpty then report.status else .infeasible }

/-- The report on a search that did not reach a complete schedule. -/
def greedyReport (setting : Setting α) (order : List (Task α))
    (interruption? : Option Interruption) (report : Report α) :
    Except (SearchFailure α) (Report α) := do
  let (schedule, unplaced) ←
    (greedy setting.problem setting.maxCandidates (.start setting.problem) order).mapError .lapse
  let details := report.details ++ greedyDetails unplaced.isEmpty interruption?
  if unplaced.isEmpty then
    (judged setting { report with
      status := greedyStatus interruption?
      placements := schedule.placements
      details := details }).mapError .evaluation
  else if interruption? = some .cancelled then
    return { report with status := .cancelled, details := details }
  else
    (judged setting { report with
      status := .infeasible
      placements := schedule.placements
      violations := unplaced.map Unplaced.violation
      details := details }).mapError .evaluation

/-- The report on the end of a search. -/
def reportOn (setting : Setting α) (order : List (Task α)) (halt? : Option (Halt α))
    (progress : Progress α) : Except (SearchFailure α) (Report α) :=
  let report : Report α :=
    { Report.bare .infeasible [("topological_order", .texts (order.map (·.identifier))),
        ("backtracks", .natural progress.backtracks)] with
      iterations := progress.iterations
      history := progress.history.reverse }
  match halt?, progress.fallback with
  | some (.found placements), _ =>
    (judged setting { report with status := .feasible, placements := placements }).mapError
      .evaluation
  | _, some placements =>
    (judged setting { report with placements := placements }).mapError .evaluation
  | _, none => greedyReport setting order (halt?.bind Halt.interruption?) report

/-- The solution that a report is. -/
def solution (problem : SchedulingProblem α) (tolerance runtime : α) (report : Report α) :
    Except (EvalFailure α) (Solution α) := do
  let account (details : List (String × Document α)) : SearchAccount α :=
    { algorithm := label Algorithm.scheduling
      iterations := report.iterations
      runtime := runtime
      history := report.history
      details := Table.ofList details }
  let bare := { Solution.bare problem.identifier report.status (account report.details) with
    violations := report.violations }
  if report.placements.isEmpty then return bare
  else
    let numbers := problem.metrics report.placements
    let metrics := Assignment.ofNumbers numbers
    let values ← Objectives.values problem.objectives metrics
    let sensitivity ← Sensitivity.ofMetrics problem.toProblem metrics tolerance
    let schedule := report.placements.mergeSort earlierFirst
    return { bare with
      objectiveValues := (Table.mk numbers).merge values
      variableValues := Table.ofList (report.placements.flatMap placementValues)
      account := account (report.details ++ [("schedule", .listOf placementDocument schedule)])
      sensitivity := sensitivity }

/-- Search for a schedule and report on it. -/
def search (setting : Setting α) (watch : Watch α) :
    Except (SearchFailure α) (Report α × Watch α) := do
  let (order, cyclic) := setting.problem.order
  if !cyclic.isEmpty then
    return ({ Report.bare .infeasible [] with violations := cyclic.map cyclicViolation }, watch)
  else
    let (halt?, progress) ← run setting order (.start setting.problem watch)
    return (← reportOn setting order halt? progress, progress.watch)

/-- What a search for a schedule of a problem is for, and its limits. -/
def settingOf (problem : SchedulingProblem α) (parameters : SchedulingParameters α) : Setting α :=
  ⟨problem, parameters.maxCandidates, parameters.tolerance,
    ⟨parameters.maxIterations, parameters.timeLimit⟩⟩

/-- Search for a schedule unless the flag is up before the start. -/
def searchUnlessCancelled (setting : Setting α) (watch : Watch α) :
    Except (SearchFailure α) (Report α × Watch α) :=
  let (isCancelled, looked) := watch.lookAtFlag
  if isCancelled then .ok (.bare .cancelled [("cancelled", .boolean true)], looked)
  else search setting looked

/-- Attempt to solve a scheduling problem. -/
def attempt (problem : SchedulingProblem α) (parameters : SchedulingParameters α)
    (watch : Watch α) : Except (SearchFailure α) (Solution α) := do
  let (report, after) ← searchUnlessCancelled (settingOf problem parameters) watch
  (solution problem parameters.tolerance after.lookAtClock.1 report).mapError .evaluation

/-- Solve a scheduling problem. -/
def solve (problem : SchedulingProblem α) (parameters : SchedulingParameters α)
    (watch : Watch α) : Except (SolveFailure α) (Solution α) :=
  (attempt problem parameters watch).mapError SearchFailure.toSolveFailure

end Scheduling

end Optima
