import Optima.Problem.Feasibility
import Optima.Problem.Goal
import Optima.Scheduling.Options
import Optima.Scheduling.Order
import Optima.Search.Watch

namespace Optima

/-!
# Schedules

A schedule is built task by task: every placement is booked on the calendar, and
the end of every placed task is remembered.  The metrics of a schedule are what
objectives and constraints are about.
-/

/-- The placements made so far, and what they leave free. -/
structure Schedule (α : Type) where
  /-- The placements in the order in which they were made. -/
  placements : List (Placement α)
  calendar : Calendar α
  /-- The ends of the placed tasks. -/
  finished : Table α

namespace Schedule

variable {α : Type}

/-- The schedule without placements. -/
def start (problem : SchedulingProblem α) : Schedule α :=
  ⟨[], .empty problem.resources problem.preferences.allowSharing, {}⟩

/-- Add a placement. -/
def place (schedule : Schedule α) (placement : Placement α) : Schedule α where
  placements := schedule.placements ++ [placement]
  calendar := schedule.calendar.book placement
  finished := schedule.finished.insert placement.task placement.finish

variable [Scalar α]

/-- The placements that are possible for a task after those made so far. -/
def options (schedule : Schedule α) (problem : SchedulingProblem α) (maxCandidates : Nat)
    (task : Task α) : Except Lapse (List (Placement α)) :=
  problem.options maxCandidates schedule.calendar schedule.finished task

/-- Take the last placement back. -/
def withdraw (schedule : Schedule α) : Except Lapse (Schedule α) :=
  match schedule.placements.getLast? with
  | none => .error .nothingPlaced
  | some placement =>
    if !schedule.calendar.isBooked placement then .error (.unbooked placement.task)
    else if !schedule.finished.contains placement.task then .error (.unfinished placement.task)
    else .ok {
      placements := schedule.placements.dropLast
      calendar := schedule.calendar.release placement
      finished := schedule.finished.erase placement.task }

end Schedule

namespace SchedulingProblem

variable {α : Type} [Scalar α]

/-- The time for which placements use a resource. -/
def busyTime (placements : List (Placement α)) (resource : Resource α) : α :=
  Scalar.total ((placements.filter (·.uses resource.identifier)).map (·.length))

/-- The busy time of a resource beyond its regular time. -/
def overtimeOf (placements : List (Placement α)) (resource : Resource α) : Option α :=
  resource.regularTime.map fun regular =>
    Scalar.larger 0 (busyTime placements resource - regular)

/-- How far the busiest resource is from the least busy one. -/
def imbalance (busy : List α) : α :=
  if busy.length ≤ 1 then 0
  else (Scalar.largest? busy).getD 0 - (Scalar.smallest? busy).getD 0

/-- The metrics of placements. -/
def metrics (problem : SchedulingProblem α) (placements : List (Placement α)) :
    List (String × α) :=
  let start := problem.horizon.start
  let missed : Nat := (placements.filter (·.missesPreference)).length
  [("makespan", (Scalar.largest? (placements.map (·.finish))).getD start - start),
   ("total_cost", Scalar.total (placements.map (·.cost))),
   ("overtime", Scalar.total (problem.resources.filterMap (overtimeOf placements))),
   ("workload_imbalance", imbalance (problem.resources.map (busyTime placements))),
   ("preferred_window_misses", Scalar.ofInt missed)]

/-- The metrics of placements as an assignment. -/
def metricsOf (problem : SchedulingProblem α) (placements : List (Placement α)) : Assignment α :=
  .ofNumbers (problem.metrics placements)

end SchedulingProblem

/-!
## One turn of the search

The tasks are placed in their order.  A search stands at a schedule of the first few
of them, and remembers the options that it has not tried.  A turn judges a complete
schedule, tries an option, or goes back to the task before.
-/

namespace Scheduling

variable {α : Type}

/-- Why the search ends before it is through. -/
inductive Halt (α : Type) where
  | found (placements : List (Placement α))
  | interrupted (interruption : Interruption)

/-- What the search has done so far. -/
structure Progress (α : Type) where
  /-- How many placements have been tried. -/
  iterations : Nat
  /-- How often the search went back from a task without options. -/
  backtracks : Nat
  /-- The first complete schedule that violates constraints. -/
  fallback : Option (List (Placement α))
  /-- The points of the history, the latest first. -/
  history : List (ConvergencePoint α)
  watch : Watch α

/-- A search that has not done anything. -/
def Progress.start (watch : Watch α) : Progress α := ⟨0, 0, none, [], watch⟩

/-- What the search is for, and its limits. -/
structure Setting (α : Type) where
  problem : SchedulingProblem α
  maxCandidates : Nat
  tolerance : α
  budget : Budget α

variable [Scalar α]

/-- Judge a complete schedule: take it, or keep it as a fallback and go on. -/
def judge (problem : SchedulingProblem α) (tolerance : α) (placements : List (Placement α))
    (progress : Progress α) : Except (EvalFailure α) (Option (Halt α) × Progress α) := do
  let metrics := problem.metricsOf placements
  let cost ← Objectives.costOf problem.objectives metrics
  let violation ← Constraints.totalViolation tolerance metrics problem.constraints
  let (elapsed, watch) := progress.watch.lookAtClock
  let point : ConvergencePoint α := ⟨progress.iterations, cost, violation, elapsed⟩
  let recorded := { progress with history := point :: progress.history, watch := watch }
  if ← Constraints.feasible tolerance metrics problem.constraints then
    return (some (.found placements), recorded)
  else return (none, { recorded with fallback := recorded.fallback.or (some placements) })

/-- Why the search breaks off without an outcome. -/
inductive SearchFailure (α : Type) where
  | lapse (cause : Lapse)
  | evaluation (cause : EvalFailure α)
  deriving Repr

/-- A failure of the search as a failure of the whole solve. -/
def SearchFailure.toSolveFailure : SearchFailure α → SolveFailure α
  | .lapse cause => .broken cause.breakdown
  | .evaluation cause => cause.toSolveFailure

/-- Where the search stands. -/
structure Descent (α : Type) where
  schedule : Schedule α
  /-- The options that have not been tried, for each task that the search has come to, the latest
  task first. -/
  untried : List (List (Placement α))
  progress : Progress α

/-- What one turn of the search leads to. -/
inductive Turn (α : Type) where
  | onward (state : Descent α)
  | ended (halt? : Option (Halt α)) (progress : Progress α)

/-- The search at its start. -/
def Descent.start (problem : SchedulingProblem α) (watch : Watch α) : Descent α :=
  ⟨.start problem, [], .start watch⟩

/-- The options of the next task that have not been tried, and those of the tasks before it.  When
the search comes to a task for the first time it has all of its options. -/
def Descent.untriedOf (setting : Setting α) (state : Descent α) (task : Task α) :
    Except Lapse (List (Placement α) × List (List (Placement α))) :=
  if state.untried.length = state.schedule.placements.length then
    (state.schedule.options setting.problem setting.maxCandidates task).map (·, state.untried)
  else .ok (state.untried.headD [], state.untried.tail)

/-- One turn of the search: judge a complete schedule, or try the next option of the next task, or
go back to the task before it. -/
def turn (setting : Setting α) (order : List (Task α)) (state : Descent α) :
    Except (SearchFailure α) (Turn α) := do
  let placements := state.schedule.placements
  match order[placements.length]? with
  | none =>
    let (halt?, judged) ←
      (judge setting.problem setting.tolerance placements state.progress).mapError .evaluation
    match halt? with
    | some halt => return .ended halt judged
    | none =>
      let earlier ← state.schedule.withdraw.mapError .lapse
      return .onward { state with schedule := earlier, progress := judged }
  | some task =>
    let (options, others) ← (state.untriedOf setting task).mapError .lapse
    match options with
    | [] =>
      if placements.isEmpty then return .ended none state.progress
      else
        let earlier ← state.schedule.withdraw.mapError .lapse
        let backtracks := state.progress.backtracks + 1
        return .onward ⟨earlier, others, { state.progress with backtracks := backtracks }⟩
    | placement :: rest =>
      match setting.budget.interruption state.progress.iterations state.progress.watch with
      | (some interruption, watch) =>
        return .ended (some (.interrupted interruption)) { state.progress with watch := watch }
      | (none, watch) =>
        let iterations := state.progress.iterations + 1
        return .onward ⟨state.schedule.place placement, rest :: others,
          { state.progress with iterations := iterations, watch := watch }⟩

end Scheduling

end Optima
