import Optima.Scheduling.Problem

namespace Optima

/-!
# The order of tasks

Tasks are taken one after the other, each once everything that it waits for has been
taken.  For every task it is counted how many of the tasks that it waits for are still
to be taken; when the count of a task comes down to zero, the task joins a queue.  The
queue is in the order of keys: the most urgent task comes first, or the first in the
list where urgency does not count.  Tasks whose count never comes down to zero wait
for a cycle.
-/

namespace TaskOrder

variable {α : Type}

/-- What tasks that are ready rank by, smaller keys first: their urgency where it counts, and then
their place in the list. -/
def key (urgentFirst : Bool) (position : Nat) (task : Task α) : List Int :=
  if urgentFirst then [-task.priority, position] else [(position : Int)]

/-- A task with its key. -/
structure Entrant (α : Type) where
  key : List Int
  task : Task α
  deriving Repr

/-- The identifier of a task. -/
def Entrant.identifier (entrant : Entrant α) : String :=
  entrant.task.identifier

/-- Whether a task waits for the task of an identifier. -/
def Entrant.waitsFor (entrant : Entrant α) (identifier : String) : Bool :=
  entrant.task.dependencies.contains identifier

/-- A task that stands at a place of the list, with its key, by its identifier. -/
def entryOf (urgentFirst : Bool) (standing : Task α × Nat) : String × Entrant α :=
  (standing.1.identifier, ⟨key urgentFirst standing.2 standing.1, standing.1⟩)

/-- The tasks with their keys; of several tasks of an identifier the last one counts. -/
def entrants (urgentFirst : Bool) (tasks : List (Task α)) : List (Entrant α) :=
  (Table.ofList (tasks.zipIdx.map (entryOf urgentFirst))).values

/-- Put a task into a queue, behind all that have a key as small. -/
def enqueue (entrant : Entrant α) : List (Entrant α) → List (Entrant α)
  | [] => [entrant]
  | first :: rest =>
    if entrant.key < first.key then entrant :: first :: rest else first :: enqueue entrant rest

/-- Tasks that are taken one after the other. -/
structure Line (α : Type) where
  /-- For every task the number of tasks that it waits for and that are still to be taken. -/
  counts : Table Int
  /-- The tasks that are ready, in the order of their keys. -/
  queue : List (Entrant α)
  /-- The tasks that have been taken, the latest first. -/
  taken : List (Task α)
  deriving Repr

namespace Line

/-- The number of tasks that a task waits for; one that is named twice counts once. -/
def demandOf (task : Task α) : Int :=
  task.dependencies.eraseDups.length

/-- Before a task is taken, those that wait for nothing are ready. -/
def start (entrants : List (Entrant α)) : Line α where
  counts := Table.ofList (entrants.map fun entrant => (entrant.identifier, demandOf entrant.task))
  queue := (entrants.filter fun entrant => demandOf entrant.task = 0).foldl
    (fun queue entrant => enqueue entrant queue) []
  taken := []

/-- Count down for a task that waited for one that is taken; at zero it is ready. -/
def countDown (line : Line α) (entrant : Entrant α) : Line α :=
  let count := (line.counts.get? entrant.identifier).getD 0 - 1
  { line with
    counts := line.counts.insert entrant.identifier count
    queue := if count = 0 then enqueue entrant line.queue else line.queue }

/-- Take the first task of the queue, and count down for all that wait for it. -/
def turn? (entrants : List (Entrant α)) (line : Line α) : Option (Line α) :=
  match line.queue with
  | [] => none
  | first :: rest =>
    some ((entrants.filter (·.waitsFor first.identifier)).foldl countDown
      { line with queue := rest, taken := first.task :: line.taken })

/-- Take tasks until none is ready; the number bounds how many. -/
def run (entrants : List (Entrant α)) : Nat → Line α → Line α
  | 0, line => line
  | count + 1, line =>
    match line.turn? entrants with
    | none => line
    | some next => run entrants count next

end Line

end TaskOrder

namespace SchedulingProblem

variable {α : Type}

/-- The tasks of a problem with their keys. -/
def entrants (problem : SchedulingProblem α) : List (TaskOrder.Entrant α) :=
  TaskOrder.entrants problem.preferences.urgentFirst problem.tasks

/-- The tasks in the order in which they are placed, and those that wait for a cycle. -/
def order (problem : SchedulingProblem α) : List (Task α) × List (Task α) :=
  let entrants := problem.entrants
  let ordered := (TaskOrder.Line.run entrants entrants.length (.start entrants)).taken.reverse
  (ordered, problem.tasks.filter fun task =>
    !(ordered.map (·.identifier)).contains task.identifier)

end SchedulingProblem

end Optima
