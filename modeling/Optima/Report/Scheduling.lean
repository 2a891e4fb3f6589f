import Optima.Document.Basic
import Optima.Scheduling.Search

namespace Optima

/-!
# Reports on scheduling

What the parts of a schedule look like as documents: the order of the tasks, the
resources that suit them and the places that they may take.
-/

/-- A placement as a document. -/
def Placement.toDocument {α : Type} (placement : Placement α) : Document α :=
  .mapping [("task", .text placement.task), ("start", .number placement.start),
    ("end", .number placement.finish),
    ("resources", .listOf (fun (identifier, quantity) => .list [.text identifier, .number quantity])
      placement.resources),
    ("cost", .number placement.cost), ("preferred_miss", .boolean placement.missesPreference)]

namespace SchedulingProblem

variable {α : Type} [Scalar α]

/-- The options of each task when every task before it took its first option.  A task without an
option is the last one, and a task whose prerequisites are not placed is left out with the rest. -/
def firstOptions (problem : SchedulingProblem α) (maxCandidates : Nat) :
    Schedule α → List (Task α) → List (List (Placement α))
  | _, [] => []
  | schedule, task :: rest =>
    if !(Scheduling.missingPrerequisites schedule task).isEmpty then []
    else
      match schedule.options problem maxCandidates task with
      | .error _ => []
      | .ok [] => [[]]
      | .ok (first :: others) =>
        (first :: others) :: firstOptions problem maxCandidates (schedule.place first) rest

/-- What a search for a schedule works with, as a document. -/
def report (problem : SchedulingProblem α) (maxCandidates : Nat) : Document α :=
  let (order, cyclic) := problem.order
  let perTask (write : Task α → Document α) : Document α :=
    .mapping (problem.tasks.map fun task => (task.identifier, write task))
  .mapping [("order", .texts (order.map (·.identifier))),
    ("cyclic", .texts (cyclic.map (·.identifier))),
    ("candidates", perTask fun task =>
      .listOf (fun requirement =>
        .texts ((problem.candidates maxCandidates requirement).map (·.identifier)))
        task.requirements),
    ("combinations", perTask fun task =>
      .listOf (.tableOf .number) (problem.combinations maxCandidates task)),
    ("options", .listOf (.listOf Placement.toDocument)
      (problem.firstOptions maxCandidates (.start problem) order))]

end SchedulingProblem

end Optima
