import Optima.Scheduling.Calendar

namespace Optima

/-!
# Options for a task

Every requirement of a task has candidates among the resources.  Each way to choose
one candidate for every requirement gives one option: the task starts at the
earliest moment at which all the chosen resources have room.  Options rank by their
end, then overtime, then load, then cost, then missed preferences.
-/

/-- The quantity of each resource that a task uses. -/
abbrev Usage (α : Type) := Table α

namespace SchedulingProblem

variable {α : Type} [Scalar α]

/-- Whether a resource may serve a requirement. -/
def suits (preferences : Preferences) (requirement : Requirement α) (resource : Resource α) :
    Bool :=
  (resource.kind = requirement.kind || requirement.alternatives.contains resource.identifier)
    && (!preferences.respectSkills || requirement.skills.all resource.skills.contains)
    && !(resource.capacity + Scalar.slack < requirement.quantity)

/-- The order of resources by cost. -/
def cheaperFirst (first second : Resource α) : Bool :=
  !(second.cost < first.cost)

/-- The resources that are tried for a requirement, the cheapest first. -/
def candidates (problem : SchedulingProblem α) (maxCandidates : Nat)
    (requirement : Requirement α) : List (Resource α) :=
  ((problem.resources.filter (suits problem.preferences requirement)).mergeSort
    cheaperFirst).take maxCandidates

/-- Every way to choose one item of each list, the last list changing fastest. -/
def choices {β : Type} : List (List β) → List (List β)
  | [] => [[]]
  | items :: rest => items.flatMap fun item => (choices rest).map fun others => item :: others

/-- Add what a requirement uses of the resource chosen for it. -/
def useFor (usage : Usage α) (service : Requirement α × Resource α) : Usage α :=
  let (requirement, resource) := service
  usage.insert resource.identifier
    ((usage.get? resource.identifier).getD 0 + requirement.quantity)

/-- The quantities that requirements use of the resources chosen for them. -/
def usageOf (requirements : List (Requirement α)) (chosen : List (Resource α)) : Usage α :=
  (requirements.zip chosen).foldl useFor {}

/-- Whether chosen resources have the capacity for what is used of them. -/
def haveCapacity (chosen : List (Resource α)) (usage : Usage α) : Bool :=
  chosen.all fun resource =>
    !(resource.capacity + Scalar.slack < (usage.get? resource.identifier).getD 0)

/-- Whether chosen resources together have the skills of a task. -/
def coverSkills (preferences : Preferences) (task : Task α) (chosen : List (Resource α)) : Bool :=
  !preferences.respectSkills
    || task.skills.all fun skill => chosen.any fun resource => resource.skills.contains skill

/-- The usages that cover every requirement of a task. -/
def combinations (problem : SchedulingProblem α) (maxCandidates : Nat) (task : Task α) :
    List (Usage α) :=
  (choices (task.requirements.map (problem.candidates maxCandidates))).filterMap fun chosen =>
    let usage := usageOf task.requirements chosen
    if haveCapacity chosen usage && coverSkills problem.preferences task chosen then some usage
    else none

end SchedulingProblem

namespace Task

variable {α : Type} [Scalar α]

/-- Whether an interval lies inside one of several windows. -/
def liesInside (windows : List (TimeWindow α)) (start finish : α) : Bool :=
  windows.any fun window => window.start ≤ start && finish ≤ window.finish

/-- Whether the windows of a task allow an interval. -/
def allows (task : Task α) (start finish : α) : Bool :=
  let required := task.windowsOf .required
  (required.isEmpty || liesInside required start finish)
    && !(task.windowsOf .forbidden).any fun window =>
      start < window.finish && decide (window.start < finish)

/-- Whether an interval misses the preferred windows of a task. -/
def missesPreference (task : Task α) (start finish : α) : Bool :=
  let preferred := task.windowsOf .preferred
  !preferred.isEmpty && !liesInside preferred start finish

/-- The moments at which the windows of a task begin to allow it. -/
def openings (task : Task α) : List α :=
  task.windows.map fun window =>
    if window.kind = .forbidden then window.finish else window.start

/-- The earliest moment from a ready time on at which a task has room; the horizon limits its end. -/
def earliestStart? (task : Task α) (usage : Usage α) (ready : α) (calendar : Calendar α)
    (horizonEnd : α) : Option α :=
  let moments := ready :: task.openings ++ usage.names.flatMap calendar.releasePoints
  let later := Scalar.distinct (moments.filter fun moment => ready ≤ moment)
  (later.takeWhile fun start => !(horizonEnd + Scalar.slack < start + task.duration)).find?
    fun start =>
      let finish := start + task.duration
      task.allows start finish
        && usage.entries.all fun (resource, quantity) =>
          calendar.fits resource quantity start finish

end Task

/-- What an option ranks by, before its place among the combinations. -/
structure OptionRank (α : Type) where
  finish : α
  overtime : α
  load : α
  cost : α
  missesPreference : Bool
  deriving Repr

namespace OptionRank

variable {α : Type} [Scalar α]

/-- Lexicographic comparison of numbers; equal lists are in order. -/
def inOrder : List α → List α → Bool
  | first :: firsts, second :: seconds =>
    if first == second then inOrder firsts seconds else first < second
  | _, _ => true

/-- The numbers that a rank compares. -/
def numbers (rank : OptionRank α) : List α :=
  [rank.finish, rank.overtime, rank.load, rank.cost, Scalar.indicator rank.missesPreference]

/-- Whether an option ranks before another or equal to it. -/
def precedes (first second : OptionRank α) : Bool :=
  inOrder first.numbers second.numbers

end OptionRank

namespace SchedulingProblem

variable {α : Type} [Scalar α]

/-- The cost of a usage for a duration. -/
def usageCost (calendar : Calendar α) (usage : Usage α) (duration : α) : α :=
  Scalar.total (usage.entries.map fun (identifier, quantity) =>
    ((calendar.resource? identifier).map (·.cost)).getD 0 * quantity * duration)

/-- The overtime that a booking adds to a resource. -/
def addedOvertime (calendar : Calendar α) (duration : α) (identifier : String) : α :=
  match (calendar.resource? identifier).bind (·.regularTime) with
  | none => 0
  | some regular =>
    let busy := calendar.busyTime identifier
    Scalar.larger 0 (busy + duration - regular) - Scalar.larger 0 (busy - regular)

/-- What an option ranks by. -/
def rankOf (preferences : Preferences) (calendar : Calendar α) (usage : Usage α) (duration : α)
    (placement : Placement α) : OptionRank α where
  finish := placement.finish
  overtime :=
    if preferences.minimizeOvertime then
      Scalar.total (usage.names.map (addedOvertime calendar duration))
    else 0
  load :=
    if preferences.balanceWorkload then
      match Scalar.largest? (usage.names.map calendar.busyTime) with
      | none => 0
      | some busiest => busiest + duration
    else 0
  cost := placement.cost
  missesPreference := placement.missesPreference

/-- The placement of a task with a usage at a start. -/
def placementAt (calendar : Calendar α) (task : Task α) (usage : Usage α) (start : α) :
    Placement α :=
  let finish := start + task.duration
  { task := task.identifier
    start := start
    finish := finish
    resources := usage.entries.mergeSort fun first second => decide (first.1 ≤ second.1)
    cost := usageCost calendar usage task.duration
    missesPreference := task.missesPreference start finish }

/-- The end of a task that has been placed. -/
def endOf (finished : Table α) (task : String) : Except Lapse α :=
  match finished.get? task with
  | some finish => .ok finish
  | none => .error (.unfinished task)

/-- The moment at which everything that a task waits for is done. -/
def readyTime (problem : SchedulingProblem α) (finished : Table α) (task : Task α) :
    Except Lapse α := do
  let ends ← task.dependencies.mapM (endOf finished)
  return (Scalar.largest? (problem.horizon.start :: ends)).getD problem.horizon.start

/-- The placements that are possible for a task that is ready at a moment, the best first. -/
def optionsFrom (problem : SchedulingProblem α) (maxCandidates : Nat) (calendar : Calendar α)
    (task : Task α) (ready : α) : List (Placement α) :=
  let ranked := (problem.combinations maxCandidates task).filterMap fun usage =>
    (task.earliestStart? usage ready calendar problem.horizon.finish).map fun start =>
      let placement := placementAt calendar task usage start
      (rankOf problem.preferences calendar usage task.duration placement, placement)
  (ranked.mergeSort fun first second => first.1.precedes second.1).map (·.2)

/-- The placements that are possible for a task, the best first. -/
def options (problem : SchedulingProblem α) (maxCandidates : Nat) (calendar : Calendar α)
    (finished : Table α) (task : Task α) : Except Lapse (List (Placement α)) :=
  (problem.readyTime finished task).map (problem.optionsFrom maxCandidates calendar task)

end SchedulingProblem

end Optima
