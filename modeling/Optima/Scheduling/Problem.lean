import Optima.Routing.Problem

namespace Optima

/-!
# Scheduling problems

Tasks wait for each other and need resources for their whole duration.  A resource
has a capacity, which may differ between its availability windows.  What is
optimized are the metrics of a schedule.
-/

/-- The sort of a resource. -/
inductive ResourceKind where
  | human
  | equipment
  | facility
  | material
  deriving Repr, DecidableEq

instance : Labelled ResourceKind where
  all := [.human, .equipment, .facility, .material]
  label
    | .human => "human"
    | .equipment => "equipment"
    | .facility => "facility"
    | .material => "material"

/-- The unit in which a horizon is meant. -/
inductive Granularity where
  | minute
  | hour
  | day
  | week
  deriving Repr, DecidableEq

instance : Labelled Granularity where
  all := [.minute, .hour, .day, .week]
  label
    | .minute => "minute"
    | .hour => "hour"
    | .day => "day"
    | .week => "week"

/-- A resource that a task needs for its whole duration. -/
structure Requirement (α : Type) where
  kind : ResourceKind
  /-- Units of capacity in use. -/
  quantity : α
  skills : List String
  /-- Resources that are accepted whatever their kind. -/
  alternatives : List String
  deriving Repr

/-- An interval in which a resource has a capacity. -/
structure AvailabilityWindow (α : Type) where
  start : α
  finish : α
  capacity : α
  deriving Repr

/-- A task to be placed. -/
structure Task (α : Type) where
  identifier : String
  name : String
  duration : α
  /-- A larger number is more urgent. -/
  priority : Int
  dependencies : List String
  requirements : List (Requirement α)
  windows : List (TimeWindow α)
  skills : List String
  deriving Repr

namespace Task

variable {α : Type}

/-- The windows of a kind. -/
def windowsOf (task : Task α) (kind : WindowKind) : List (TimeWindow α) :=
  task.windows.filter (·.kind == kind)

end Task

/-- A resource. -/
structure Resource (α : Type) where
  identifier : String
  name : String
  kind : ResourceKind
  /-- Units of capacity that may be in use at a time. -/
  capacity : α
  /-- Without windows a resource is always there. -/
  availability : List (AvailabilityWindow α)
  skills : List String
  /-- Cost of a unit of capacity for a time unit. -/
  cost : α
  /-- Busy time from which on overtime is counted. -/
  regularTime : Option α
  deriving Repr

/-- The interval in which tasks are placed. -/
structure Horizon (α : Type) where
  start : α
  finish : α
  granularity : Granularity
  deriving Repr

/-- What a schedule should pay attention to. -/
structure Preferences where
  balanceWorkload : Bool
  minimizeOvertime : Bool
  respectSkills : Bool
  allowSharing : Bool
  urgentFirst : Bool
  deriving Repr, DecidableEq

/-- A task scheduling problem. -/
structure SchedulingProblem (α : Type) extends Problem α where
  tasks : List (Task α)
  resources : List (Resource α)
  horizon : Horizon α
  preferences : Preferences

/-- Why the parts of a scheduling problem do not fit together. -/
inductive ReferenceFault where
  | repeatedTask
  | repeatedResource
  | unknownTask (task dependency : String)
  | unknownAlternatives (task : String) (resources : List String)
  deriving Repr, DecidableEq

namespace ReferenceFault

/-- The message of a fault. -/
def message : ReferenceFault → String
  | .repeatedTask => "task ids must be unique"
  | .repeatedResource => "resource ids must be unique"
  | .unknownTask task dependency =>
    "task '" ++ task ++ "' depends on unknown task '" ++ dependency ++ "'"
  | .unknownAlternatives task resources =>
    "task '" ++ task ++ "' names unknown alternative resources " ++ quotedList resources

end ReferenceFault

/-- Why a schedule cannot tell what it is asked, or give back what it does not hold. -/
inductive Lapse where
  /-- The end of a task is looked up that is not placed. -/
  | unfinished (task : String)
  /-- A placement is taken back that is not booked. -/
  | unbooked (task : String)
  /-- A placement is taken back where there is none. -/
  | nothingPlaced
  deriving Repr, DecidableEq

/-- What a lapse breaks down with. -/
def Lapse.breakdown : Lapse → Breakdown
  | .unfinished task => .missingName task
  | .unbooked _ | .nothingPlaced => .notInList

namespace SchedulingProblem

variable {α : Type}

/-- The names of the metrics of a schedule. -/
def metricNames : List String :=
  ["makespan", "total_cost", "overtime", "workload_imbalance", "preferred_window_misses"]

/-- The task of an identifier. -/
def task? (problem : SchedulingProblem α) (identifier : String) : Option (Task α) :=
  problem.tasks.find? (·.identifier == identifier)

/-- The resource of an identifier. -/
def resource? (problem : SchedulingProblem α) (identifier : String) : Option (Resource α) :=
  problem.resources.find? (·.identifier == identifier)

/-- The first reference of a task to what is not there. -/
def strayReference? (tasks resources : List String) (task : Task α) : Option ReferenceFault :=
  let dependency? := task.dependencies.find? fun name => !tasks.contains name
  let alternatives? := task.requirements.findSome? fun requirement =>
    let unknown := requirement.alternatives.eraseDups.filter fun name => !resources.contains name
    if unknown.isEmpty then none
    else some (.unknownAlternatives task.identifier (unknown.mergeSort fun a b => decide (a ≤ b)))
  (dependency?.map (.unknownTask task.identifier)).or alternatives?

/-- The first fault of a scheduling problem. -/
def fault? (problem : SchedulingProblem α) : Option ReferenceFault :=
  let tasks := problem.tasks.map (·.identifier)
  let resources := problem.resources.map (·.identifier)
  if tasks.eraseDups.length != tasks.length then some .repeatedTask
  else if resources.eraseDups.length != resources.length then some .repeatedResource
  else problem.tasks.findSome? (strayReference? tasks resources)

/-- The objective of a scheduling problem that gives none: the makespan. -/
def usualObjectives [Scalar α] (identifier : String) : List (Objective α) :=
  [.minimizing identifier "makespan" 1 0 ""]

end SchedulingProblem

end Optima
