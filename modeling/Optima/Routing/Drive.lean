import Optima.Routing.Network

namespace Optima

/-!
# Driving a route

A vehicle drives a route in one of its shifts: it leaves the depot when the shift
starts, serves every stop as early as the windows allow, and returns before the
shift ends.  The first shift in which that works counts.
-/

/-- Why a vehicle cannot drive a route. -/
inductive Obstacle where
  | capacity
  | skills
  | maxDistance
  | timeWindows
  | shift
  | maxTime
  deriving Repr, DecidableEq

instance : Labelled Obstacle where
  all := [.capacity, .skills, .maxDistance, .timeWindows, .shift, .maxTime]
  label
    | .capacity => "capacity"
    | .skills => "skills"
    | .maxDistance => "max_distance"
    | .timeWindows => "time_windows"
    | .shift => "shift"
    | .maxTime => "max_time"

/-- A vehicle on a route. -/
structure Drive (α : Type) where
  distance : α
  duration : α
  cost : α
  load : α
  /-- When the service at each stop starts. -/
  starts : List α
  deriving Repr

namespace Drive

/-- A vehicle that stays at the depot. -/
def idle {α : Type} [Scalar α] : Drive α := ⟨0, 0, 0, 0, []⟩

end Drive

namespace Vehicle

variable {α : Type} [Scalar α]

/-- Whether a number is beyond a limit, if there is one. -/
def exceeds (limit? : Option α) (value : α) : Bool :=
  match limit? with
  | none => false
  | some limit => limit + Scalar.slack < value

/-- The time beyond the regular one. -/
def overtime (vehicle : Vehicle α) (duration : α) : α :=
  match vehicle.regularTime with
  | none => 0
  | some regular => Scalar.larger 0 (duration - regular)

/-- What it costs to drive a distance for a duration. -/
def costOf (vehicle : Vehicle α) (distance duration : α) : α :=
  vehicle.cost.fixed + vehicle.cost.perDistance * distance + vehicle.cost.perTime * duration
    + vehicle.cost.overtime * vehicle.overtime duration

end Vehicle

namespace Network

variable {α : Type} [Scalar α]

/-- The starts of the services along a route, and the return, if the windows leave a way. -/
def timetable (network : Network α) : Nat → α → List Nat → Option (List α × α)
  | previous, clock, [] => some ([], clock + network.time previous 0)
  | previous, clock, node :: rest => do
    let start ← network.earliestStart? node (clock + network.time previous node)
    let (starts, finish) ← timetable network node (start + network.serviceTime node) rest
    return (start :: starts, finish)

/-- Drive a route in one shift. -/
def driveIn (network : Network α) (vehicle : Vehicle α) (route : List Nat) (shift : α × α) :
    Except Obstacle (Drive α) :=
  match network.timetable 0 shift.1 route with
  | none => .error .timeWindows
  | some (starts, finish) =>
    let duration := finish - shift.1
    if shift.2 + Scalar.slack < finish then .error .shift
    else if Vehicle.exceeds vehicle.maxTime duration then .error .maxTime
    else
      let distance := network.tourDistance route
      .ok ⟨distance, duration, vehicle.costOf distance duration, network.loadOf route, starts⟩

/-- What is remembered of shifts that do not work: the last obstacle other than windows. -/
def laterObstacle (earlier later : Obstacle) : Obstacle :=
  if later = .timeWindows then earlier else later

/-- Drive a route in the first shift in which that works. -/
def driveInShifts (network : Network α) (vehicle : Vehicle α) (route : List Nat) :
    Obstacle → List (α × α) → Except Obstacle (Drive α)
  | obstacle, [] => .error obstacle
  | obstacle, shift :: rest =>
    match network.driveIn vehicle route shift with
    | .ok drive => .ok drive
    | .error found => driveInShifts network vehicle route (laterObstacle obstacle found) rest

/-- A vehicle on a route, or why it cannot drive it. -/
def evaluate (network : Network α) (vehicle : Vehicle α) (route : List Nat) :
    Except Obstacle (Drive α) :=
  if route.isEmpty then .ok .idle
  else if vehicle.capacity + Scalar.slack < network.loadOf route then .error .capacity
  else if !(route.flatMap network.skills).all vehicle.skills.contains then .error .skills
  else if Vehicle.exceeds vehicle.maxDistance (network.tourDistance route) then .error .maxDistance
  else network.driveInShifts vehicle route .timeWindows vehicle.shifts

/-- Whether a vehicle can drive a route. -/
def isDrivable (network : Network α) (vehicle : Vehicle α) (route : List Nat) : Bool :=
  (network.evaluate vehicle route).isOk

/-- A vehicle on a route; one that cannot drive it stays at the depot. -/
def drive (network : Network α) (vehicle : Vehicle α) (route : List Nat) : Drive α :=
  ((network.evaluate vehicle route).toOption).getD .idle

/-- Whether some vehicle can drive a route. -/
def isServable (network : Network α) (vehicles : List (Vehicle α)) (route : List Nat) : Bool :=
  vehicles.any fun vehicle => network.isDrivable vehicle route

end Network

end Optima
