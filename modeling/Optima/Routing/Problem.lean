import Optima.Problem.Basic

namespace Optima

/-!
# Routing problems

Vehicles start at a depot, serve locations and return.  The depot is node zero
and the locations follow in order.  What is optimized are the metrics of a plan:
distance, time, cost, vehicles in use and demand left unserved.
-/

/-- What a time window means. -/
inductive WindowKind where
  | preferred
  | required
  | forbidden
  deriving Repr, DecidableEq

instance : Labelled WindowKind where
  all := [.preferred, .required, .forbidden]
  label
    | .preferred => "preferred"
    | .required => "required"
    | .forbidden => "forbidden"

/-- An interval of time. -/
structure TimeWindow (α : Type) where
  start : α
  finish : α
  kind : WindowKind
  deriving Repr

namespace TimeWindow

variable {α : Type} [Scalar α]

/-- Whether a moment is in the window, its ends included. -/
def contains (window : TimeWindow α) (moment : α) : Bool :=
  window.start ≤ moment && moment ≤ window.finish

/-- Whether a forbidden window rules out a moment; its end is allowed. -/
def blocks (window : TimeWindow α) (moment : α) : Bool :=
  window.kind = .forbidden && window.start ≤ moment && decide (moment < window.finish)

/-- Whether a window ends before it starts. -/
def isReversed (window : TimeWindow α) : Bool :=
  window.finish < window.start

end TimeWindow

/-- A place on the globe, in degrees. -/
structure Coordinates (α : Type) where
  latitude : α
  longitude : α
  deriving Repr

/-- A place to be served. -/
structure Location (α : Type) where
  identifier : String
  name : String
  coordinates : Option (Coordinates α)
  windows : List (TimeWindow α)
  serviceTime : α
  deriving Repr

/-- What driving a vehicle costs. -/
structure VehicleCost (α : Type) where
  fixed : α
  perDistance : α
  perTime : α
  /-- Cost of a time unit beyond the regular time. -/
  overtime : α
  deriving Repr

/-- A vehicle and its limits. -/
structure Vehicle (α : Type) where
  identifier : String
  capacity : α
  maxDistance : Option α
  maxTime : Option α
  /-- Duration of a route from which on overtime is paid. -/
  regularTime : Option α
  cost : VehicleCost α
  availability : List (TimeWindow α)
  skills : List String
  deriving Repr

namespace Vehicle

variable {α : Type} [Scalar α]

/-- The intervals in which a vehicle works; without any it always does. -/
def shifts (vehicle : Vehicle α) : List (α × α) :=
  let open? := vehicle.availability.filter (·.kind != .forbidden)
  if open?.isEmpty then [(0, Scalar.infinity)]
  else open?.map fun window => (window.start, window.finish)

end Vehicle

/-- A quantity wanted at a location. -/
structure Demand (α : Type) where
  identifier : String
  location : String
  quantity : α
  priority : Int
  skills : List String
  windows : List (TimeWindow α)
  deriving Repr

/-- A vehicle routing problem. -/
structure RoutingProblem (α : Type) extends Problem α where
  depot : Location α
  locations : List (Location α)
  vehicles : List (Vehicle α)
  demands : List (Demand α)
  distanceMatrix : Option (List (List α))
  timeMatrix : Option (List (List α))

/-- Why the parts of a routing problem do not fit together. -/
inductive NetworkFault where
  | repeatedLocation
  | unknownLocation (demand location : String)
  | matrixSize (label : String) (size : Nat)
  | negativeEntry (label : String)
  | missingCoordinates (locations : List String)
  deriving Repr, DecidableEq

namespace NetworkFault

/-- The message of a fault. -/
def message : NetworkFault → String
  | .repeatedLocation => "location ids (including the depot) must be unique"
  | .unknownLocation demand location =>
    "demand '" ++ demand ++ "' references unknown location '" ++ location ++ "'"
  | .matrixSize label size =>
    label ++ " matrix must be " ++ toString size ++ "x" ++ toString size ++ " (depot first)"
  | .negativeEntry label => label ++ " matrix has negative entries"
  | .missingCoordinates locations =>
    "no distance matrix and no coordinates for locations " ++ quotedList locations

end NetworkFault

namespace RoutingProblem

variable {α : Type}

/-- The depot and the locations. -/
def nodes (problem : RoutingProblem α) : List (Location α) :=
  problem.depot :: problem.locations

/-- The names of the metrics of a plan. -/
def metricNames : List String :=
  ["total_distance", "total_time", "total_cost", "vehicles_used", "unserved_demand"]

/-- The demands at a location. -/
def demandsAt (problem : RoutingProblem α) (location : String) : List (Demand α) :=
  problem.demands.filter (·.location == location)

variable [Scalar α]

/-- The first fault of a matrix that has a row and a column for each node. -/
def matrixFault? (label : String) (size : Nat) (matrix : List (List α)) : Option NetworkFault :=
  if matrix.length != size || matrix.any (·.length != size) then some (.matrixSize label size)
  else if matrix.any fun row => row.any fun entry => decide (entry < 0) then
    some (.negativeEntry label)
  else none

/-- The first fault of a routing problem. -/
def fault? (problem : RoutingProblem α) : Option NetworkFault :=
  let identifiers := problem.nodes.map (·.identifier)
  let known := problem.locations.map (·.identifier)
  let size := identifiers.length
  if identifiers.eraseDups.length != identifiers.length then some .repeatedLocation
  else
    let stray? := problem.demands.find? fun demand => !known.contains demand.location
    let matrices := [("distance", problem.distanceMatrix), ("time", problem.timeMatrix)]
    let misfit? := matrices.findSome? fun (label, matrix?) =>
      matrix?.bind (matrixFault? label size)
    let unplaced := problem.nodes.filter (·.coordinates.isNone)
    let unplaced? : Option NetworkFault :=
      if problem.distanceMatrix.isNone && !unplaced.isEmpty then
        some (.missingCoordinates (unplaced.map (·.identifier)))
      else none
    (stray?.map fun demand => .unknownLocation demand.identifier demand.location).or
      (misfit?.or unplaced?)

/-- The objectives of a routing problem that gives none: cost, then distance. -/
def usualObjectives (costIdentifier distanceIdentifier : String) : List (Objective α) :=
  [.minimizing costIdentifier "total_cost" 1 0 "",
   .minimizing distanceIdentifier "total_distance" 0 1 "Tie-break after cost"]

end RoutingProblem

end Optima
