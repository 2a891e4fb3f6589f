import Optima.Routing.Problem
import Optima.Scalar.Basic

namespace Optima

/-!
# Networks

A network is what routes are judged by: distances and times between the nodes, and
for every node what is asked there.  Node zero is the depot.  At a node there is a
group of windows for the place and one for each demand that has windows, and every
group has to allow the moment at which the service starts.

## Distances on the globe

The distance of two places is measured along the great circle through them, in
kilometres, by the haversine formula.
-/

namespace Coordinates

variable {α : Type} [Scalar α] [Elementary α]

/-- The radius of the globe in kilometres. -/
def globeRadius : α := Scalar.ofInt 6371

/-- An angle in radians. -/
def radians (degrees : α) : α :=
  degrees * (Elementary.halfTurn / Scalar.ofInt 180)

/-- The square of the sine of half an angle. -/
def haversine (angle : α) : α :=
  let half : α := Elementary.sine (angle / Scalar.two)
  half * half

/-- The great circle distance to another place. -/
def distanceTo (first second : Coordinates α) : α :=
  let start : α := radians first.latitude
  let finish : α := radians second.latitude
  let share := haversine (finish - start)
    + Elementary.cosine start * Elementary.cosine finish
      * haversine (radians (second.longitude - first.longitude))
  Scalar.two * globeRadius * Elementary.arcsine (Scalar.smaller 1 (Elementary.squareRoot share))

end Coordinates

/-!
## Nodes and what is between them
-/

/-- What is asked at a node. -/
structure Stop (α : Type) where
  location : Location α
  load : α
  skills : List String
  /-- Groups of windows, none of them empty. -/
  groups : List (List (TimeWindow α))
  deriving Repr

/-- Distances and times between nodes, and what is asked at each. -/
structure Network (α : Type) where
  distances : List (List α)
  times : List (List α)
  stops : List (Stop α)
  deriving Repr

/-- Whether a group of windows allows a moment. -/
def TimeWindow.allows {α : Type} [Scalar α] (group : List (TimeWindow α)) (moment : α) : Bool :=
  let open? := group.filter (·.kind != .forbidden)
  (open?.isEmpty || open?.any (·.contains moment)) && !group.any (·.blocks moment)

namespace Stop

variable {α : Type} [Scalar α]

/-- The stop at the depot, where nothing is asked. -/
def ofDepot (location : Location α) : Stop α := ⟨location, 0, [], []⟩

/-- The stop at a location with its demands. -/
def ofDemands (location : Location α) (demands : List (Demand α)) : Stop α where
  location := location
  load := Scalar.total (demands.map (·.quantity))
  skills := demands.flatMap (·.skills)
  groups := (location.windows :: demands.map (·.windows)).filter (!·.isEmpty)

/-- Whether every group of windows allows a moment. -/
def allows (stop : Stop α) (moment : α) : Bool :=
  stop.groups.all fun group => TimeWindow.allows group moment

/-- The moments from an arrival on at which a window opens or a forbidden one closes. -/
def openings (stop : Stop α) (arrival : α) : List α :=
  stop.groups.flatMap fun group => group.flatMap fun window =>
    (if arrival ≤ window.start then [window.start] else [])
      ++ if window.kind = .forbidden && arrival ≤ window.finish then [window.finish] else []

/-- The first moment from an arrival on at which the service may start. -/
def earliestStart? (stop : Stop α) (arrival : α) : Option α :=
  if stop.groups.isEmpty then some arrival
  else (Scalar.distinct (arrival :: stop.openings arrival)).find? stop.allows

end Stop

namespace Network

variable {α : Type} [Scalar α]

/-- An entry of a matrix. -/
def entry (matrix : List (List α)) (source destination : Nat) : α :=
  (matrix.getD source []).getD destination 0

/-- The distance from one node to another. -/
def distance (network : Network α) (source destination : Nat) : α :=
  entry network.distances source destination

/-- The time that it takes from one node to another. -/
def time (network : Network α) (source destination : Nat) : α :=
  entry network.times source destination

/-- What is asked at a node. -/
def load (network : Network α) (node : Nat) : α :=
  ((network.stops[node]?).map (·.load)).getD 0

/-- The skills that are asked for at a node. -/
def skills (network : Network α) (node : Nat) : List String :=
  ((network.stops[node]?).map (·.skills)).getD []

/-- The duration of the service at a node. -/
def serviceTime (network : Network α) (node : Nat) : α :=
  ((network.stops[node]?).map (·.location.serviceTime)).getD 0

/-- The identifier of a node. -/
def identifier (network : Network α) (node : Nat) : String :=
  ((network.stops[node]?).map (·.location.identifier)).getD ""

/-- The first moment from an arrival on at which the service at a node may start. -/
def earliestStart? (network : Network α) (node : Nat) (arrival : α) : Option α :=
  match network.stops[node]? with
  | none => some arrival
  | some stop => stop.earliestStart? arrival

/-- The nodes other than the depot. -/
def customers (network : Network α) : List Nat :=
  (List.range network.stops.length).drop 1

/-- What is asked at several nodes. -/
def loadOf (network : Network α) (nodes : List Nat) : α :=
  Scalar.total (nodes.map network.load)

/-- The distance of a round trip from the depot along a route. -/
def tourDistance (network : Network α) (route : List Nat) : α :=
  Scalar.total (List.zipWith network.distance (0 :: route) (route ++ [0]))

end Network

namespace RoutingProblem

variable {α : Type} [Scalar α] [Elementary α]

/-- The distance of two locations; without coordinates it is zero. -/
def globeDistance (first second : Location α) : α :=
  match first.coordinates, second.coordinates with
  | some start, some finish => start.distanceTo finish
  | _, _ => 0

/-- The distances between nodes: those that are given, or else those on the globe. -/
def distances (problem : RoutingProblem α) : List (List α) :=
  problem.distanceMatrix.getD
    (problem.nodes.map fun first => problem.nodes.map fun second => globeDistance first second)

/-- The times between nodes: those that are given, or else those at an average speed. -/
def times (problem : RoutingProblem α) (averageSpeed : α) : List (List α) :=
  problem.timeMatrix.getD
    (problem.distances.map fun row => row.map fun distance => distance / averageSpeed)

/-- What is asked at each node. -/
def stops (problem : RoutingProblem α) : List (Stop α) :=
  .ofDepot problem.depot :: problem.locations.map fun location =>
    .ofDemands location (problem.demandsAt location.identifier)

/-- The network of a problem. -/
def network (problem : RoutingProblem α) (averageSpeed : α) : Network α where
  distances := problem.distances
  times := problem.times averageSpeed
  stops := problem.stops

end RoutingProblem

end Optima
