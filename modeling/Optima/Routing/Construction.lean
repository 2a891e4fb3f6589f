import Optima.Problem.Goal
import Optima.Routing.Drive

namespace Optima

/-!
# Plans

A plan gives a route to every vehicle, in the order of the vehicles.  Plans are
compared by the cost of their metrics, and then by the objectives in the order of
their priorities; differences below the slack do not count.
-/

/-- The route of each vehicle. -/
abbrev Plan := List (List Nat)

namespace Plan

/-- The plan in which every vehicle stays at the depot. -/
def idle (count : Nat) : Plan := List.replicate count []

/-- The nodes that are served. -/
def served (plan : Plan) : List Nat := plan.flatten

end Plan

/-- What routes are planned for: the network, the vehicles, and what is made small or large. -/
structure Fleet (α : Type) where
  network : Network α
  vehicles : List (Vehicle α)
  objectives : List (Objective α)

namespace Fleet

variable {α : Type} [Scalar α]

/-- The vehicles on the routes of a plan. -/
def drives (fleet : Fleet α) (plan : Plan) : List (Drive α) :=
  List.zipWith fleet.network.drive fleet.vehicles plan

/-- The metrics of a plan that leaves some nodes unserved. -/
def metrics (fleet : Fleet α) (plan : Plan) (unserved : List Nat) : List (String × α) :=
  let drives := fleet.drives plan
  let used : Nat := (plan.filter (!·.isEmpty)).length
  [("total_distance", Scalar.total (drives.map (·.distance))),
   ("total_time", Scalar.total (drives.map (·.duration))),
   ("total_cost", Scalar.total (drives.map (·.cost))),
   ("vehicles_used", Scalar.ofInt used),
   ("unserved_demand", fleet.network.loadOf unserved)]

/-- The objectives in the order of their priorities. -/
def ranked (fleet : Fleet α) : List (Objective α) :=
  fleet.objectives.mergeSort fun first second => decide (first.priority ≤ second.priority)

/-- The key by which plans are compared: the cost, then each objective, lower being better. -/
def key (fleet : Fleet α) (plan : Plan) (unserved : List Nat) :
    Except (EvalFailure α) (List α) := do
  let metrics := Assignment.ofNumbers (fleet.metrics plan unserved)
  let values ← Objectives.values fleet.objectives metrics
  return Objectives.cost fleet.objectives values
    :: Objectives.minimizationVector fleet.ranked values

/-- Whether a key is better than another: below it at the first place where they differ. -/
def isBetter : List α → List α → Bool
  | candidate :: candidates, current :: others =>
    if candidate < current - Scalar.slack then true
    else if current + Scalar.slack < candidate then false
    else isBetter candidates others
  | _, _ => false

end Fleet

/-!
## Construction of a plan

Every location that can be served alone starts as a route of its own.  Routes are
joined end to end where that saves the most distance and some vehicle can still
drive the outcome, and then given to vehicles, the largest load first.  Stops of a
route that no vehicle takes are inserted one by one where they cost least.
-/

/-- What is saved by driving straight from one node to another. -/
structure Saving (α : Type) where
  amount : α
  source : Nat
  destination : Nat
  deriving Repr

namespace Saving

variable {α : Type} [Scalar α]

/-- Larger savings first, then smaller nodes. -/
def precedes (first second : Saving α) : Bool :=
  if second.amount < first.amount then true
  else if first.amount < second.amount then false
  else first.source < second.source
    || (first.source == second.source && first.destination ≤ second.destination)

end Saving

/-- Routes that are being joined.  A route has a number, that of the node which it started as, and
every node is on the route of some number. -/
structure Joining where
  /-- The stops of the routes by their numbers. -/
  routes : List (Nat × List Nat)
  /-- For every node the number of the route that it is on. -/
  owners : List (Nat × Nat)
  deriving Repr

/-- Two routes to be joined end to end: their numbers and their stops. -/
structure Joint where
  first : Nat
  second : Nat
  head : List Nat
  tail : List Nat
  deriving Repr

namespace Joining

/-- Every node is a route of its own. -/
def start (nodes : List Nat) : Joining where
  routes := nodes.map fun node => (node, [node])
  owners := nodes.map fun node => (node, node)

/-- Two routes of which one ends at the source of a saving and the other starts at its destination. -/
def joint? {α : Type} (joining : Joining) (saving : Saving α) : Option Joint := do
  let first ← joining.owners.lookup saving.source
  let second ← joining.owners.lookup saving.destination
  if first == second then none
  else
    let head ← joining.routes.lookup first
    let tail ← joining.routes.lookup second
    if head.getLast? == some saving.source && tail.head? == some saving.destination then
      some ⟨first, second, head, tail⟩
    else none

/-- Append the second of two routes to the first one, which from now on owns its stops. -/
def append (joining : Joining) (joint : Joint) : Joining where
  routes :=
    (joining.routes.map fun entry =>
      if entry.1 == joint.first then (joint.first, joint.head ++ joint.tail) else entry).filter
        (·.1 != joint.second)
  owners := joining.owners.map fun entry =>
    if joint.tail.contains entry.1 then (entry.1, joint.first) else entry

end Joining

namespace Network

variable {α : Type} [Scalar α]

/-- What is saved by driving straight from one node to another. -/
def saving (network : Network α) (source destination : Nat) : Saving α :=
  ⟨network.distance source 0 + network.distance 0 destination
    - network.distance source destination, source, destination⟩

/-- The savings between distinct nodes, the best first, as far as they are worth it. -/
def savings (network : Network α) (nodes : List Nat) : List (Saving α) :=
  let all := nodes.flatMap fun source =>
    (nodes.filter (· != source)).map fun destination => network.saving source destination
  (all.mergeSort Saving.precedes).takeWhile fun saving => !(saving.amount ≤ Scalar.slack)

/-- Join the routes that meet at a saving, if some vehicle can drive the outcome. -/
def joined? (network : Network α) (vehicles : List (Vehicle α)) (joining : Joining)
    (saving : Saving α) : Option Joining :=
  match joining.joint? saving with
  | none => none
  | some joint =>
    if network.isServable vehicles (joint.head ++ joint.tail) then some (joining.append joint)
    else none

/-- Routes after a saving has been looked at: joined where that is possible, or as they were. -/
def join (network : Network α) (vehicles : List (Vehicle α)) (joining : Joining)
    (saving : Saving α) : Joining :=
  (network.joined? vehicles joining saving).getD joining

/-- The routes that are left when the savings have been used one after the other. -/
def savingsRoutes (network : Network α) (vehicles : List (Vehicle α)) (nodes : List Nat) :
    List (List Nat) :=
  ((network.savings nodes).foldl (network.join vehicles) (.start nodes)).routes.map (·.2)

/-- The order in which routes are given to vehicles: larger loads first, then smaller nodes. -/
def heavierFirst (network : Network α) (first second : List Nat) : Bool :=
  if network.loadOf second < network.loadOf first then true
  else if network.loadOf first < network.loadOf second then false
  else first.headD 0 ≤ second.headD 0

/-- The unused vehicle that drives a route for the least cost, by its position. -/
def cheapestVehicle? (network : Network α) (vehicles : List (Vehicle α)) (plan : Plan)
    (route : List Nat) : Option Nat :=
  let offers := (vehicles.zip plan).zipIdx.filterMap fun ((vehicle, current), position) =>
    if !current.isEmpty then none
    else ((network.evaluate vehicle route).toOption).map fun drive => (drive.cost, position)
  match offers with
  | [] => none
  | first :: rest =>
    some (rest.foldl (fun best offer => if offer.1 < best.1 then offer else best) first).2

/-- Give routes to vehicles; the stops of routes that none takes are left over. -/
def assignInto (network : Network α) (vehicles : List (Vehicle α)) :
    Plan → List (List Nat) → Plan × List Nat
  | plan, [] => (plan, [])
  | plan, route :: rest =>
    match network.cheapestVehicle? vehicles plan route with
    | some position => assignInto network vehicles (plan.set position route) rest
    | none =>
      let (assigned, leftovers) := assignInto network vehicles plan rest
      (assigned, route ++ leftovers)

/-- Give routes to vehicles that stand at the depot. -/
def assign (network : Network α) (vehicles : List (Vehicle α)) (routes : List (List Nat)) :
    Plan × List Nat :=
  network.assignInto vehicles (.idle vehicles.length) (routes.mergeSort network.heavierFirst)

/-- A place for a stop: what it adds to cost and distance, and the route with the stop. -/
structure Insertion (α : Type) where
  cost : α
  distance : α
  vehicle : Nat
  route : List Nat
  deriving Repr

/-- Whether an insertion adds less than another. -/
def Insertion.isCheaper (candidate best : Insertion α) : Bool :=
  if candidate.cost == best.cost then candidate.distance < best.distance
  else candidate.cost < best.cost

/-- Every list that has one more stop somewhere. -/
def withStop (node : Nat) (route : List Nat) : List (List Nat) :=
  (List.range (route.length + 1)).map fun position =>
    route.take position ++ node :: route.drop position

/-- The places for a stop that its vehicle can drive. -/
def insertions (network : Network α) (vehicles : List (Vehicle α)) (plan : Plan) (node : Nat) :
    List (Insertion α) :=
  (vehicles.zip plan).zipIdx.flatMap fun ((vehicle, route), position) =>
    let current := network.drive vehicle route
    (withStop node route).filterMap fun candidate =>
      ((network.evaluate vehicle candidate).toOption).map fun drive =>
        ⟨drive.cost - current.cost, drive.distance - current.distance, position, candidate⟩

/-- Insert a stop where it adds least; none if no vehicle can take it. -/
def insert? (network : Network α) (vehicles : List (Vehicle α)) (plan : Plan) (node : Nat) :
    Option Plan :=
  match network.insertions vehicles plan node with
  | [] => none
  | first :: rest =>
    let best := rest.foldl (fun best candidate =>
      if candidate.isCheaper best then candidate else best) first
    some (plan.set best.vehicle best.route)

/-- Insert stops one after the other; those that no vehicle can take are left over. -/
def insertAll (network : Network α) (vehicles : List (Vehicle α)) :
    Plan → List Nat → Plan × List Nat
  | plan, [] => (plan, [])
  | plan, node :: rest =>
    match network.insert? vehicles plan node with
    | some extended => insertAll network vehicles extended rest
    | none =>
      let (outcome, unserved) := insertAll network vehicles plan rest
      (outcome, node :: unserved)

/-- The order in which left over stops are inserted: larger loads first, then smaller nodes. -/
def heavierStop (network : Network α) (first second : Nat) : Bool :=
  if network.load second < network.load first then true
  else if network.load first < network.load second then false
  else first ≤ second

/-- Construct a plan, and tell which nodes it leaves unserved. -/
def construct (network : Network α) (vehicles : List (Vehicle α)) : Plan × List Nat :=
  let (servable, unservable) := network.customers.partition fun node =>
    network.isServable vehicles [node]
  let (plan, leftovers) := network.assign vehicles (network.savingsRoutes vehicles servable)
  let (complete, unserved) :=
    network.insertAll vehicles plan (leftovers.mergeSort network.heavierStop)
  (complete, unservable ++ unserved)

end Network

end Optima
