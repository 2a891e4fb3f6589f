import Optima.Routing.Construction

namespace Optima

/-!
# Local search

A plan is changed by reversing a part of a route, by moving one stop, or by
exchanging two stops of different vehicles.  The first change that every vehicle
concerned can drive and that makes the plan better is taken.
-/

/-- The new routes of the vehicles that a change concerns. -/
abbrev Move := List (Nat × List Nat)

namespace Move

/-- The plan after a change. -/
def apply (move : Move) (plan : Plan) : Plan :=
  move.foldl (fun current (vehicle, route) => current.set vehicle route) plan

/-- A route in which the part from one position to another is reversed. -/
def reversed (route : List Nat) (first last : Nat) : List Nat :=
  route.take first ++ ((route.drop first).take (last + 1 - first)).reverse ++ route.drop (last + 1)

/-- The reversals of parts of routes. -/
def reversals (plan : Plan) : List Move :=
  plan.zipIdx.flatMap fun (route, vehicle) =>
    (List.range (route.length - 1)).flatMap fun first =>
      (List.range' (first + 1) (route.length - (first + 1))).map fun last =>
        [(vehicle, reversed route first last)]

/-- Moves of one stop within its route. -/
def shiftsWithin (vehicle : Nat) (route remaining : List Nat) (node : Nat) : List Move :=
  ((Network.withStop node remaining).filter (· != route)).map fun moved => [(vehicle, moved)]

/-- Moves of one stop to the route of another vehicle. -/
def transfers (source destination : Nat) (remaining target : List Nat) (node : Nat) : List Move :=
  (Network.withStop node target).map fun moved => [(source, remaining), (destination, moved)]

/-- The moves of one stop. -/
def relocations (plan : Plan) : List Move :=
  plan.zipIdx.flatMap fun (route, source) =>
    route.zipIdx.flatMap fun (node, position) =>
      let remaining := route.eraseIdx position
      plan.zipIdx.flatMap fun (target, destination) =>
        if source = destination then shiftsWithin source route remaining node
        else transfers source destination remaining target node

/-- The exchanges of two stops between two routes. -/
def exchangesBetween (first second : Nat) (left right : List Nat) : List Move :=
  left.zipIdx.flatMap fun (node, position) =>
    right.zipIdx.map fun (other, place) =>
      [(first, left.set position other), (second, right.set place node)]

/-- The exchanges of two stops of different vehicles. -/
def exchanges (plan : Plan) : List Move :=
  plan.zipIdx.flatMap fun (left, first) =>
    (plan.zipIdx.drop (first + 1)).flatMap fun (right, second) =>
      exchangesBetween first second left right

/-- All changes of a plan in the order in which they are tried. -/
def candidates (plan : Plan) : List Move :=
  reversals plan ++ relocations plan ++ exchanges plan

end Move

namespace Fleet

variable {α : Type} [Scalar α]

/-- Whether every vehicle that a change concerns can drive its new route. -/
def isDrivable (fleet : Fleet α) (move : Move) : Bool :=
  List.all move fun (vehicle, route) =>
    match fleet.vehicles[vehicle]? with
    | none => false
    | some driver => fleet.network.isDrivable driver route

/-- The first of several changes that makes a plan with a key better. -/
def firstBetter? (fleet : Fleet α) (plan : Plan) (unserved : List Nat) (current : List α) :
    List Move → Except (EvalFailure α) (Option Plan)
  | [] => .ok none
  | move :: rest =>
    if fleet.isDrivable move then do
      let candidate ← fleet.key (move.apply plan) unserved
      if isBetter candidate current then return some (move.apply plan)
      else firstBetter? fleet plan unserved current rest
    else firstBetter? fleet plan unserved current rest

/-- A better plan that is one change away, if there is one. -/
def improved? (fleet : Fleet α) (plan : Plan) (unserved : List Nat) :
    Except (EvalFailure α) (Option Plan) := do
  let current ← fleet.key plan unserved
  fleet.firstBetter? plan unserved current (Move.candidates plan)

end Fleet

end Optima
