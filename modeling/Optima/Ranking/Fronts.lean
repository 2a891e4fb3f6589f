import Optima.Scalar.Basic

namespace Optima

/-!
# Dominance and fronts

Candidates are compared by their violation and their objectives, the latter turned
so that lower is better.  A feasible candidate dominates an infeasible one; of two
infeasible ones the smaller violation dominates; between feasible ones it is being
nowhere worse and somewhere better.  Only a violation of exactly zero is feasible.
-/

/-- What candidates are compared by. -/
structure Standing (α : Type) where
  objectives : List α
  violation : α
  deriving Repr

namespace Standing

variable {α : Type} [Scalar α]

/-- Whether a candidate satisfies all constraints. -/
def isFeasible (standing : Standing α) : Bool :=
  standing.violation == 0

/-- Whether a vector is nowhere above another. -/
def nowhereAbove : List α → List α → Bool
  | first :: rest, other :: others => first ≤ other && nowhereAbove rest others
  | _, _ => true

/-- Whether a vector is somewhere below another. -/
def somewhereBelow : List α → List α → Bool
  | first :: rest, other :: others => first < other || somewhereBelow rest others
  | _, _ => false

/-- Whether a candidate dominates another. -/
def dominates (first second : Standing α) : Bool :=
  match first.isFeasible, second.isFeasible with
  | true, false => true
  | false, true => false
  | false, false => first.violation < second.violation
  | true, true =>
    nowhereAbove first.objectives second.objectives
      && somewhereBelow first.objectives second.objectives

end Standing

/-!
## Non-dominated sorting

Candidates are sorted into fronts.  The first front holds those that nobody
dominates, the next one those that only candidates of earlier fronts dominate.
The fronts are peeled off with a counter per candidate: the number of candidates
that dominate it and have not been peeled off.
-/

namespace Fronts

variable {α : Type} [Scalar α]

/-- The positions that a candidate dominates, in order. -/
def dominatedBy (standings : List (Standing α)) (standing : Standing α) : List Nat :=
  standings.zipIdx.filterMap fun (other, position) =>
    if standing.dominates other then some position else none

/-- For each candidate the positions that it dominates. -/
def dominatedSets (standings : List (Standing α)) : List (List Nat) :=
  standings.map (dominatedBy standings)

/-- For each candidate the number of candidates that dominate it. -/
def dominatorCounts (standings : List (Standing α)) : List Nat :=
  standings.map fun standing => standings.countP fun other => other.dominates standing

/-- Count down one candidate; it joins the next front when its counter reaches zero. -/
def countDown (state : List Nat × List Nat) (position : Nat) : List Nat × List Nat :=
  let remaining := state.1.getD position 0 - 1
  (state.1.set position remaining,
    if remaining = 0 then state.2 ++ [position] else state.2)

/-- The counters after a front has been peeled off, and the next front. -/
def peel (dominated : List (List Nat)) (counts front : List Nat) : List Nat × List Nat :=
  (front.flatMap fun position => dominated.getD position []).foldl countDown (counts, [])

/-- Peel off fronts while there are candidates left; the first argument bounds their number. -/
def peelAll (dominated : List (List Nat)) : Nat → List Nat → List Nat → List (List Nat)
  | 0, _, _ => []
  | limit + 1, counts, front =>
    if front.isEmpty then []
    else
      let (nextCounts, nextFront) := peel dominated counts front
      front :: peelAll dominated limit nextCounts nextFront

/-- The positions at which a counter is zero. -/
def undominated (counts : List Nat) : List Nat :=
  counts.zipIdx.filterMap fun (count, position) => if count = 0 then some position else none

/-- The positions front by front, the best front first; at most a number of fronts. -/
def sortWithin (limit : Nat) (standings : List (Standing α)) : List (List Nat) :=
  let counts := dominatorCounts standings
  peelAll (dominatedSets standings) limit counts (undominated counts)

/-- The positions of the candidates front by front; there are no more fronts than candidates. -/
def sort (standings : List (Standing α)) : List (List Nat) :=
  sortWithin standings.length standings

/-- For each candidate the number of candidates that it dominates. -/
def dominatedCounts (standings : List (Standing α)) : List Nat :=
  (dominatedSets standings).map List.length

/-- For each candidate the number of its front. -/
def ranks (size : Nat) (fronts : List (List Nat)) : List Nat :=
  (List.range size).map fun position =>
    (fronts.findIdx? fun front => front.contains position).getD 0

end Fronts

end Optima
