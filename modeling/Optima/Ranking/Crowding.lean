import Optima.Scalar.Basic

namespace Optima

/-!
# Crowding distance

How isolated the members of a front are.  Along each objective the members are
put in order; the first and the last are infinitely isolated, and every other
member gains the distance between its neighbours as a share of the whole range.
-/

namespace Crowding

variable {α : Type} [Scalar α]

/-- The component of each vector at an index. -/
def component (vectors : List (List α)) (index : Nat) : List α :=
  vectors.map fun vector => vector.getD index 0

/-- The range below which an objective tells no members apart. -/
def leastRange : α := Scalar.decimal 1 15

/-- Add its share of the range to the distance of each member between two neighbours. -/
def spread (numbers : List α) (range : α) : List Nat → List α → List α
  | before :: member :: after :: rest, distances =>
    let gap := numbers.getD after 0 - numbers.getD before 0
    spread numbers range (member :: after :: rest)
      (distances.modify member (· + gap / range))
  | _, distances => distances

/-- The distances after one more objective. -/
def alongObjective (distances numbers : List α) : List α :=
  let order := Scalar.ascending numbers
  let first := order.headD 0
  let last := order.getLastD 0
  let marked := (distances.set first Scalar.infinity).set last Scalar.infinity
  let range := numbers.getD last 0 - numbers.getD first 0
  if range < leastRange then marked else spread numbers range order marked

/-- The crowding distance of each member of a front. -/
def distances (vectors : List (List α)) : List α :=
  if vectors.length ≤ 2 then vectors.map fun _ => Scalar.infinity
  else
    (List.range (vectors.headD []).length).foldl
      (fun current index => alongObjective current (component vectors index))
      (vectors.map fun _ => 0)

/-- The crowding distances of all candidates, each taken within its front. -/
def perFront (vectors : List (List α)) (fronts : List (List Nat)) : List α :=
  fronts.foldl
    (fun current front =>
      (front.zip (distances (front.map fun position => vectors.getD position []))).foldl
        (fun updated entry => updated.set entry.1 entry.2) current)
    (vectors.map fun _ => 0)

end Crowding

end Optima
