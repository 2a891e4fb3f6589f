import Optima.Problem.Parameters
import Optima.Random.Source
import Optima.Search.Candidates
import Optima.Search.Watch

namespace Optima

/-!
# Backtracking

A finite search space is made of a problem, and searched in depth.
-/

/-!
## Grids

Backtracking tries finitely many values of each variable.  A real interval becomes
a grid of even steps together with the values at which constraints on the variable
alone switch; a long run of whole numbers is thinned out in the same way, and a
short one is tried in full.
-/

namespace Grid

variable {α : Type} [Scalar α]

/-- Runs of whole numbers longer than this many times the grid are thinned out. -/
def enumerationFactor : Int := 10

/-- Points at even distances from one number to another, both included. -/
def evenly (lower upper : α) (count : Nat) : List α :=
  let step := (upper - lower) / Scalar.ofInt (count - 1 : Int)
  ((List.range (count - 1)).map fun (index : Nat) => Scalar.ofInt index * step + lower) ++ [upper]

/-- The numbers from one on, one apart, up to another. -/
def wholeRun (lower upper : α) : List α :=
  let count := ((Scalar.toRat? (Scalar.ceiling (upper + 1 - lower))).map Rat.floor).getD 0
  (List.range count.toNat).map fun (index : Nat) => lower + Scalar.ofInt index

/-- The points of a list that lie in an interval, each once and in ascending order. -/
def pointsWithin (lower upper : α) (points : List α) : List α :=
  Scalar.distinct (points.filter fun point => Scalar.within point lower upper)

/-- The values to be tried of a variable. -/
def domain (candidates : Candidates α) (steps : Nat) (decision : Variable α) (interval : α × α) :
    Except (EvalFailure α) (List α) := do
  let (lower, upper) := interval
  if lower == upper then return [lower]
  else if decision.kind = .continuous then
    let thresholds ← candidates.thresholds decision.name
    return pointsWithin lower upper (evenly lower upper steps ++ thresholds)
  else if Scalar.ofInt (enumerationFactor * (steps : Int)) < upper - lower + 1 then
    let thresholds ← candidates.thresholds decision.name
    return pointsWithin lower upper
      ((evenly lower upper steps ++ thresholds).map Scalar.nearest)
  else return wholeRun lower upper

variable {γ : Type} [RandomSource γ α]

/-- Put values into the order in which they are tried. -/
def ordered (ordering : ValueOrdering) (values : List α) (source : γ) : List α × γ :=
  match ordering with
  | .ascending => (values, source)
  | .descending => (values.reverse, source)
  | .random => RandomSource.shuffle α values source

/-- The values of the variable at a position in the order in which they are tried. -/
def orderedDomain (candidates : Candidates α) (parameters : BacktrackingParameters α)
    (position : Nat) (source : γ) : Except (EvalFailure α) (List α × γ) := do
  match candidates.problem.decisions[position]?, candidates.bounds[position]? with
  | some decision, some interval =>
    let values ← domain candidates parameters.gridSteps decision interval
    return ordered parameters.valueOrdering values source
  | _, _ => return ([], source)

end Grid

/-!
## Depth-first search

Variables are given values one after the other, those with one value left first.
A constraint is checked as soon as every name that it reads has a value, and a
value under which it fails is given up together with everything below it.
-/

namespace Backtracking

variable {α : Type}

/-- A variable at its place in the search. -/
structure Level (α : Type) where
  /-- Position of the variable in the problem. -/
  position : Nat
  name : String
  /-- The values to be tried in order. -/
  domain : List α
  /-- The constraints to be checked once the variable has a value. -/
  checks : List (Constraint α)

/-- How far the search has come. -/
structure Progress (α : Type) where
  /-- Number of values tried. -/
  nodes : Nat
  /-- The best vector so far, with its score. -/
  best : Option (List α × α)
  /-- The improvements so far, the latest first. -/
  history : List (ConvergencePoint α)
  watch : Watch α

/-- Why the search stops before every value has been tried. -/
inductive Halt where
  | interrupted (interruption : Interruption)
  /-- An assignment has been found and no other one is asked for. -/
  | found
  deriving Repr, DecidableEq

/-- Try the values of a list one after the other until one of them halts the search. -/
def tryEach {ε σ β : Type} (attempt : β → σ → Except ε (Option Halt × σ)) :
    List β → σ → Except ε (Option Halt × σ)
  | [], state => .ok (none, state)
  | value :: rest, state => do
    let (halt?, after) ← attempt value state
    match halt? with
    | some halt => return (some halt, after)
    | none => tryEach attempt rest after

variable [Scalar α]

/-- The assignment of the levels that have a value. -/
def assignmentOf (chosen : List (Level α × α)) : Assignment α :=
  Table.ofList (chosen.map fun entry => (entry.1.name, .number entry.2))

/-- The vector of a number of variables in which the chosen levels have their values. -/
def vectorOf (size : Nat) (chosen : List (Level α × α)) : List α :=
  chosen.foldl (fun vector entry => vector.set entry.1.position entry.2) (List.replicate size 0)

/-- Whether an assignment satisfies constraints; one that cannot be evaluated fails. -/
def consistent (tolerance : α) (assignment : Assignment α) (checks : List (Constraint α)) :
    Except Breakdown Bool :=
  match Constraints.feasible tolerance assignment checks with
  | .ok verdict => .ok verdict
  | .error (.rejected _) => .ok false
  | .error (.broken breakdown) => .error breakdown

/-- Whether a score is above that of the best vector so far. -/
def improves (progress : Progress α) (score : α) : Bool :=
  let best := (progress.best.map (·.2)).getD (-Scalar.infinity)
  best < score

/-- Keep a vector that improves on the best one so far. -/
def record (candidates : Candidates α) (vector : List α) (progress : Progress α) :
    Except Breakdown (Progress α) := do
  let evaluation ← candidates.evaluate vector
  if improves progress evaluation.score then
    let value ← candidates.traceValue evaluation.score
    let (elapsed, looked) := progress.watch.lookAtClock
    return { progress with
      best := some (vector, evaluation.score)
      history := ⟨progress.nodes, value, 0, elapsed⟩ :: progress.history
      watch := looked }
  else return progress

/-- Give values to the levels of a list, given those of the levels before. -/
def descend (candidates : Candidates α) (budget : Budget α) (exhaustive : Bool) :
    List (Level α) → List (Level α × α) → Progress α →
      Except Breakdown (Option Halt × Progress α)
  | [], chosen, progress => do
    let after ← record candidates (vectorOf candidates.size chosen) progress
    return (if exhaustive then none else some .found, after)
  | level :: deeper, chosen, progress =>
    tryEach (fun value before => do
      let (interruption?, looked) := budget.interruption before.nodes before.watch
      match interruption? with
      | some interruption => return (some (.interrupted interruption), { before with watch := looked })
      | none =>
        let visited := { before with nodes := before.nodes + 1, watch := looked }
        let extended := chosen ++ [(level, value)]
        if ← consistent candidates.tolerance (assignmentOf extended) level.checks then
          descend candidates budget exhaustive deeper extended visited
        else return (none, visited)) level.domain progress

/-- The positions of the variables, those with one value left first. -/
def visitingOrder (candidates : Candidates α) : List Nat :=
  let isFixed (position : Nat) : Bool :=
    (candidates.names[position]?).any candidates.reduction.fixed.contains
  let positions := List.range candidates.size
  positions.filter isFixed ++ positions.filter fun position => !isFixed position

/-- The depth at which the last name that a constraint reads gets its value. -/
def depthOf (names : List String) (order : List Nat) (constraint : Constraint α) :
    Except Breakdown Nat :=
  match constraint.rule.names? with
  | none => .ok (order.length - 1)
  | some referenced => do
    let depths ← referenced.mapM fun name =>
      match names.findIdx? (· == name) with
      | some position => .ok (order.idxOf position)
      | none => .error .notInList
    return depths.foldl max 0

/-- The constraints to be checked at a depth. -/
def checksAt (depths : List (Constraint α × Nat)) (depth : Nat) : List (Constraint α) :=
  (depths.filter (·.2 == depth)).map (·.1)

variable {γ : Type} [RandomSource γ α]

/-- The domains of variables, each put into order with draws from one source. -/
def orderedDomains (candidates : Candidates α) (parameters : BacktrackingParameters α) :
    List Nat → γ → Except (EvalFailure α) (List (List α))
  | [], _ => .ok []
  | position :: rest, source => do
    let (domain, remaining) ← Grid.orderedDomain candidates parameters position source
    let others ← orderedDomains candidates parameters rest remaining
    return domain :: others

/-- The levels of the search in order. -/
def levels (candidates : Candidates α) (parameters : BacktrackingParameters α) (source : γ) :
    Except (EvalFailure α) (List (Level α)) := do
  let order := visitingOrder candidates
  let domains ← orderedDomains candidates parameters order source
  let depths ← (candidates.problem.constraints.mapM fun constraint => do
    return (constraint, ← depthOf candidates.names order constraint)).mapError .broken
  return (order.zip domains).zipIdx.map fun ((position, domain), depth) =>
    ⟨position, candidates.names.getD position "", domain, checksAt depths depth⟩

end Backtracking

end Optima
