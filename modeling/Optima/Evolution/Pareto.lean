import Optima.Evolution.Trace

namespace Optima

/-!
# The Pareto strategy

Parents and children are pooled, and the next generation is filled front by front;
the last front that does not fit is cut by crowding distance.  The first front of
the last generation is the answer; its member nearest to the ideal point stands for
it.
-/

/-- Candidates sorted into fronts, with their crowding distances. -/
structure Layering (α : Type) where
  /-- The positions front by front, the best front first. -/
  fronts : List (List Nat)
  /-- The number of the front of each candidate. -/
  ranks : List Nat
  crowding : List α
  /-- How many candidates each one dominates. -/
  dominated : List Nat

namespace Layering

variable {α : Type} [Scalar α]

/-- The fronts of candidates. -/
def ofStandings (standings : List (Standing α)) : Layering α :=
  let fronts := Fronts.sort standings
  ⟨fronts, Fronts.ranks standings.length fronts,
    Crowding.perFront (standings.map (·.objectives)) fronts, Fronts.dominatedCounts standings⟩

/-- The crowding distance of a candidate. -/
def crowdingAt (layering : Layering α) (position : Nat) : α :=
  layering.crowding.getD position 0

/-- The first front. -/
def first (layering : Layering α) : List Nat :=
  layering.fronts.headD []

/-- Positions, the most isolated ones first, ties as they stand. -/
def byIsolation (layering : Layering α) (positions : List Nat) : List Nat :=
  positions.mergeSort fun first second =>
    !decide (-layering.crowdingAt second < -layering.crowdingAt first)

/-- Fill a number of places front by front; a front that does not fit is cut by crowding. -/
def fill (layering : Layering α) : Nat → List (List Nat) → List Nat
  | _, [] => []
  | places, front :: rest =>
    if front.length ≤ places then front ++ fill layering (places - front.length) rest
    else (layering.byIsolation front).take places

/-- The candidates that survive. -/
def survivors (layering : Layering α) (count : Nat) : List Nat :=
  layering.fill count layering.fronts

/-- Whether a candidate comes before another: by its front, then by its isolation. -/
def precedes (layering : Layering α) (first second : Nat) : Bool :=
  let rank := layering.ranks.getD first 0
  let other := layering.ranks.getD second 0
  decide (rank < other) || (rank = other
    && Scalar.inOrder (-layering.crowdingAt first) (-layering.crowdingAt second))

/-- A score for each candidate, the higher the better it is placed. -/
def selectionScores (layering : Layering α) : List α :=
  let positions := List.range layering.ranks.length
  let order := positions.mergeSort layering.precedes
  positions.map fun position => -Scalar.ofInt (order.idxOf position : Int)

end Layering

namespace Pareto

open Evolution

section Ideal

variable {α : Type} [Scalar α] [Elementary α]

/-- The distance of a value from the best one as a share of the range; infinite if unknown. -/
def normalized (value : α) (range : α × α) : α :=
  let width := range.2 - range.1
  let share := (value - range.1) / if 0 < width then width else 1
  if Scalar.isNaN share then Scalar.infinity else share

/-- The weighted distance of a vector from the ideal point. -/
def distance (weights : List α) (ranges : List (α × α)) (vector : List α) : α :=
  let terms := ((vector.zip ranges).zip weights).map fun ((value, range), weight) =>
    let share := normalized value range
    if 0 < weight then weight * (share * share) else 0
  Elementary.squareRoot (Scalar.total terms)

/-- The member of a front that is nearest to the weighted ideal point. -/
def closestToIdeal (weights : List α) (vectors : List (List α)) (front : List Nat) : Nat :=
  let members := front.map fun position => vectors.getD position []
  let ranges := (List.range weights.length).map fun index =>
    (Scalar.range? (Crowding.component members index)).getD (0, 0)
  front.getD (Scalar.positionOfSmallest (members.map (distance weights ranges))) 0

end Ideal

variable {α γ : Type} [Scalar α] [RandomSource γ α]

/-- The end of a run. -/
structure Ending (α : Type) where
  /-- The last generation. -/
  members : List (Member α)
  layering : Layering α
  trace : Trace α
  stop : StopReason

/-- What the members of a population are compared by. -/
def standingsOf (candidates : Candidates α) (members : List (Member α)) : List (Standing α) :=
  members.map fun member => candidates.standing member.evaluation

/-- The fittest member at some positions. -/
def leader? (members : List (Member α)) (positions : List Nat) : Option (Member α) :=
  match positions.filterMap fun position => members[position]? with
  | [] => none
  | first :: rest =>
    some (rest.foldl (fun best member => if best.fitness < member.fitness then member else best)
      first)

/-- The smallest violation at some positions. -/
def leastViolation (members : List (Member α)) (positions : List Nat) : α :=
  (Scalar.smallest? ((positions.filterMap fun position => members[position]?).map
    (·.evaluation.violation))).getD 0

/-- The members of the next generation, chosen from parents and children together. -/
def replacement (candidates : Candidates α) (size : Nat) (pool : List (Member α)) :
    List (Member α) :=
  ((Layering.ofStandings (standingsOf candidates pool)).survivors size).filterMap
    fun position => pool[position]?

/--
Run generation after generation; the first argument is the number of generations
that may follow the current one.
-/
def evolve (candidates : Candidates α) (parameters : GeneticParameters α) :
    Nat → List (Member α) → Trace α → γ → Except Breakdown (Ending α)
  | remaining, members, trace, source => do
    let layering := Layering.ofStandings (standingsOf candidates members)
    match leader? members layering.first with
    | none => .error .notInList
    | some leader =>
      let recorded ← trace.record candidates leader (leastViolation members layering.first)
      let (stop?, looked) := recorded.stop? parameters
      let current := { recorded with watch := looked }
      match stop? with
      | some stop => return ⟨members, layering, current, stop⟩
      | none =>
        match remaining with
        | 0 => return ⟨members, layering, current, .interrupted (.exhausted .iterationLimit)⟩
        | further + 1 =>
          let (children, rest) := offspring candidates parameters current.generations
            (members.map (·.vector)) layering.selectionScores parameters.populationSize source
          let added ← membersOf candidates parameters children
          let next := replacement candidates parameters.populationSize (members ++ added)
          evolve candidates parameters further next current rest

/-- The members of the first front without repetitions, the most isolated ones first. -/
def alternatives (candidates : Candidates α) (ending : Ending α) :
    Except Breakdown (List (Alternative α)) :=
  let positions := distinctPositions (ending.members.map (·.vector)) []
    (ending.layering.byIsolation ending.layering.first)
  alternativesAt candidates ending.members ending.layering.dominated ending.layering.crowding
    positions

/-- The member that stands for the first front. -/
def primary? [Elementary α] (candidates : Candidates α) (ending : Ending α) :
    Option (Member α) :=
  let vectors := (standingsOf candidates ending.members).map (·.objectives)
  let weights := candidates.problem.objectives.map (·.weight)
  ending.members[closestToIdeal weights vectors ending.layering.first]?

/-- Solve a problem by the Pareto strategy. -/
def solve [Elementary α] (γ : Type) [SeededSource γ α] (problem : Problem α)
    (parameters : GeneticParameters α) (watch : Watch α) :
    Except (SolveFailure α) (Solution α) := do
  let (isCancelled, looked) := watch.lookAtFlag
  if isCancelled then return cancelledAtStart problem .pareto looked.lookAtClock.1
  else
    let candidates ← settled
      (Candidates.ofProblem problem parameters.defaultBounds parameters.tolerance)
    let source : γ ← (SeededSource.ofSeed α parameters.seed).mapError .broken
    let (population, remaining) ←
      initialPopulation candidates parameters.populationSize source
    let members ← (membersOf candidates parameters population).mapError .broken
    let ending ← (evolve candidates parameters parameters.maxIterations members (.start looked)
      remaining).mapError .broken
    match primary? candidates ending with
    | none => breakDown .notInList
    | some primary =>
      let alternatives ← (alternatives candidates ending).mapError .broken
      solution candidates parameters .pareto primary alternatives ending.trace ending.stop
        (commonDetails parameters ++ [("front_size", .natural alternatives.length)]
          ++ endDetails parameters ending.trace ending.stop)

end Pareto

end Optima
