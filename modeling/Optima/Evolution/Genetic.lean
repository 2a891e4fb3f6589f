import Optima.Evolution.Trace

namespace Optima

/-!
# The genetic strategy

A population is replaced generation by generation; the best members are taken over
as they are, so the best fitness never falls.
-/

namespace Genetic

open Evolution

variable {α γ : Type} [Scalar α] [RandomSource γ α]

/-- The end of a run. -/
structure Ending (α : Type) where
  /-- The last generation. -/
  members : List (Member α)
  /-- The best member of the last generation. -/
  best : Member α
  trace : Trace α
  stop : StopReason

/-- The positions of members, the fittest first. -/
def ranking (members : List (Member α)) : List Nat :=
  Scalar.descending (members.map (·.fitness))

/-- The fittest of the members. -/
def best? (members : List (Member α)) : Option (Member α) :=
  (ranking members).head?.bind fun position => members[position]?

/--
Run generation after generation; the first argument is the number of generations
that may follow the current one.
-/
def evolve (candidates : Candidates α) (parameters : GeneticParameters α) :
    Nat → List (List α) → Trace α → γ → Except Breakdown (Ending α)
  | remaining, population, trace, source => do
    let members ← membersOf candidates parameters population
    match best? members with
    | none => .error .notInList
    | some best =>
      let recorded ← trace.record candidates best best.evaluation.violation
      let (stop?, looked) := recorded.stop? parameters
      let current := { recorded with watch := looked }
      match stop? with
      | some stop => return ⟨members, best, current, stop⟩
      | none =>
        match remaining with
        | 0 => return ⟨members, best, current, .interrupted (.exhausted .iterationLimit)⟩
        | further + 1 =>
          let (next, rest) := nextPopulation candidates parameters current.generations population
            (members.map (·.fitness)) source
          evolve candidates parameters further next current rest

/-- The fittest members without repetitions, with what is said of their dominance. -/
def alternatives (candidates : Candidates α) (count : Nat) (members : List (Member α)) :
    Except Breakdown (List (Alternative α)) :=
  let standings := members.map fun member => candidates.standing member.evaluation
  let fronts := Fronts.sort standings
  let crowding := Crowding.perFront (standings.map (·.objectives)) fronts
  let positions := distinctPositions (members.map (·.vector)) [] (ranking members)
  alternativesAt candidates members (Fronts.dominatedCounts standings) crowding
    (positions.take count)

/-- Solve a problem by the genetic strategy. -/
def solve (γ : Type) [SeededSource γ α] (problem : Problem α) (parameters : GeneticParameters α)
    (watch : Watch α) : Except (SolveFailure α) (Solution α) := do
  let (isCancelled, looked) := watch.lookAtFlag
  if isCancelled then return cancelledAtStart problem .genetic looked.lookAtClock.1
  else
    let candidates ← settled
      (Candidates.ofProblem problem parameters.defaultBounds parameters.tolerance)
    let source : γ ← (SeededSource.ofSeed α parameters.seed).mapError .broken
    let (population, remaining) ←
      initialPopulation candidates parameters.populationSize source
    let ending ← (evolve candidates parameters parameters.maxIterations population
      (.start looked) remaining).mapError .broken
    let alternatives ←
      (alternatives candidates parameters.alternativesCount ending.members).mapError .broken
    solution candidates parameters .genetic ending.best alternatives ending.trace ending.stop
      (commonDetails parameters ++ [("elitism_rate", .number parameters.elitismRate)]
        ++ endDetails parameters ending.trace ending.stop)

end Genetic

end Optima
