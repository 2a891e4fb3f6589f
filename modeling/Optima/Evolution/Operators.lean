import Optima.Problem.Parameters
import Optima.Random.Source
import Optima.Search.Candidates

namespace Optima

/-!
# Genetic operators

How a population of vectors is seeded, and how children are made of it: parents
are chosen by tournaments, exchange the ends of their vectors, and every child
mutates in at least one component.  Every vector that is made lies in the search
space.
-/

namespace Evolution

variable {α γ : Type} [Scalar α] [RandomSource γ α]

/-- One half. -/
def half : α := Scalar.decimal 5 1

/-- Whether the width of an interval is a number. -/
def hasFiniteWidth (interval : α × α) : Bool :=
  Scalar.isFinite (interval.2 - interval.1)

/-- Whether an interval ends before it starts. -/
def isReversed (interval : α × α) : Bool :=
  interval.2 - interval.1 < 0

/-- The interval that a variable is sampled from; it leaves room to round a whole number. -/
def samplingInterval (isDiscrete : Bool) (interval : α × α) : α × α :=
  let room := half * Scalar.indicator isDiscrete
  (interval.1 - room, interval.2 + room)

/-- The intervals that the variables are sampled from. -/
def samplingIntervals (candidates : Candidates α) : Except Breakdown (List (α × α)) :=
  let intervals := (candidates.bounds.zip candidates.discrete).map
    fun (interval, isDiscrete) => samplingInterval isDiscrete interval
  if !intervals.all hasFiniteWidth then .error .rangeTooWide
  else if intervals.any isReversed then .error .rangeReversed
  else .ok intervals

/--
The vectors that start a population: the initial values, both corners of the search
space, and the corner moved onto thresholds, where constrained optima usually sit.
-/
def seeds (candidates : Candidates α) : Except (SolveFailure α) (List (List α)) := do
  let initial? ← candidates.initial?.mapError .broken
  let thresholds ← settled candidates.thresholdVectors
  return initial?.toList ++ [candidates.lower, candidates.upper] ++ thresholds

/-- A first population of a size: the seeds, then samples. -/
def initialPopulation (candidates : Candidates α) (size : Nat) (source : γ) :
    Except (SolveFailure α) (List (List α) × γ) := do
  let seeds ← seeds candidates
  let intervals ← (samplingIntervals candidates).mapError .broken
  let (samples, remaining) :=
    RandomSource.repeated (RandomSource.uniform intervals) (size - seeds.length) source
  return ((seeds.take size ++ samples).map candidates.repair, remaining)

/-- The position of the best of some contenders, who are drawn from a population. -/
def tournament (scores : List α) (size : Nat) (source : γ) : Nat × γ :=
  let (contenders, remaining) :=
    RandomSource.repeated (RandomSource.below α scores.length) size source
  let best := Scalar.positionOfLargest (contenders.map fun contender => scores.getD contender 0)
  (contenders.getD best 0, remaining)

/-- Which components of a vector mutate; one of them always does. -/
def mutationMask (size : Nat) (rate : α) (source : γ) : List Bool × γ :=
  let (draws, remaining) := RandomSource.repeated RandomSource.unit size source
  let mask := draws.map fun draw => decide (draw < rate)
  if size = 0 || mask.any id then (mask, remaining)
  else
    let (chosen, rest) := RandomSource.below α size remaining
    (mask.set chosen true, rest)

/-- The spread of a mutation along one variable. -/
def spread (parameters : GeneticParameters α) (generation : Nat) (isDiscrete : Bool)
    (interval : α × α) : α :=
  let decay := Scalar.power parameters.mutationDecay (Scalar.ofInt generation)
  let spread := parameters.mutationScale * (interval.2 - interval.1) * decay
  if isDiscrete then Scalar.peak spread half else spread

/-- One component after its mutation: a truth value is flipped, any other number is moved. -/
def mutateOne (parameters : GeneticParameters α) (generation : Nat) (decision : Variable α)
    (interval : α × α) (noise value : α) : α :=
  if decision.kind = .binary then 1 - value
  else value + noise * spread parameters generation decision.isDiscrete interval

/-- Mutate the components of a vector that are marked. -/
def mutateAll (parameters : GeneticParameters α) (generation : Nat) :
    List (Variable α × (α × α)) → List (Bool × α) → List α → List α
  | (decision, interval) :: rest, (marked, noise) :: draws, value :: others =>
    (if marked then mutateOne parameters generation decision interval noise value else value)
      :: mutateAll parameters generation rest draws others
  | _, _, _ => []

/-- A vector after its mutation. -/
def mutate (candidates : Candidates α) (parameters : GeneticParameters α) (generation : Nat)
    (vector : List α) (source : γ) : List α × γ :=
  let (mask, afterMask) := mutationMask candidates.size parameters.mutationRate source
  let (noise, remaining) := RandomSource.repeated RandomSource.normal candidates.size afterMask
  let moved := mutateAll parameters generation
    (candidates.problem.decisions.zip candidates.bounds) (mask.zip noise) vector
  (candidates.repair moved, remaining)

/-- Two vectors after they have exchanged their ends, or as they are. -/
def crossover (size : Nat) (rate : α) (first second : List α) (source : γ) :
    (List α × List α) × γ :=
  if size < 2 then ((first, second), source)
  else
    let (draw, afterDraw) := RandomSource.unit source
    if draw < rate then
      let (offset, remaining) := RandomSource.below α (size - 1) afterDraw
      let point := offset + 1
      ((first.take point ++ second.drop point, second.take point ++ first.drop point), remaining)
    else ((first, second), afterDraw)

/-- Two children of two parents, who are chosen by tournaments. -/
def pair (candidates : Candidates α) (parameters : GeneticParameters α) (generation : Nat)
    (population : List (List α)) (scores : List α) (source : γ) : (List α × List α) × γ :=
  let (first, afterFirst) := tournament scores parameters.tournamentSize source
  let (second, afterSecond) := tournament scores parameters.tournamentSize afterFirst
  let ((left, right), afterCrossover) := crossover candidates.size parameters.crossoverRate
    (population.getD first []) (population.getD second []) afterSecond
  let (leftChild, afterLeft) := mutate candidates parameters generation left afterCrossover
  let (rightChild, remaining) := mutate candidates parameters generation right afterLeft
  ((leftChild, rightChild), remaining)

/-- A number of children; of a last pair only one may be kept. -/
def offspring (candidates : Candidates α) (parameters : GeneticParameters α) (generation : Nat)
    (population : List (List α)) (scores : List α) (count : Nat) (source : γ) :
    List (List α) × γ :=
  let (pairs, remaining) := RandomSource.repeated
    (pair candidates parameters generation population scores) ((count + 1) / 2) source
  ((pairs.flatMap fun (first, second) => [first, second]).take count, remaining)

/-- How many of the best are taken over as they are: at least one, at most all. -/
def eliteCount (rate : α) (size : Nat) : Nat :=
  let share := ((Scalar.toRat? (Scalar.floor (rate * Scalar.ofInt size))).map Rat.floor).getD 0
  min size (max 1 share.toNat)

/-- The next population: the best of the current one, then children. -/
def nextPopulation (candidates : Candidates α) (parameters : GeneticParameters α)
    (generation : Nat) (population : List (List α)) (fitness : List α) (source : γ) :
    List (List α) × γ :=
  let count := eliteCount parameters.elitismRate population.length
  let elites := ((Scalar.descending fitness).take count).map fun position =>
    population.getD position []
  let (children, remaining) :=
    offspring candidates parameters generation population fitness (population.length - count) source
  (elites ++ children, remaining)

/-- The fitness of a candidate, for which higher is better; violations are penalized. -/
def fitness (parameters : GeneticParameters α) (evaluation : Evaluation α) : α :=
  if evaluation.isFeasible then evaluation.score
  else evaluation.score - parameters.penaltyCoefficient * (1 + evaluation.violation)

end Evolution

end Optima
