import Optima.Evolution.Operators
import Optima.Proofs.Evolution.Replacement
import Optima.Proofs.Search.Space

namespace Optima

/-!
# Breeding in the search space

Whatever is drawn, a first population lies in the search space, and so does what is bred
of vectors that do: the exchange of ends keeps every component with its variable, and a
mutation moves finite numbers by finite ones before it repairs them.
-/

/-- Finite numbers that are added, subtracted and multiplied without a NaN. -/
class SteadyScalar (α : Type) [Scalar α] : Prop extends FractionalScalar α where
  isNaN_add (first second : α) :
    Scalar.isFinite first = true → Scalar.isNaN second = false →
      Scalar.isNaN (first + second) = false
  isNaN_sub (first second : α) :
    Scalar.isFinite first = true → Scalar.isFinite second = true →
      Scalar.isNaN (first - second) = false
  isNaN_mul (first second : α) :
    Scalar.isFinite first = true → Scalar.isFinite second = true →
      Scalar.isNaN (first * second) = false
  isFinite_of_isFinite_sub (first second : α) :
    Scalar.isFinite (first - second) = true →
      Scalar.isFinite first = true ∧ Scalar.isFinite second = true

/-- Draws that are finite, and below their limit where there is one. -/
class LawfulSource (γ α : Type) [Scalar α] [RandomSource γ α] : Prop where
  isFinite_unit (source : γ) : Scalar.isFinite (RandomSource.unit (α := α) source).1 = true
  isFinite_normal (source : γ) : Scalar.isFinite (RandomSource.normal (α := α) source).1 = true
  below_lt (limit : Nat) (source : γ) : 0 < limit → (RandomSource.below α limit source).1 < limit

/-- Draws of natural numbers that are below their limit where there is one. -/
class LimitedSource (γ α : Type) [RandomSource γ α] : Prop where
  below_lt (limit : Nat) (source : γ) : 0 < limit → (RandomSource.below α limit source).1 < limit

instance {γ α : Type} [Scalar α] [RandomSource γ α] [LawfulSource γ α] : LimitedSource γ α :=
  ⟨LawfulSource.below_lt⟩

/-- What is among repeated draws has been drawn from some source. -/
theorem RandomSource.exists_of_mem_repeated
    {γ β : Type}
    {draw : γ → β × γ}
    {count : Nat}
    {source : γ}
    {drawn : β}
    (member : drawn ∈ (RandomSource.repeated draw count source).1) :
    ∃ current, drawn = (draw current).1 := by
  induction count generalizing source with
  | zero => simp [RandomSource.repeated] at member
  | succ count inductionHypothesis =>
      rcases List.mem_cons.mp member with isFirst | isLater
      · exact ⟨source, isFirst⟩
      · exact inductionHypothesis isLater

namespace Evolution

variable {α γ : Type} [Scalar α] [RandomSource γ α] {candidates : Candidates α}
  {parameters : GeneticParameters α} {vector : List α}

/-- The spreads of the mutations along all variables are finite in every generation. -/
def HaveFiniteSpreads (candidates : Candidates α) (parameters : GeneticParameters α) : Prop :=
  ∀ generation, ∀ slot ∈ candidates.problem.decisions.zip candidates.bounds,
    Scalar.isFinite (spread parameters generation slot.1.isDiscrete slot.2) = true

/-- Both children of two vectors have a property whenever the vectors do. -/
def IsHeritable (γ : Type) [RandomSource γ α] (candidates : Candidates α)
    (parameters : GeneticParameters α) (holds : List α → Prop) : Prop :=
  ∀ first second, holds first → holds second → ∀ (generation : Nat) (before after : γ),
    holds (mutate candidates parameters generation
        (crossover candidates.size parameters.crossoverRate first second before).1.1 after).1 ∧
      holds (mutate candidates parameters generation
        (crossover candidates.size parameters.crossoverRate first second before).1.2 after).1

section Exchanging

theorem contains_exchange
    {first second : List α}
    (isContained : candidates.Contains first)
    (isContainedToo : candidates.Contains second)
    (point : Nat) :
    candidates.Contains (first.take point ++ second.drop point) := by
  unfold Candidates.Contains at *
  rw [← List.take_append_drop point candidates.problem.decisions]
  exact List.rel_append (List.forall₂_take point isContained)
    (List.forall₂_drop point isContainedToo)

theorem contains_crossover
    {size : Nat}
    {rate : α}
    {first second : List α}
    (isContained : candidates.Contains first)
    (isContainedToo : candidates.Contains second)
    (source : γ) :
    candidates.Contains (crossover size rate first second source).1.1 ∧
      candidates.Contains (crossover size rate first second source).1.2 := by
  unfold crossover
  split
  · exact ⟨isContained, isContainedToo⟩
  · dsimp only
    split
    · exact ⟨contains_exchange isContained isContainedToo _,
        contains_exchange isContainedToo isContained _⟩
    · exact ⟨isContained, isContainedToo⟩

end Exchanging

@[simp] theorem length_mutationMask
    {size : Nat}
    {rate : α}
    {source : γ} :
    (mutationMask size rate source).1.length = size := by
  unfold mutationMask
  dsimp only
  split
  · simp [RandomSource.length_repeated]
  · simp [RandomSource.length_repeated]

section Lengths

/-- A mutation leaves as many components as there were. -/
theorem length_mutateAll
    {generation : Nat}
    {slots : List (Variable α × (α × α))}
    {draws : List (Bool × α)}
    (sameLength : slots.length = vector.length)
    (sameLengthToo : draws.length = vector.length) :
    (mutateAll parameters generation slots draws vector).length = vector.length := by
  fun_induction mutateAll with
  | case1 decision interval slots marked noise draws value others inductionHypothesis =>
      simp only [List.length_cons, Nat.add_right_cancel_iff] at *
      exact inductionHypothesis sameLength sameLengthToo
  | case2 slots draws vector isOver =>
      -- Lists of one length end together.
      rcases slots with _ | ⟨⟨decision, interval⟩, slots⟩
      · obtain rfl := List.length_eq_zero_iff.mp sameLength.symm
        rfl
      · rcases draws with _ | ⟨⟨marked, noise⟩, draws⟩
        · obtain rfl := List.length_eq_zero_iff.mp sameLengthToo.symm
          rfl
        · rcases vector with _ | ⟨value, others⟩
          · rfl
          · exact absurd rfl (isOver _ _ _ _ _ _ _ _ rfl rfl)

/-- A mutation along all variables leaves a component for each of them. -/
theorem length_mutateAll_decisions
    {generation : Nat}
    {draws : List (Bool × α)}
    (isSize : vector.length = candidates.size)
    (sameLength : draws.length = candidates.size) :
    (mutateAll parameters generation (candidates.problem.decisions.zip candidates.bounds) draws
      vector).length = candidates.size := by
  have sameSlots :
      (candidates.problem.decisions.zip candidates.bounds).length = vector.length := by
    rw [isSize, Candidates.bounds_eq_map, List.length_zip, List.length_map, min_self,
      Candidates.size]
  exact (length_mutateAll sameSlots (sameLength.trans isSize.symm)).trans isSize

/-- Two vectors of one length that exchange their ends keep it. -/
theorem length_crossover
    {size : Nat}
    {rate : α}
    {first second : List α}
    (isLength : first.length = candidates.size)
    (isLengthToo : second.length = candidates.size)
    (source : γ) :
    (crossover size rate first second source).1.1.length = candidates.size ∧
      (crossover size rate first second source).1.2.length = candidates.size := by
  have exchanged {one other : List α} (isLength : one.length = candidates.size)
      (isLengthToo : other.length = candidates.size) (point : Nat) :
      (one.take point ++ other.drop point).length = candidates.size := by
    rw [List.length_append, List.length_take, List.length_drop]
    omega
  unfold crossover
  split
  · exact ⟨isLength, isLengthToo⟩
  · dsimp only
    split
    · exact ⟨exchanged isLength isLengthToo _, exchanged isLengthToo isLength _⟩
    · exact ⟨isLength, isLengthToo⟩

/-- A sample of intervals has a number for each of them. -/
theorem length_uniform
    (intervals : List (α × α))
    (source : γ) :
    (RandomSource.uniform intervals source).1.length = intervals.length := by
  induction intervals generalizing source with
  | nil => rfl
  | cons interval rest inductionHypothesis =>
      exact congrArg (· + 1) (inductionHypothesis (RandomSource.unit (α := α) source).2)

theorem length_of_samplingIntervals_eq_ok
    {intervals : List (α × α)}
    (areIntervals : samplingIntervals candidates = .ok intervals) :
    intervals.length = candidates.size := by
  unfold samplingIntervals at areIntervals
  dsimp only at areIntervals
  split at areIntervals
  · cases areIntervals
  · split at areIntervals
    · cases areIntervals
    · cases areIntervals
      simp [Candidates.bounds_eq_map, Candidates.discrete, Candidates.size]

/-- A first population is made by repairing vectors that have a component for each variable. -/
theorem exists_raw_of_mem_initialPopulation
    {size : Nat}
    {source remaining : γ}
    {population : List (List α)}
    (populated : initialPopulation candidates size source = .ok (population, remaining)) :
    ∀ vector ∈ population, ∃ raw, raw.length = candidates.size ∧ vector = candidates.repair raw := by
  obtain ⟨vectors, areSeeds, populated⟩ := bind_eq_ok populated
  obtain ⟨intervals, areIntervals, populated⟩ := bind_eq_ok populated
  cases populated
  intro vector member
  obtain ⟨raw, isRaw, rfl⟩ := List.mem_map.mp member
  refine ⟨raw, ?_, rfl⟩
  rcases List.mem_append.mp isRaw with isSeed | isSample
  · have isSeed := List.mem_of_mem_take isSeed
    obtain ⟨initial?, isInitial, areSeeds⟩ := bind_eq_ok areSeeds
    obtain ⟨thresholds, areThresholds, areSeeds⟩ := bind_eq_ok areSeeds
    cases areSeeds
    rw [List.mem_append, List.mem_append, Option.mem_toList] at isSeed
    rcases isSeed with (isStart | isCorner) | isThreshold
    · subst isStart
      exact Candidates.length_of_initial?_eq_ok (mapError_eq_ok isInitial)
    · rcases List.mem_pair.mp isCorner with rfl | rfl
      · exact Candidates.length_lower
      · exact Candidates.length_upper
    · obtain ⟨position, threshold, interval, -, rfl⟩ :=
        Candidates.exists_of_mem_thresholdVectors (settled_eq_ok areThresholds) isThreshold
      exact Candidates.length_repair ((List.length_set).trans Candidates.length_lower)
  · obtain ⟨current, rfl⟩ := RandomSource.exists_of_mem_repeated isSample
    exact (length_uniform intervals current).trans
      (length_of_samplingIntervals_eq_ok (mapError_eq_ok areIntervals))

end Lengths

section Mutating

variable [SteadyScalar α]

theorem isNaN_mutateOne
    {generation : Nat}
    {decision : Variable α}
    {interval : α × α}
    {noise value : α}
    (isFiniteSpread :
      Scalar.isFinite (spread parameters generation decision.isDiscrete interval) = true)
    (isFiniteNoise : Scalar.isFinite noise = true)
    (isFinite : Scalar.isFinite value = true) :
    Scalar.isNaN (mutateOne parameters generation decision interval noise value) = false := by
  unfold mutateOne
  split
  · exact SteadyScalar.isNaN_sub _ _ Scalar.isWhole_one.isFinite isFinite
  · exact SteadyScalar.isNaN_add _ _ isFinite
      (SteadyScalar.isNaN_mul _ _ isFiniteNoise isFiniteSpread)

/-- Finite numbers are still numbers after a mutation. -/
theorem isNaN_of_mem_mutateAll
    {generation : Nat}
    {slots : List (Variable α × (α × α))}
    {draws : List (Bool × α)}
    (areSpreads :
      ∀ slot ∈ slots,
        Scalar.isFinite (spread parameters generation slot.1.isDiscrete slot.2) = true)
    (areDraws : ∀ draw ∈ draws, Scalar.isFinite draw.2 = true)
    (areFinite : ∀ value ∈ vector, Scalar.isFinite value = true) :
    ∀ value ∈ mutateAll parameters generation slots draws vector,
      Scalar.isNaN value = false := by
  fun_induction mutateAll with
  | case1 decision interval slots marked noise draws value others inductionHypothesis =>
      simp only [List.forall_mem_cons] at *
      refine ⟨?_, inductionHypothesis areSpreads.2 areDraws.2 areFinite.2⟩
      split
      · exact isNaN_mutateOne areSpreads.1 areDraws.1 areFinite.1
      · exact Scalar.isNaN_of_isFinite areFinite.1
  | case2 slots draws vector isOver => nofun

end Mutating

section Choosing

variable {population : List (List α)} {scores : List α} {generation count : Nat} {source : γ}
  {holds : List α → Prop}
  (sameLength : scores.length = population.length)

include sameLength

/-- A tournament among the vectors of a population is won by one of them. -/
theorem getD_tournament_mem
    [LimitedSource γ α]
    {size : Nat}
    (isInhabited : 0 < population.length) :
    population.getD (tournament scores size source).1 [] ∈ population := by
  refine getD_mem_of_lt ?_ []
  rw [← sameLength] at isInhabited ⊢
  unfold tournament
  dsimp only
  rw [List.getD_eq_getElem?_getD]
  cases isContender : (RandomSource.repeated (RandomSource.below α scores.length) size source).1[
      Scalar.positionOfLargest
        ((RandomSource.repeated (RandomSource.below α scores.length) size source).1.map
          fun contender => scores.getD contender 0)]? with
  | none => exact isInhabited
  | some contender =>
      obtain ⟨current, rfl⟩ :=
        RandomSource.exists_of_mem_repeated (List.mem_of_getElem? isContender)
      exact LimitedSource.below_lt _ current isInhabited

/-- The elites of a population are of it. -/
theorem mem_of_mem_elites
    {vector : List α}
    (isElite :
      vector ∈ ((Scalar.descending scores).take count).map fun position =>
        population.getD position []) :
    vector ∈ population := by
  obtain ⟨position, inElites, rfl⟩ := List.mem_map.mp isElite
  have inRange := Scalar.mem_descending_iff.mp (List.mem_of_mem_take inElites)
  exact getD_mem_of_lt (sameLength ▸ inRange) []

/-- The next population is as large as the current one. -/
theorem length_nextPopulation
    (generation : Nat)
    (source : γ) :
    (nextPopulation candidates parameters generation population scores source).1.length =
      population.length := by
  have atMost : eliteCount parameters.elitismRate population.length ≤ population.length :=
    min_le_left _ _
  unfold nextPopulation
  dsimp only
  rw [List.length_append, List.length_map, List.length_take, Scalar.length_descending,
    sameLength, length_offspring]
  omega

variable [LimitedSource γ α]
  (isHeritable : IsHeritable γ candidates parameters holds)
  (areGood : ∀ vector ∈ population, holds vector)

include isHeritable areGood

/-- What is heritable and holds of a population holds of its offspring. -/
theorem of_mem_offspring
    (isInhabited : 0 < count → 0 < population.length) :
    ∀ vector ∈ (offspring candidates parameters generation population scores count source).1,
      holds vector := by
  intro vector member
  have someChild : 0 < count := by
    have isChild := List.length_pos_of_mem member
    rwa [length_offspring] at isChild
  obtain ⟨parents, isPair, isChild⟩ := List.mem_flatMap.mp (List.mem_of_mem_take member)
  obtain ⟨current, rfl⟩ := RandomSource.exists_of_mem_repeated isPair
  have isParent (now : γ) :
      holds (population.getD (tournament scores parameters.tournamentSize now).1 []) :=
    areGood _ (getD_tournament_mem sameLength (isInhabited someChild))
  rcases List.mem_pair.mp isChild with rfl | rfl
  · exact (isHeritable _ _ (isParent _) (isParent _) _ _ _).1
  · exact (isHeritable _ _ (isParent _) (isParent _) _ _ _).2

/-- What is heritable and holds of a population holds of the next one. -/
theorem of_mem_nextPopulation :
    ∀ vector ∈ (nextPopulation candidates parameters generation population scores source).1,
      holds vector := by
  have atMost : eliteCount parameters.elitismRate population.length ≤ population.length :=
    min_le_left _ _
  intro vector member
  rcases List.mem_append.mp member with isElite | isChild
  · exact areGood vector (mem_of_mem_elites sameLength isElite)
  · exact of_mem_offspring sameLength isHeritable areGood (by omega) vector isChild

end Choosing

section Sampling

variable [SteadyScalar α] [LawfulSource γ α]

/-- A sample of intervals that are finitely wide consists of numbers. -/
theorem isNaN_of_mem_uniform
    {intervals : List (α × α)}
    (haveWidths : ∀ interval ∈ intervals, hasFiniteWidth interval = true)
    (source : γ) :
    ∀ value ∈ (RandomSource.uniform intervals source).1, Scalar.isNaN value = false := by
  induction intervals generalizing source with
  | nil => exact nofun
  | cons interval rest inductionHypothesis =>
      rw [List.forall_mem_cons] at haveWidths
      have isFinite := (SteadyScalar.isFinite_of_isFinite_sub _ _ haveWidths.1).2
      have isFiniteShare := LawfulSource.isFinite_unit (α := α) source
      refine List.forall_mem_cons.mpr
        ⟨?_, inductionHypothesis haveWidths.2 (RandomSource.unit (α := α) source).2⟩
      exact SteadyScalar.isNaN_add _ _ isFinite
        (SteadyScalar.isNaN_mul _ _ haveWidths.1 isFiniteShare)

theorem isRepairable_uniform
    {intervals : List (α × α)}
    (areIntervals : samplingIntervals candidates = .ok intervals)
    (source : γ) :
    candidates.IsRepairable (RandomSource.uniform intervals source).1 := by
  refine ⟨(length_uniform intervals source).trans
    (length_of_samplingIntervals_eq_ok areIntervals), ?_⟩
  unfold samplingIntervals at areIntervals
  dsimp only at areIntervals
  split at areIntervals
  · cases areIntervals
  · rename_i haveWidths
    split at areIntervals
    · cases areIntervals
    · cases areIntervals
      rw [Bool.not_eq_true', Bool.not_eq_false, List.all_eq_true] at haveWidths
      exact isNaN_of_mem_uniform haveWidths source

end Sampling

section Breeding

variable [SteadyScalar α] [LawfulSource γ α]
  (areSearchable :
    ∀ decision ∈ candidates.problem.decisions,
      decision.IsSearchable (candidates.intervalOf decision))

include areSearchable

/-- A first population lies in the search space. -/
theorem contains_of_mem_initialPopulation
    (areNumbers :
      ∀ decision ∈ candidates.problem.decisions, ∀ value,
        decision.initial = some (.number value) → Scalar.isNaN value = false)
    {size : Nat}
    {source remaining : γ}
    {population : List (List α)}
    (populated : initialPopulation candidates size source = .ok (population, remaining)) :
    ∀ vector ∈ population, candidates.Contains vector := by
  obtain ⟨vectors, areSeeds, populated⟩ := bind_eq_ok populated
  obtain ⟨intervals, areIntervals, populated⟩ := bind_eq_ok populated
  cases populated
  intro vector member
  obtain ⟨raw, isRaw, rfl⟩ := List.mem_map.mp member
  refine Candidates.contains_repair areSearchable ?_
  rcases List.mem_append.mp isRaw with isSeed | isSample
  · have isSeed := List.mem_of_mem_take isSeed
    obtain ⟨initial?, isInitial, areSeeds⟩ := bind_eq_ok areSeeds
    obtain ⟨thresholds, areThresholds, areSeeds⟩ := bind_eq_ok areSeeds
    cases areSeeds
    rw [List.mem_append, List.mem_append, Option.mem_toList] at isSeed
    rcases isSeed with (isStart | isCorner) | isThreshold
    · subst isStart
      exact (Candidates.contains_of_initial?_eq_ok areSearchable areNumbers
        (mapError_eq_ok isInitial)).isRepairable
    · rcases List.mem_pair.mp isCorner with rfl | rfl
      · exact Candidates.isRepairable_lower areSearchable
      · exact Candidates.isRepairable_upper areSearchable
    · exact (Candidates.contains_of_mem_thresholdVectors areSearchable
        (settled_eq_ok areThresholds) isThreshold).isRepairable
  · obtain ⟨current, rfl⟩ := RandomSource.exists_of_mem_repeated isSample
    exact isRepairable_uniform (mapError_eq_ok areIntervals) current

variable (haveFiniteSpreads : HaveFiniteSpreads candidates parameters)

include haveFiniteSpreads

theorem isRepairable_mutateAll
    {generation : Nat}
    {draws : List (Bool × α)}
    (isContained : candidates.Contains vector)
    (sameLength : draws.length = candidates.size)
    (areDraws : ∀ draw ∈ draws, Scalar.isFinite draw.2 = true) :
    candidates.IsRepairable
      (mutateAll parameters generation (candidates.problem.decisions.zip candidates.bounds) draws
        vector) := by
  exact ⟨length_mutateAll_decisions isContained.isRepairable.length_eq sameLength,
    isNaN_of_mem_mutateAll (haveFiniteSpreads generation) areDraws
      (isContained.isFinite areSearchable)⟩

theorem contains_mutate
    {generation : Nat}
    {source : γ}
    (isContained : candidates.Contains vector) :
    candidates.Contains (mutate candidates parameters generation vector source).1 := by
  unfold mutate
  dsimp only
  refine Candidates.contains_repair areSearchable
    (isRepairable_mutateAll areSearchable haveFiniteSpreads isContained ?_ ?_)
  · rw [List.length_zip, length_mutationMask, RandomSource.length_repeated, min_self]
  · rintro ⟨marked, noise⟩ member
    obtain ⟨current, rfl⟩ := RandomSource.exists_of_mem_repeated (List.of_mem_zip member).2
    exact LawfulSource.isFinite_normal current

/-- Both children of two vectors of the search space are in it. -/
theorem isHeritable_contains :
    IsHeritable γ candidates parameters candidates.Contains := by
  intro first second isContained isContainedToo generation before after
  obtain ⟨isLeft, isRight⟩ := contains_crossover isContained isContainedToo before
  exact ⟨contains_mutate areSearchable haveFiniteSpreads isLeft,
    contains_mutate areSearchable haveFiniteSpreads isRight⟩

end Breeding

section Running

variable {members : List (Member α)} {population : List (List α)} {holds : List α → Prop}

theorem of_membersOf_eq_ok
    (areGood : ∀ vector ∈ population, holds vector)
    (areMembers : membersOf candidates parameters population = .ok members) :
    members.length = population.length ∧ ∀ member ∈ members, holds member.vector := by
  refine ⟨?_, fun member inMembers => ?_⟩
  · rw [← map_vector_of_membersOf_eq_ok areMembers, List.length_map]
  · exact areGood _ (memberOf_of_mem areMembers inMembers).1

variable [LimitedSource γ α] (isHeritable : IsHeritable γ candidates parameters holds)

include isHeritable

/-- What is heritable and holds of a population holds of all generations that follow it. -/
theorem of_mem_genetic
    {remaining : Nat}
    {trace : Trace α}
    {source : γ}
    (areGood : ∀ vector ∈ population, holds vector) :
    ∀ generation ∈ Genetic.generations candidates parameters remaining population trace source,
      generation.length = population.length ∧ ∀ member ∈ generation, holds member.vector := by
  intro generation inCourse
  fun_induction Genetic.generations with
  | case1 remaining population trace source breakdown isBroken =>
      simp at inCourse
  | case2 remaining population trace source members areMembers isLast =>
      obtain rfl := List.mem_singleton.mp inCourse
      exact of_membersOf_eq_ok areGood areMembers
  | case3 population trace source members areMembers next current rest goesOn =>
      obtain rfl := List.mem_singleton.mp inCourse
      exact of_membersOf_eq_ok areGood areMembers
  | case4 population trace source members areMembers next current rest goesOn further
      inductionHypothesis =>
      rcases List.mem_cons.mp inCourse with isFirst | isLater
      · subst generation
        exact of_membersOf_eq_ok areGood areMembers
      · obtain ⟨number, rfl⟩ := Genetic.of_successor?_eq_some goesOn
        have sameLength : (members.map (·.fitness)).length = population.length := by
          rw [List.length_map, (of_membersOf_eq_ok areGood areMembers).1]
        rw [← length_nextPopulation sameLength number source]
        exact inductionHypothesis (of_mem_nextPopulation sameLength isHeritable areGood) isLater

/-- What is heritable and holds of the members of a generation of the Pareto strategy holds of
those of what succeeds it. -/
theorem of_mem_of_succeeds
    {earlier later : List (Member α)}
    (succeeds : Pareto.Succeeds γ candidates parameters earlier later)
    (isInhabited : 0 < parameters.populationSize → 0 < earlier.length)
    (areGood : ∀ member ∈ earlier, holds member.vector) :
    ∀ member ∈ later, holds member.vector := by
  intro member inLater
  obtain ⟨number, added, source, areAdded, rfl⟩ := succeeds
  rcases List.mem_append.mp (Pareto.mem_of_mem_replacement inLater) with inEarlier | isAdded
  · exact areGood member inEarlier
  · have sameLength :
        (Pareto.layeringOf candidates earlier).selectionScores.length =
          (earlier.map (·.vector)).length := by
      simp [Layering.selectionScores, Pareto.layeringOf, Layering.ofStandings, Fronts.ranks,
        Pareto.standingsOf]
    have isInhabited (someChild : 0 < parameters.populationSize) :
        0 < (earlier.map (·.vector)).length := by
      rw [List.length_map]
      exact isInhabited someChild
    have areGoodVectors : ∀ vector ∈ earlier.map (·.vector), holds vector :=
      List.forall_mem_map.mpr areGood
    exact (of_membersOf_eq_ok
      (of_mem_offspring sameLength isHeritable areGoodVectors isInhabited) areAdded).2
        member isAdded

/-- What is heritable and holds of a generation of the Pareto strategy holds of what succeeds it. -/
theorem of_succeeds
    [NumericScalar α]
    {earlier later : List (Member α)}
    (succeeds : Pareto.Succeeds γ candidates parameters earlier later)
    (isSize : earlier.length = parameters.populationSize)
    (areGood : ∀ member ∈ earlier, holds member.vector) :
    later.length = parameters.populationSize ∧ ∀ member ∈ later, holds member.vector :=
  ⟨Pareto.length_of_succeeds succeeds,
    of_mem_of_succeeds isHeritable succeeds (fun someMember => isSize ▸ someMember) areGood⟩

/-- What is heritable and holds of a first generation holds of all generations that follow it. -/
theorem of_mem_pareto
    [NumericScalar α]
    {remaining : Nat}
    {trace : Trace α}
    {source : γ}
    (isSize : members.length = parameters.populationSize)
    (areGood : ∀ member ∈ members, holds member.vector) :
    ∀ generation ∈ Pareto.generations candidates parameters remaining members trace source,
      generation.length = parameters.populationSize ∧
        ∀ member ∈ generation, holds member.vector :=
  Pareto.of_mem_generations ⟨isSize, areGood⟩ fun _ _ succeeds ⟨isSize, areGood⟩ =>
    of_succeeds isHeritable succeeds isSize areGood

end Running

end Evolution

end Optima
