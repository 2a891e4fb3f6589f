import Mathlib
import Optima.Proofs.Evolution.Breeding
import Optima.Proofs.Evolution.Replacement

namespace Optima

/-!
# Containment

Neither evolutionary strategy leaves the search space, whatever is drawn: each generation
has as many members as were asked for, and every component of their vectors is a number
that its variable can be given.  So the values that are given back are admitted.
-/

namespace Evolution

variable {α : Type} [Scalar α] {candidates : Candidates α}
  {parameters : GeneticParameters α} {problem : Problem α} {population : List (List α)}
  {members : List (Member α)}

/-- A generation has a size, and its vectors lie in the search space. -/
structure IsInside (candidates : Candidates α) (size : Nat) (generation : List (Member α)) :
    Prop where
  length_eq : generation.length = size
  contains : ∀ member ∈ generation, candidates.Contains member.vector

/-- A solution and its alternatives give back values that stand for members of the last
generation of a run. -/
def GivesInside (candidates : Candidates α) (defaultBounds : α × α)
    (course : List (List (Member α))) (outcome : Solution α) : Prop :=
  ∃ last,
    course.getLast? = some last ∧
      (∃ member ∈ last,
        candidates.StandsFor defaultBounds member.vector outcome.variableValues) ∧
      ∀ alternative ∈ outcome.alternatives, ∃ member ∈ last,
        candidates.StandsFor defaultBounds member.vector alternative.variableValues

/-- The variables of a problem are sound, and the initial values among them are numbers. -/
structure HasSoundVariables (problem : Problem α) : Prop where
  distinct : problem.variableNames.Nodup
  faultless : ∀ decision ∈ problem.decisions, decision.fault? = none
  areNumbers :
    ∀ decision ∈ problem.decisions, ∀ value,
      decision.initial = some (.number value) → Scalar.isNaN value = false

/-- Each alternative gives back a member. -/
theorem exists_decode_of_mem_alternatives
    {dominated : List Nat}
    {crowding : List α}
    {positions : List Nat}
    {others : List (Alternative α)}
    (areOthers : alternativesAt candidates members dominated crowding positions = .ok others)
    {other : Alternative α}
    (member : other ∈ others) :
    ∃ one ∈ members, candidates.decode one.vector = .ok other.variableValues := by
  obtain ⟨⟨one, position, rank⟩, isPlaced, isOther⟩ :=
    exists_of_mem_results_of_mapM_eq_ok areOthers member
  obtain ⟨⟨place, index⟩, -, isPlaced⟩ := List.mem_filterMap.mp isPlaced
  obtain ⟨found, isFound, isSame⟩ := Option.map_eq_some_iff.mp isPlaced
  cases isSame
  obtain ⟨values, areValues, isOther⟩ := bind_eq_ok isOther
  cases isOther
  exact ⟨one, List.mem_of_getElem? isFound, areValues⟩

section Giving

variable [FractionalScalar α] {tolerance : α} {defaultBounds : α × α}

/-- What is decoded of the last generation stands for members of it, if they are inside. -/
theorem givesInside_of_decode
    (isSound : HasSoundVariables problem)
    (prepared : Candidates.ofProblem problem defaultBounds tolerance = .ok candidates)
    {course : List (List (Member α))}
    (isLast : course.getLast? = some members)
    (areContained : ∀ member ∈ members, candidates.Contains member.vector)
    {outcome : Solution α}
    (givesPrimary :
      ∃ member ∈ members, candidates.decode member.vector = .ok outcome.variableValues)
    (givesOthers :
      ∀ alternative ∈ outcome.alternatives, ∃ member ∈ members,
        candidates.decode member.vector = .ok alternative.variableValues) :
    GivesInside candidates defaultBounds course outcome := by
  have areTightened := Candidates.isTightened_intervalOf isSound.distinct isSound.faultless prepared
  obtain rfl := Candidates.problem_eq_of_ofProblem_eq_ok prepared
  have standsFor {member : Member α} {values : Table (Datum α)} (inMembers : member ∈ members)
      (areValues : candidates.decode member.vector = .ok values) :
      candidates.StandsFor defaultBounds member.vector values := by
    obtain ⟨again, areAgain, standsFor⟩ := Candidates.exists_decode_eq_ok_of_contains
      isSound.distinct isSound.faultless areTightened (areContained member inMembers)
    obtain rfl := Except.ok.inj (areAgain.symm.trans areValues)
    exact standsFor
  refine ⟨members, isLast, ?_, fun alternative isAlternative => ?_⟩
  · obtain ⟨member, inMembers, areValues⟩ := givesPrimary
    exact ⟨member, inMembers, standsFor inMembers areValues⟩
  · obtain ⟨member, inMembers, areValues⟩ := givesOthers alternative isAlternative
    exact ⟨member, inMembers, standsFor inMembers areValues⟩

end Giving

section Solving

variable {δ : Type} [SeededSource δ α] [SteadyScalar α] [LawfulSource δ α] {watch : Watch α}
  {source remaining : δ} {outcome : Solution α}
  (isSound : HasSoundVariables problem)

include isSound

/-- What exists before the first generation is inside, and it can be searched. -/
theorem contains_of_isSetUp
    (hasSpace : candidates.HasSpace)
    (isSetUp : Genetic.IsSetUp problem parameters candidates source population remaining) :
    (∀ decision ∈ candidates.problem.decisions,
        decision.IsSearchable (candidates.intervalOf decision)) ∧
      (∀ vector ∈ population, candidates.Contains vector) ∧
      population.length = parameters.populationSize := by
  have areSearchable := Candidates.isSearchable_intervalOf hasSpace
    (Candidates.isTightened_intervalOf isSound.distinct isSound.faultless isSetUp.prepared)
  have areNumbers := isSetUp.problem_eq ▸ isSound.areNumbers
  exact ⟨areSearchable,
    contains_of_mem_initialPopulation areSearchable areNumbers isSetUp.populated,
    length_of_initialPopulation_eq_ok isSetUp.populated⟩

theorem isInside_of_genetic_isSetUp
    (hasSpace : candidates.HasSpace)
    (haveFiniteSpreads : HaveFiniteSpreads candidates parameters)
    (isSetUp : Genetic.IsSetUp problem parameters candidates source population remaining) :
    ∀ generation ∈ Genetic.course candidates parameters watch population remaining,
      IsInside candidates parameters.populationSize generation := by
  obtain ⟨areSearchable, areContained, isSize⟩ := contains_of_isSetUp isSound hasSpace isSetUp
  intro generation inCourse
  obtain ⟨sameLength, areInside⟩ :=
    of_mem_genetic (isHeritable_contains areSearchable haveFiniteSpreads) areContained generation
      inCourse
  exact ⟨sameLength.trans isSize, areInside⟩

theorem isInside_of_pareto_isSetUp
    (hasSpace : candidates.HasSpace)
    (haveFiniteSpreads : HaveFiniteSpreads candidates parameters)
    (isSetUp : Pareto.IsSetUp problem parameters candidates source population remaining members) :
    ∀ generation ∈ Pareto.course candidates parameters watch members remaining,
      IsInside candidates parameters.populationSize generation := by
  obtain ⟨areSearchable, areContained, isSize⟩ :=
    contains_of_isSetUp isSound hasSpace isSetUp.toIsSetUp
  obtain ⟨sameLength, areInside⟩ := of_membersOf_eq_ok areContained isSetUp.evaluated
  intro generation inCourse
  obtain ⟨sameLength, areInside⟩ :=
    of_mem_pareto (isHeritable_contains areSearchable haveFiniteSpreads)
      (sameLength.trans isSize) areInside generation inCourse
  exact ⟨sameLength, areInside⟩

variable
  (hasSpace :
    ∀ candidates,
      Candidates.ofProblem problem parameters.defaultBounds parameters.tolerance =
          .ok candidates →
        candidates.HasSpace ∧ HaveFiniteSpreads candidates parameters)

include hasSpace

/-- The genetic strategy gives back members of the last generation. -/
theorem givesInside_of_genetic_solve_eq_ok
    (started : watch.lookAtFlag.1 = false)
    (solved : Genetic.solve δ problem parameters watch = .ok outcome) :
    ∃ candidates population, ∃ source remaining : δ,
      Genetic.IsSetUp problem parameters candidates source population remaining ∧
        GivesInside candidates parameters.defaultBounds
          (Genetic.course candidates parameters watch population remaining) outcome := by
  obtain ⟨candidates, population, ending, details, source, remaining, isSetUp, evolved, areOthers,
    isShown⟩ := Genetic.exists_shows_of_solve_eq_ok started solved
  obtain ⟨-, isLast, isChosen⟩ := Genetic.closesChosen_of_evolve_eq_ok evolved
  obtain ⟨hasSpace, haveFiniteSpreads⟩ := hasSpace candidates isSetUp.prepared
  have isInside := isInside_of_genetic_isSetUp isSound hasSpace haveFiniteSpreads isSetUp
    ending.members (List.mem_of_getLast? isLast)
  refine ⟨candidates, population, source, remaining, isSetUp,
    givesInside_of_decode isSound isSetUp.prepared isLast isInside.contains ?_ ?_⟩
  · obtain ⟨position, -, isBest⟩ := Genetic.exists_position_of_best?_eq_some isChosen
    exact ⟨ending.best, List.mem_of_getElem? isBest, isShown.areValues⟩
  · exact fun other => exists_decode_of_mem_alternatives areOthers

/-- The Pareto strategy gives back members of the last generation. -/
theorem givesInside_of_pareto_solve_eq_ok
    [Elementary α]
    (started : watch.lookAtFlag.1 = false)
    (solved : Pareto.solve δ problem parameters watch = .ok outcome) :
    ∃ candidates population members, ∃ source remaining : δ,
      Pareto.IsSetUp problem parameters candidates source population remaining members ∧
        GivesInside candidates parameters.defaultBounds
          (Pareto.course candidates parameters watch members remaining) outcome := by
  obtain ⟨candidates, population, members, ending, primary, details, source, remaining, isSetUp,
    evolved, isPrimary, areOthers, isShown⟩ := Pareto.exists_shows_of_solve_eq_ok started solved
  obtain ⟨-, isLast, -⟩ := Pareto.closes_of_evolve_eq_ok evolved
  obtain ⟨hasSpace, haveFiniteSpreads⟩ := hasSpace candidates isSetUp.prepared
  have isInside := isInside_of_pareto_isSetUp isSound hasSpace haveFiniteSpreads isSetUp
    ending.members (List.mem_of_getLast? isLast)
  refine ⟨candidates, population, members, source, remaining, isSetUp,
    givesInside_of_decode isSound isSetUp.prepared isLast isInside.contains ?_ ?_⟩
  · exact ⟨primary, List.mem_of_getElem? isPrimary, isShown.areValues⟩
  · exact fun other => exists_decode_of_mem_alternatives areOthers

end Solving

/--
From sound variables, intervals with finite ends in order and finite spreads, neither strategy
leaves the search space, also where the run breaks down later.  The values that a solve gives
back, as its solution and as alternatives, are admitted, and encoding them gives members of
the last generation back.
-/
theorem solve_stays_inside
    (γ : Type)
    [SeededSource γ α]
    [Elementary α]
    [SteadyScalar α]
    [LawfulSource γ α]
    (problem : Problem α)
    (parameters : GeneticParameters α)
    (watch : Watch α)
    (isSound : HasSoundVariables problem)
    (hasSpace :
      ∀ candidates,
        Candidates.ofProblem problem parameters.defaultBounds parameters.tolerance =
            .ok candidates →
          candidates.HasSpace ∧ HaveFiniteSpreads candidates parameters) :
    ((∀ candidates population, ∀ source remaining : γ,
        Genetic.IsSetUp problem parameters candidates source population remaining →
          ∀ generation ∈ Genetic.course candidates parameters watch population remaining,
            IsInside candidates parameters.populationSize generation) ∧
      ∀ outcome, Genetic.solve γ problem parameters watch = .ok outcome →
        watch.lookAtFlag.1 = false →
          ∃ candidates population, ∃ source remaining : γ,
            Genetic.IsSetUp problem parameters candidates source population remaining ∧
              GivesInside candidates parameters.defaultBounds
                (Genetic.course candidates parameters watch population remaining) outcome) ∧
    (∀ candidates population members, ∀ source remaining : γ,
        Pareto.IsSetUp problem parameters candidates source population remaining members →
          ∀ generation ∈ Pareto.course candidates parameters watch members remaining,
            IsInside candidates parameters.populationSize generation) ∧
      ∀ outcome, Pareto.solve γ problem parameters watch = .ok outcome →
        watch.lookAtFlag.1 = false →
          ∃ candidates population members, ∃ source remaining : γ,
            Pareto.IsSetUp problem parameters candidates source population remaining members ∧
              GivesInside candidates parameters.defaultBounds
                (Pareto.course candidates parameters watch members remaining) outcome := by
  refine ⟨⟨?_, ?_⟩, ?_, ?_⟩
  · intro candidates population source remaining isSetUp
    obtain ⟨hasSpace, haveFiniteSpreads⟩ := hasSpace candidates isSetUp.prepared
    exact isInside_of_genetic_isSetUp isSound hasSpace haveFiniteSpreads isSetUp
  · intro outcome solved started
    exact givesInside_of_genetic_solve_eq_ok isSound hasSpace started solved
  · intro candidates population members source remaining isSetUp
    obtain ⟨hasSpace, haveFiniteSpreads⟩ := hasSpace candidates isSetUp.prepared
    exact isInside_of_pareto_isSetUp isSound hasSpace haveFiniteSpreads isSetUp
  · intro outcome solved started
    exact givesInside_of_pareto_solve_eq_ok isSound hasSpace started solved

section Mixed

instance : SteadyScalar Extended where
  isNaN_add _ _ _ _ := rfl
  isNaN_sub _ _ _ _ := rfl
  isNaN_mul _ _ _ _ := rfl
  isFinite_of_isFinite_sub first second := by
    change Scalar.isFinite (Extended.add _ (Extended.neg _)) = true → _
    cases first <;> cases second <;> simp [Extended.add, Extended.neg, Scalar.isFinite]

theorem isFinite_total
    {numbers : List Extended}
    (areFinite : ∀ number ∈ numbers, Scalar.isFinite number = true) :
    Scalar.isFinite (Scalar.total numbers) = true := by
  have fromStart (rest : List Extended) :
      ∀ start : Extended, Scalar.isFinite start = true →
        (∀ number ∈ rest, Scalar.isFinite number = true) →
          Scalar.isFinite (rest.foldl (· + ·) start) = true := by
    induction rest with
    | nil => exact fun start isFinite _ => isFinite
    | cons number rest inductionHypothesis =>
        intro start isFinite areFinite
        rw [List.forall_mem_cons] at areFinite
        exact inductionHypothesis _ (BoundedScalar.isFinite_add _ _ isFinite areFinite.1)
          areFinite.2
  exact fromStart numbers 0 rfl areFinite

instance : LawfulSource MixingGenerator Extended where
  isFinite_unit _ := rfl
  isFinite_normal source := by
    have isFinite :
        Scalar.isFinite
          (Scalar.total (RandomSource.repeated MixingGenerator.nextFraction 12 source).1) =
        true := by
      refine isFinite_total fun number member => ?_
      obtain ⟨current, rfl⟩ := RandomSource.exists_of_mem_repeated member
      rfl
    exact BoundedScalar.isFinite_add _ (.finite (-6)) isFinite rfl
  below_lt limit _ isLimit := Nat.mod_lt _ isLimit

/-- Mutations on a finite scale spread finitely along finite intervals. -/
theorem haveFiniteSpreads_of_hasSpace
    {candidates : Candidates Extended}
    {parameters : GeneticParameters Extended}
    (isScale : Scalar.isFinite parameters.mutationScale = true)
    (hasSpace : candidates.HasSpace) :
    HaveFiniteSpreads candidates parameters := by
  intro generation slot isSlot
  obtain ⟨⟨isLower, isUpper⟩, -⟩ := hasSpace slot.2 (List.of_mem_zip isSlot).2
  obtain ⟨scale, isScale⟩ := Extended.exists_fraction_of_isFinite isScale
  obtain ⟨lower, isLower⟩ := Extended.exists_fraction_of_isFinite isLower
  obtain ⟨upper, isUpper⟩ := Extended.exists_fraction_of_isFinite isUpper
  obtain ⟨decay, isDecay⟩ : ∃ decay,
      Scalar.power parameters.mutationDecay (Scalar.ofInt generation) = Extended.finite decay := by
    change ∃ decay, Extended.power _ (.finite generation) = Extended.finite decay
    cases parameters.mutationDecay <;> simp [Extended.power]
  unfold spread
  rw [isScale, isLower, isUpper, isDecay]
  dsimp only
  split
  · change Scalar.isFinite (Scalar.larger _ (Extended.finite _)) = true
    unfold Scalar.larger
    split <;> rfl
  · rfl

/-- A color, a switch, a whole number of at most seven and a half, and a share. -/
def mixedProblem : Problem Extended where
  identifier := "mixed"
  name := ""
  kind := .constraintSatisfaction
  description := ""
  objectives := [⟨.expression (.variable "count"), "", "value", .maximize, 1, 1, ""⟩]
  constraints :=
    [⟨.expression (.variable "count"), "most", "most", .bound, .atMost, .finite (15 / 2), none, ""⟩]
  decisions :=
    [⟨"color", "color", .categorical, none, none, none, some ["red", "green"], ""⟩,
     ⟨"switch", "switch", .binary, none, none, none, none, ""⟩,
     ⟨"count", "count", .integer, some 0, some (.finite 9), none, none, ""⟩,
     ⟨"share", "share", .continuous, none, none, none, none, ""⟩]
  parameters := none
  status := .pending

/-- The search space of the color, the switch, the number and the share. -/
def mixedCandidates : Candidates Extended where
  problem := mixedProblem
  tolerance := 0
  reduction :=
    ⟨⟨[("color", (0, 1)), ("switch", (0, 1)), ("count", (0, .finite 7)), ("share", (0, 1))]⟩,
      {}, {}⟩

/-- A run of two generations, the last of which gives two alternatives. -/
def twoGenerations : GeneticParameters Extended :=
  { Genetic.threeMembers with maxIterations := 2, alternativesCount := 2 }

/-- Both corners of the search space and a sample. -/
def mixedPopulation : List (List Extended) :=
  [[0, 0, 0, 0], [1, 1, .finite 7, 1],
   [1, 1, .finite 4, .finite (3447141417614975 / 4503599627370496)]]

theorem mixedProblem_isSetUp :
    Genetic.IsSetUp mixedProblem twoGenerations mixedCandidates (⟨2⟩ : MixingGenerator)
      mixedPopulation ⟨8709371129873690710⟩ :=
  ⟨by cbv, rfl, by cbv⟩

theorem mixedCandidates_evolves :
    ∃ ending others,
      Genetic.evolve mixedCandidates twoGenerations 2 mixedPopulation
          (.start Genetic.idleWatch.lookAtFlag.2) (⟨8709371129873690710⟩ : MixingGenerator) =
        .ok ending ∧
      Genetic.alternatives mixedCandidates 2 ending.members = .ok others ∧
      ending.best.vector = [1, 1, .finite 7, 1] := by
  have evolves :
      (do
        let ending ← Genetic.evolve mixedCandidates twoGenerations 2 mixedPopulation
          (.start Genetic.idleWatch.lookAtFlag.2) (⟨8709371129873690710⟩ : MixingGenerator)
        let _ ← Genetic.alternatives mixedCandidates 2 ending.members
        return ending.best.vector) = .ok [1, 1, .finite 7, 1] := by
    cbv
  obtain ⟨ending, evolved, evolves⟩ := bind_eq_ok evolves
  obtain ⟨others, areOthers, isBest⟩ := bind_eq_ok evolves
  exact ⟨ending, others, evolved, areOthers, Except.ok.inj isBest⟩

theorem mixedProblem_returns :
    ∃ outcome,
      Genetic.solve MixingGenerator mixedProblem twoGenerations Genetic.idleWatch = .ok outcome ∧
        outcome.variableValues =
          ⟨[("color", .text "green"), ("switch", .number 1), ("count", .number (.finite 7)),
            ("share", .number 1)]⟩ := by
  obtain ⟨ending, others, evolved, areOthers, isBest⟩ := mixedCandidates_evolves
  refine Genetic.exists_solve_eq_ok mixedProblem_isSetUp rfl evolved ⟨others, areOthers⟩ ?_ ?_ ?_
  all_goals rw [isBest]
  · exact exists_eq_ok_of_toBool (by cbv)
  · exact exists_eq_ok_of_toBool (by cbv)
  · cbv

theorem mixedProblem_hasSoundVariables :
    HasSoundVariables mixedProblem where
  distinct := by decide
  faultless := by
    simp only [mixedProblem, List.forall_mem_cons]
    exact ⟨by cbv, by cbv, by cbv, by cbv, List.forall_mem_nil _⟩
  areNumbers _ _ _ _ := rfl

theorem mixedCandidates_hasSpace :
    mixedCandidates.HasSpace := by
  have areBounds : mixedCandidates.bounds = [(0, 1), (0, 1), (0, .finite 7), (0, 1)] := by
    cbv
  have isUnit : HasFiniteEnds ((0, 1) : Extended × Extended) ∧ (0 : Extended) ≤ 1 :=
    ⟨⟨rfl, rfl⟩, by decide⟩
  have isCount : HasFiniteEnds ((0, .finite 7) : Extended × Extended) ∧ 0 ≤ Extended.finite 7 :=
    ⟨⟨rfl, rfl⟩, by decide⟩
  rw [Candidates.HasSpace, areBounds]
  simp only [List.forall_mem_cons]
  exact ⟨isUnit, isUnit, isCount, isUnit, List.forall_mem_nil _⟩

/-- The number stays at seven or below, and the color is green in the end. -/
theorem mixedProblem_stays_inside :
    HasSoundVariables mixedProblem ∧
      mixedCandidates.HasSpace ∧
      HaveFiniteSpreads mixedCandidates twoGenerations ∧
      (∀ generation ∈
          Genetic.course mixedCandidates twoGenerations Genetic.idleWatch mixedPopulation
            (⟨8709371129873690710⟩ : MixingGenerator),
        IsInside mixedCandidates twoGenerations.populationSize generation) ∧
      ∃ outcome,
        Genetic.solve MixingGenerator mixedProblem twoGenerations Genetic.idleWatch = .ok outcome ∧
          outcome.variableValues =
            ⟨[("color", .text "green"), ("switch", .number 1), ("count", .number (.finite 7)),
              ("share", .number 1)]⟩ ∧
          ∃ population, ∃ remaining : MixingGenerator,
            GivesInside mixedCandidates twoGenerations.defaultBounds
              (Genetic.course mixedCandidates twoGenerations Genetic.idleWatch population
                remaining) outcome := by
  have haveSpreads : HaveFiniteSpreads mixedCandidates twoGenerations :=
    haveFiniteSpreads_of_hasSpace rfl mixedCandidates_hasSpace
  have isPrepared {candidates : Candidates Extended}
      (prepared : Candidates.ofProblem mixedProblem twoGenerations.defaultBounds
        twoGenerations.tolerance = .ok candidates) :
      candidates = mixedCandidates :=
    Except.ok.inj (prepared.symm.trans mixedProblem_isSetUp.prepared)
  obtain ⟨⟨ofRun, ofOutcome⟩, -⟩ := solve_stays_inside MixingGenerator mixedProblem twoGenerations
    Genetic.idleWatch mixedProblem_hasSoundVariables fun candidates prepared => by
      rw [isPrepared prepared]
      exact ⟨mixedCandidates_hasSpace, haveSpreads⟩
  obtain ⟨outcome, solved, areValues⟩ := mixedProblem_returns
  obtain ⟨candidates, population, source, remaining, isSetUp, givesInside⟩ :=
    ofOutcome outcome solved rfl
  obtain rfl := isPrepared isSetUp.prepared
  exact ⟨mixedProblem_hasSoundVariables, mixedCandidates_hasSpace, haveSpreads,
    ofRun _ _ _ _ mixedProblem_isSetUp, outcome, solved, areValues, population, remaining,
    givesInside⟩

end Mixed

end Evolution

end Optima
