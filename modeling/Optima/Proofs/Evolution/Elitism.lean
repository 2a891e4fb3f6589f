import Mathlib
import Optima.Proofs.Evolution.Generations
import Optima.Proofs.Scalar.Exact

namespace Optima

/-!
# Elitism

The best fitness never falls from one generation to the next, whatever is drawn.  So the
history of the primary objective never turns back, and the values that are given back
are worth at least what any vector was worth that the run has evaluated.
-/

namespace Genetic

open Evolution

variable {α : Type} [Scalar α] {γ : Type} [SeededSource γ α]

/-- Everything that a run needs before its first generation is there. -/
structure IsSetUp (problem : Problem α) (parameters : GeneticParameters α)
    (candidates : Candidates α) (source : γ) (population : List (List α)) (remaining : γ) :
    Prop where
  prepared :
    Candidates.ofProblem problem parameters.defaultBounds parameters.tolerance = .ok candidates
  seeded : SeededSource.ofSeed α parameters.seed = .ok source
  populated :
    initialPopulation candidates parameters.populationSize source = .ok (population, remaining)

theorem IsSetUp.problem_eq
    {problem : Problem α}
    {parameters : GeneticParameters α}
    {candidates : Candidates α}
    {source remaining : γ}
    {population : List (List α)}
    (isSetUp : IsSetUp problem parameters candidates source population remaining) :
    candidates.problem = problem := by
  obtain ⟨reduction, -, prepared⟩ := bind_eq_ok isSetUp.prepared
  cases prepared
  rfl

/-- The generations of a solve that starts with a population. -/
def course (candidates : Candidates α) (parameters : GeneticParameters α) (watch : Watch α)
    (population : List (List α)) (remaining : γ) : List (List (Member α)) :=
  generations candidates parameters parameters.maxIterations population
    (.start watch.lookAtFlag.2) remaining

/-- The numbers of a history do not rise where they are to be small, and do not fall where they
are to be large. -/
def NeverTurnsBack (objectives : List (Objective α)) (values : List α) : Prop :=
  ∀ primary, Objectives.primary? objectives = some primary →
    match primary.direction with
    | .minimize => values.Pairwise (· ≥ ·)
    | .maximize => values.Pairwise (· ≤ ·)

/-- A solution gives back the best of all members of some generations. -/
structure GivesBest (candidates : Candidates α) (parameters : GeneticParameters α)
    (course : List (List (Member α))) (outcome : Solution α) : Prop where
  /-- The history tells of the best of each generation. -/
  tells : List.Forall₂ (Tells candidates) course outcome.account.history
  neverTurnsBack :
    NeverTurnsBack candidates.problem.objectives
      (outcome.account.history.map (·.objectiveValue))
  best :
    ∃ best,
      (∃ last, course.getLast? = some last ∧ IsBest last best) ∧
        (∀ generation ∈ course, ∀ member ∈ generation, member.fitness ≤ best.fitness) ∧
        memberOf candidates parameters best.vector = .ok best ∧
        candidates.decode best.vector = .ok outcome.variableValues ∧
        outcome.objectiveValues = best.evaluation.objectiveValues

variable {problem : Problem α} {parameters : GeneticParameters α} {candidates : Candidates α}
  {watch : Watch α} {outcome : Solution α}

section Telling

omit [SeededSource γ α]

variable [SignedScalar α] {generations : List (List (Member α))}
  {points : List (ConvergencePoint α)} {earlier later : List (Member α)}
  {point next : ConvergencePoint α}

/-- What is told of a generation that keeps up with an earlier one is at least as good. -/
theorem exists_fitness_le_of_tells
    (told : Tells candidates earlier point)
    (toldNext : Tells candidates later next)
    (keepsUp : KeepsUp earlier later) :
    ∃ fitness better,
      candidates.traceValue fitness = .ok point.objectiveValue ∧
        candidates.traceValue better = .ok next.objectiveValue ∧
        fitness ≤ better := by
  obtain ⟨best, isBest, isValue, -⟩ := told
  obtain ⟨nextBest, isNextBest, isNextValue, -⟩ := toldNext
  obtain ⟨better, isBetter, rises⟩ := keepsUp best isBest
  exact ⟨best.fitness, nextBest.fitness, isValue, isNextValue,
    rises.trans (isNextBest.fitness_le better isBetter.mem)⟩

/-- A history that tells of generations that keep up with each other never turns back. -/
theorem neverTurnsBack_of_tells
    (told : List.Forall₂ (Tells candidates) generations points)
    (keepUp : generations.Pairwise KeepsUp) :
    NeverTurnsBack candidates.problem.objectives (points.map (·.objectiveValue)) := by
  intro primary isPrimary
  cases isDirection : primary.direction with
  | minimize =>
      refine List.pairwise_map.mpr (pairwise_of_forall₂ told ?_ keepUp)
      intro earlier later point next toldEarlier toldLater keepsUp
      obtain ⟨fitness, better, isValue, isNext, rises⟩ :=
        exists_fitness_le_of_tells toldEarlier toldLater keepsUp
      have notAbove : ¬ (0 : α) < -1 := SignedScalar.neg_one_lt_zero.not_gt
      simp only [Candidates.traceValue, isPrimary, Objective.sense, isDirection, notAbove,
        ↓reduceIte, Except.ok.injEq] at isValue isNext
      rw [← isValue, ← isNext]
      exact (SignedScalar.neg_le_neg_iff fitness better).mpr rises
  | maximize =>
      refine List.pairwise_map.mpr (pairwise_of_forall₂ told ?_ keepUp)
      intro earlier later point next toldEarlier toldLater keepsUp
      obtain ⟨fitness, better, isValue, isNext, rises⟩ :=
        exists_fitness_le_of_tells toldEarlier toldLater keepsUp
      have isAbove : (0 : α) < 1 := SignedScalar.zero_lt_one
      simp only [Candidates.traceValue, isPrimary, Objective.sense, isDirection, isAbove,
        ↓reduceIte, Except.ok.injEq] at isValue isNext
      rw [← isValue, ← isNext]
      exact rises

/-- The best of the last of some generations that keep up with each other is the best of all. -/
theorem fitness_le_of_getLast?
    (keepUp : generations.Pairwise KeepsUp)
    (isLast : generations.getLast? = some later)
    {best : Member α}
    (isBest : IsBest later best) :
    ∀ generation ∈ generations, ∀ member ∈ generation, member.fitness ≤ best.fitness := by
  intro generation inGenerations member inGeneration
  obtain ⟨init, rfl⟩ := List.getLast?_eq_some_iff.mp isLast
  rcases List.mem_append.mp inGenerations with inInit | isSame
  · obtain ⟨chosen, isChosen⟩ := exists_best?_eq_some (List.ne_nil_of_mem inGeneration)
    have isBestOfEarlier := isBest_of_best?_eq_some isChosen
    have keepsUp : KeepsUp generation later :=
      (List.pairwise_append.mp keepUp).2.2 generation inInit later List.mem_cons_self
    obtain ⟨better, isBetter, rises⟩ := keepsUp chosen isBestOfEarlier
    calc member.fitness
        ≤ chosen.fitness := isBestOfEarlier.fitness_le member inGeneration
      _ ≤ better.fitness := rises
      _ ≤ best.fitness := isBest.fitness_le better isBetter.mem
  · obtain rfl := List.mem_singleton.mp isSame
    exact isBest.fitness_le member inGeneration

end Telling

/-- A solve that returns, and was not cancelled before it began, shows the best member of the last
generation of a run, and gives alternatives among its members. -/
theorem exists_shows_of_solve_eq_ok
    (started : watch.lookAtFlag.1 = false)
    (solved : solve γ problem parameters watch = .ok outcome) :
    ∃ candidates population ending details, ∃ source remaining : γ,
      IsSetUp problem parameters candidates source population remaining ∧
        evolve candidates parameters parameters.maxIterations population
            (.start watch.lookAtFlag.2) remaining = .ok ending ∧
        alternatives candidates parameters.alternativesCount ending.members =
          .ok outcome.alternatives ∧
        Shows candidates .genetic ending.best ending.trace ending.stop
          (details ++ endDetails parameters ending.trace ending.stop) outcome := by
  unfold solve at solved
  simp only [started, Bool.false_eq_true, ↓reduceIte] at solved
  obtain ⟨candidates, isPrepared, solved⟩ := bind_eq_ok solved
  obtain ⟨source, isSource, solved⟩ := bind_eq_ok solved
  obtain ⟨⟨population, remaining⟩, isPopulated, solved⟩ := bind_eq_ok solved
  obtain ⟨ending, evolved, solved⟩ := bind_eq_ok solved
  obtain ⟨others, areOthers, solved⟩ := bind_eq_ok solved
  obtain ⟨rfl, isShown⟩ := of_solution_eq_ok solved
  exact ⟨candidates, population, ending, _, source, remaining,
    ⟨settled_eq_ok isPrepared, mapError_eq_ok isSource, isPopulated⟩, mapError_eq_ok evolved,
    mapError_eq_ok areOthers, isShown⟩

/-- A solve whose run ends with a member that can be told of gives that member back. -/
theorem exists_solve_eq_ok
    {population : List (List α)}
    {source remaining : γ}
    {ending : Ending α}
    {values : Table (Datum α)}
    (isSetUp : IsSetUp problem parameters candidates source population remaining)
    (started : watch.lookAtFlag.1 = false)
    (evolved :
      evolve candidates parameters parameters.maxIterations population
          (.start watch.lookAtFlag.2) remaining = .ok ending)
    (haveAlternatives :
      ∃ others,
        Genetic.alternatives candidates parameters.alternativesCount ending.members = .ok others)
    (haveSensitivity :
      ∃ sensitivity,
        Sensitivity.around candidates.problem
            ⟨parameters.tolerance, parameters.defaultBounds, Sensitivity.usualStep⟩
            (candidates.assignment ending.best.vector) = .ok sensitivity)
    (haveViolations : ∃ missed, candidates.violations ending.best.vector = .ok missed)
    (areValues : candidates.decode ending.best.vector = .ok values) :
    ∃ outcome,
      solve γ problem parameters watch = .ok outcome ∧ outcome.variableValues = values := by
  obtain ⟨others, areOthers⟩ := haveAlternatives
  obtain ⟨sensitivity, isSensitivity⟩ := haveSensitivity
  obtain ⟨missed, areMissed⟩ := haveViolations
  unfold solve solution
  simp only [started, isSetUp.prepared, isSetUp.seeded, isSetUp.populated, evolved, areOthers,
    isSensitivity, areMissed, areValues, settled, Except.mapError, bind, Except.bind, pure,
    Except.pure, Bool.false_eq_true, ↓reduceIte]
  split
  all_goals exact ⟨_, rfl, rfl⟩

variable (γ) in
/--
The best fitness never falls from one generation of a run to a later one, also where the
run breaks down; over tame rules it does not.  A solve that returns gives back the best of
all members of its run, and its history never turns back.
-/
theorem solve_never_loses_best
    [SignedScalar α]
    (problem : Problem α)
    (parameters : GeneticParameters α)
    (watch : Watch α) :
    (∀ candidates population, ∀ source remaining : γ,
        IsSetUp problem parameters candidates source population remaining →
          (course candidates parameters watch population remaining).Pairwise KeepsUp ∧
            (problem.IsTame → problem.objectives ≠ [] → 0 < parameters.populationSize →
              ∃ ending,
                evolve candidates parameters parameters.maxIterations population
                  (.start watch.lookAtFlag.2) remaining = .ok ending)) ∧
      ∀ outcome, watch.lookAtFlag.1 = false → solve γ problem parameters watch = .ok outcome →
        ∃ candidates population, ∃ source remaining : γ,
          IsSetUp problem parameters candidates source population remaining ∧
            GivesBest candidates parameters
              (course candidates parameters watch population remaining) outcome := by
  have neverFalls (candidates : Candidates α) (population : List (List α)) (remaining : γ) :
      (course candidates parameters watch population remaining).Pairwise KeepsUp :=
    pairwise_generations _ _ _ _
  constructor
  · intro candidates population source remaining isSetUp
    refine ⟨neverFalls candidates population remaining, ?_⟩
    intro isTame someObjective someMember
    rw [← isSetUp.problem_eq] at isTame someObjective
    refine exists_evolve_eq_ok isTame someObjective _ ?_ _ _
    rw [← List.length_pos_iff, length_of_initialPopulation_eq_ok isSetUp.populated]
    exact someMember
  · intro outcome started solved
    obtain ⟨candidates, population, ending, details, source, remaining, isSetUp, evolved, -,
      isShown⟩ := exists_shows_of_solve_eq_ok started solved
    obtain ⟨⟨points, arePoints, areTold⟩, isLast, isBest⟩ := closes_of_evolve_eq_ok evolved
    have isHistory : outcome.account.history = points := by
      rw [isShown.isAccount, arePoints, Trace.start, List.append_nil, List.reverse_reverse]
    have keepUp := neverFalls candidates population remaining
    refine ⟨candidates, population, source, remaining, isSetUp, isHistory ▸ areTold,
      isHistory ▸ neverTurnsBack_of_tells areTold keepUp, ending.best,
      ⟨ending.members, isLast, isBest⟩, fitness_le_of_getLast? keepUp isLast isBest, ?_,
      isShown.areValues, isShown.areObjectives⟩
    exact memberOf_of_mem_generations (List.mem_of_getLast? isLast) isBest.mem

section Reciprocal

/-- A whole number from zero to nine the reciprocal of which is to be large. -/
def reciprocalProblem : Problem Extended where
  identifier := "reciprocal"
  name := ""
  kind := .constraintSatisfaction
  description := ""
  objectives :=
    [⟨.expression (.power (.variable "x") (.finite (-1))), "", "value", .maximize, 1, 1, ""⟩]
  constraints := []
  decisions := [⟨"x", "x", .integer, some 0, some (.finite 9), none, none, ""⟩]
  parameters := none
  status := .pending

/-- A short run of three members, the elites of which would be none by their rate. -/
def threeMembers : GeneticParameters Extended where
  maxIterations := 4
  tolerance := 0
  timeLimit := none
  seed := some 2
  convergence := ⟨.iterationLimit, 0, 1⟩
  parallelization := ⟨false, 1, .masterSlave⟩
  defaultBounds := (0, .finite 1)
  populationSize := 3
  crossoverRate := 0
  mutationRate := 1
  elitismRate := 0
  tournamentSize := 2
  mutationScale := 1
  mutationDecay := 1
  penaltyCoefficient := 1
  alternativesCount := 1

/-- The search space of the number. -/
def reciprocalCandidates : Candidates Extended where
  problem := reciprocalProblem
  tolerance := 0
  reduction := ⟨⟨[("x", (0, .finite 9))]⟩, {}, {}⟩

/-- A watch that stays at its start, with its flag down. -/
def idleWatch : Watch Extended :=
  .start (fun _ => 0) fun _ => false

theorem reciprocalProblem_isSetUp :
    IsSetUp reciprocalProblem threeMembers reciprocalCandidates (⟨2⟩ : MixingGenerator)
      [[.finite 0], [.finite 9], [.finite 5]] ⟨11400714819323198487⟩ :=
  ⟨by cbv, rfl, by cbv⟩

theorem reciprocalCandidates_evolves :
    ∃ ending others,
      evolve reciprocalCandidates threeMembers 4 [[.finite 0], [.finite 9], [.finite 5]]
          (.start idleWatch.lookAtFlag.2) (⟨11400714819323198487⟩ : MixingGenerator) =
        .ok ending ∧
      alternatives reciprocalCandidates 1 ending.members = .ok others ∧
      ending.best.vector = [.finite 3] := by
  have evolves :
      (do
        let ending ← evolve reciprocalCandidates threeMembers 4
          [[.finite 0], [.finite 9], [.finite 5]] (.start idleWatch.lookAtFlag.2)
          (⟨11400714819323198487⟩ : MixingGenerator)
        let _ ← alternatives reciprocalCandidates 1 ending.members
        return ending.best.vector) = .ok [.finite 3] := by
    cbv
  obtain ⟨ending, evolved, evolves⟩ := bind_eq_ok evolves
  obtain ⟨others, areOthers, isBest⟩ := bind_eq_ok evolves
  exact ⟨ending, others, evolved, areOthers, Except.ok.inj isBest⟩

theorem reciprocalProblem_returns :
    ∃ outcome,
      solve MixingGenerator reciprocalProblem threeMembers idleWatch = .ok outcome ∧
        outcome.variableValues = ⟨[("x", .number (.finite 3))]⟩ := by
  obtain ⟨ending, others, evolved, areOthers, isBest⟩ := reciprocalCandidates_evolves
  refine exists_solve_eq_ok reciprocalProblem_isSetUp rfl evolved ⟨others, areOthers⟩ ?_ ?_ ?_
  all_goals rw [isBest]
  · exact exists_eq_ok_of_toBool (by cbv)
  · exact exists_eq_ok_of_toBool (by cbv)
  · cbv

theorem reciprocalProblem_isTame :
    reciprocalProblem.IsTame where
  objectives objective member := by
    obtain rfl := List.mem_singleton.mp member
    trivial
  constraints constraint member := absurd member List.not_mem_nil

/-- The reciprocal grows from a fifth to a third; zero, which has none, is the worst member. -/
theorem reciprocalProblem_never_loses_best :
    (course reciprocalCandidates threeMembers idleWatch [[.finite 0], [.finite 9], [.finite 5]]
        (⟨11400714819323198487⟩ : MixingGenerator)).Pairwise KeepsUp ∧
      (∃ ending,
        evolve reciprocalCandidates threeMembers 4 [[.finite 0], [.finite 9], [.finite 5]]
          (.start idleWatch.lookAtFlag.2) (⟨11400714819323198487⟩ : MixingGenerator) =
            .ok ending) ∧
      ∃ outcome,
        solve MixingGenerator reciprocalProblem threeMembers idleWatch = .ok outcome ∧
          outcome.variableValues = ⟨[("x", .number (.finite 3))]⟩ ∧
          (outcome.account.history.map (·.objectiveValue)).Pairwise (· ≤ ·) := by
  obtain ⟨ofRun, givesBest⟩ :=
    solve_never_loses_best MixingGenerator reciprocalProblem threeMembers idleWatch
  obtain ⟨neverFalls, comesToEnd⟩ := ofRun _ _ _ _ reciprocalProblem_isSetUp
  obtain ⟨outcome, solved, isValue⟩ := reciprocalProblem_returns
  obtain ⟨candidates, population, source, remaining, isSetUp, isGiven⟩ :=
    givesBest outcome rfl solved
  have sameCandidates :=
    Except.ok.inj (isSetUp.prepared.symm.trans reciprocalProblem_isSetUp.prepared)
  subst candidates
  exact ⟨neverFalls,
    comesToEnd reciprocalProblem_isTame (by simp [reciprocalProblem]) (by decide), outcome, solved,
    isValue, isGiven.neverTurnsBack _ rfl⟩

end Reciprocal

end Genetic

end Optima
