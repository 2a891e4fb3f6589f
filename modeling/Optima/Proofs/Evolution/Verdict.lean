import Optima.Proofs.Evolution.Breeding
import Optima.Proofs.Evolution.Budget
import Optima.Proofs.Search.Verdict

namespace Optima

/-!
# What an evolutionary run tells

A run tells a member of its last generation, and claims that it violates nothing only where its
violations add up to zero.  The components of all members are numbers that the variables have,
for every vector has been repaired when it was made, or handed on by vectors that had.
-/

namespace Evolution

variable {α γ : Type} [Scalar α] [CountingScalar α] [RandomSource γ α] {candidates : Candidates α}
  {parameters : GeneticParameters α} {problem : Problem α} {defaultBounds : α × α}

/-- A vector has a component for each variable, and where the intervals are those of the variables
the components are numbers that these have. -/
def AreTold (candidates : Candidates α) (defaultBounds : α × α) (vector : List α) : Prop :=
  vector.length = candidates.size ∧
    ((∀ decision ∈ candidates.problem.decisions,
        decision.IsTightened defaultBounds (candidates.intervalOf decision)) →
      candidates.AreCodes vector)

section Handing

variable (faultless : ∀ decision ∈ candidates.problem.decisions, decision.fault? = none)

include faultless

theorem areTold_repair
    {vector : List α}
    (isSize : vector.length = candidates.size) :
    AreTold candidates defaultBounds (candidates.repair vector) :=
  ⟨Candidates.length_repair isSize,
    fun areTightened => Candidates.areCodes_repair faultless areTightened isSize⟩

theorem areTold_mutate
    {generation : Nat}
    {vector : List α}
    {source : γ}
    (isSize : vector.length = candidates.size) :
    AreTold candidates defaultBounds
      (mutate candidates parameters generation vector source).1 := by
  unfold mutate
  refine areTold_repair faultless (length_mutateAll_decisions isSize ?_)
  rw [List.length_zip, length_mutationMask, RandomSource.length_repeated, min_self]

/-- Whatever the parents are, the components of a child are numbers that the variables have. -/
theorem isHeritable_areTold :
    IsHeritable γ candidates parameters (AreTold candidates defaultBounds) := by
  intro first second ⟨isSize, _⟩ ⟨isSizeToo, _⟩ generation before after
  obtain ⟨isLeft, isRight⟩ := length_crossover isSize isSizeToo before
  exact ⟨areTold_mutate faultless isLeft, areTold_mutate faultless isRight⟩

theorem areTold_of_mem_initialPopulation
    {size : Nat}
    {source remaining : γ}
    {population : List (List α)}
    (populated : initialPopulation candidates size source = .ok (population, remaining)) :
    ∀ vector ∈ population, AreTold candidates defaultBounds vector := by
  intro vector member
  obtain ⟨raw, isSize, rfl⟩ := exists_raw_of_mem_initialPopulation populated vector member
  exact areTold_repair faultless isSize

end Handing

/-- In every generation of a Pareto run the components are numbers that the variables have. -/
theorem areTold_of_mem_course
    {watch : Watch α}
    {δ : Type}
    [SeededSource δ α]
    [LawfulSource δ α]
    {source remaining : δ}
    {population : List (List α)}
    {members : List (Member α)}
    (faultless : ∀ decision ∈ problem.decisions, decision.fault? = none)
    (isSetUp : Pareto.IsSetUp problem parameters candidates source population remaining members) :
    ∀ generation ∈ Pareto.course candidates parameters watch members remaining,
      ∀ member ∈ generation, AreTold candidates parameters.defaultBounds member.vector := by
  have areSound := isSetUp.problem_eq ▸ faultless
  obtain ⟨isSize, areTold⟩ := of_membersOf_eq_ok
    (areTold_of_mem_initialPopulation areSound isSetUp.populated) isSetUp.evaluated
  have sameSize := isSize.trans (length_of_initialPopulation_eq_ok isSetUp.populated)
  intro generation inCourse
  exact (of_mem_pareto (isHeritable_areTold areSound) sameSize areTold generation inCourse).2

/-- A solution with a positive status solves the problem, for its member violates nothing. -/
theorem Shows.isSolvedBy
    [SummingScalar α]
    {algorithm : Algorithm}
    {primary : Member α}
    {trace : Trace α}
    {stop : StopReason}
    {details : List (String × Document α)}
    {outcome : Solution α}
    (isShown : Shows candidates algorithm primary trace stop details outcome)
    (faultless : ∀ decision ∈ problem.decisions, decision.fault? = none)
    (prepared :
      Candidates.ofProblem problem parameters.defaultBounds parameters.tolerance = .ok candidates)
    (areTold : AreTold candidates parameters.defaultBounds primary.vector)
    (isMember : memberOf candidates parameters primary.vector = .ok primary)
    (isPositive : outcome.status.IsPositive) :
    problem.IsSolvedBy parameters.defaultBounds parameters.tolerance outcome := by
  have isFeasible : primary.evaluation.isFeasible = true := by
    by_contra notFeasible
    rw [isShown.isStatus, if_neg notFeasible] at isPositive
    exact isPositive
  refine Problem.isSolvedBy_of_vector faultless prepared isShown.areValues isShown.areViolations
    areTold.1 (fun distinct => areTold.2 ?_)
    (Candidates.allHold_of_isFeasible (evaluate_of_memberOf_eq_ok isMember) isFeasible)
  exact Candidates.isTightened_intervalOf distinct faultless prepared

section Solving

variable [SummingScalar α] {δ : Type} [SeededSource δ α] [LawfulSource δ α]
  {watch : Watch α} {outcome : Solution α}
  (faultless : ∀ decision ∈ problem.decisions, decision.fault? = none)

include faultless

/-- A solve with a positive status solves the problem. -/
theorem isSolvedBy_of_genetic_solve_eq_ok
    (solved : Genetic.solve δ problem parameters watch = .ok outcome)
    (isPositive : outcome.status.IsPositive) :
    problem.IsSolvedBy parameters.defaultBounds parameters.tolerance outcome := by
  cases started : watch.lookAtFlag.1 with
  | true =>
      simp only [Genetic.solve, started, ↓reduceIte] at solved
      cases solved
      exact isPositive.elim
  | false =>
      obtain ⟨candidates, population, ending, details, source, remaining, isSetUp, evolved, -,
        isShown⟩ := Genetic.exists_shows_of_solve_eq_ok started solved
      have areSound := isSetUp.problem_eq ▸ faultless
      obtain ⟨-, isLast, isChosen⟩ := Genetic.closesChosen_of_evolve_eq_ok evolved
      obtain ⟨position, -, isBest⟩ := Genetic.exists_position_of_best?_eq_some isChosen
      have inCourse := List.mem_of_getLast? isLast
      have inLast := List.mem_of_getElem? isBest
      have areTold : AreTold candidates parameters.defaultBounds ending.best.vector :=
        (of_mem_genetic (isHeritable_areTold areSound)
          (areTold_of_mem_initialPopulation areSound isSetUp.populated) _ inCourse).2 _ inLast
      exact isShown.isSolvedBy faultless isSetUp.prepared areTold
        (Genetic.memberOf_of_mem_generations inCourse inLast) isPositive

/-- A solve with a positive status solves the problem. -/
theorem isSolvedBy_of_pareto_solve_eq_ok
    [Elementary α]
    (solved : Pareto.solve δ problem parameters watch = .ok outcome)
    (isPositive : outcome.status.IsPositive) :
    problem.IsSolvedBy parameters.defaultBounds parameters.tolerance outcome := by
  cases started : watch.lookAtFlag.1 with
  | true =>
      simp only [Pareto.solve, started, ↓reduceIte] at solved
      cases solved
      exact isPositive.elim
  | false =>
      obtain ⟨candidates, population, members, ending, primary, details, source, remaining,
        isSetUp, evolved, isPrimary, -, isShown⟩ :=
        Pareto.exists_shows_of_solve_eq_ok started solved
      obtain ⟨-, isLast, -⟩ := Pareto.closes_of_evolve_eq_ok evolved
      have inCourse := List.mem_of_getLast? isLast
      have inLast := List.mem_of_getElem? isPrimary
      have areTold := areTold_of_mem_course faultless isSetUp _ inCourse _ inLast
      exact isShown.isSolvedBy faultless isSetUp.prepared areTold
        (Pareto.memberOf_of_mem_course isSetUp.evaluated _ inCourse _ inLast) isPositive

end Solving

end Evolution

end Optima
