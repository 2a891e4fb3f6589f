import Optima.Proofs.Evolution.Replacement
import Optima.Proofs.Scalar.Comparison

namespace Optima

/-!
# The least violation

The Pareto strategy never gives up feasibility.  Its history tells of the least violation
of each generation, and this never rises.
-/

namespace Pareto

open Evolution

variable {α : Type} [Scalar α] {γ : Type} [SeededSource γ α]

/-- A point of the history tells of the least violation of a generation. -/
def TellsLeast (members : List (Member α)) (point : ConvergencePoint α) : Prop :=
  (∃ member ∈ members, point.constraintViolation = member.evaluation.violation) ∧
    ∀ member ∈ members, point.constraintViolation ≤ member.evaluation.violation

/-- A later generation has a feasible member if an earlier one has. -/
def KeepsFeasible (earlier later : List (Member α)) : Prop :=
  (∃ member ∈ earlier, member.evaluation.isFeasible = true) →
    ∃ member ∈ later, member.evaluation.isFeasible = true

section Running

variable [MeasuringScalar α] {problem : Problem α} {parameters : GeneticParameters α}
  {watch : Watch α} {candidates : Candidates α} {population : List (List α)}
  {members : List (Member α)} {source remaining : γ}

theorem ofAll_of_isSetUp
    (watch : Watch α)
    (isSetUp : IsSetUp problem parameters candidates source population remaining members) :
    ∀ generation ∈ course candidates parameters watch members remaining,
      AreMeasured generation ∧ generation.length = parameters.populationSize := by
  refine of_mem_generations ⟨areMeasured_of_membersOf_eq_ok isSetUp.evaluated, ?_⟩ ?_
  · rw [← length_of_initialPopulation_eq_ok isSetUp.populated,
      ← map_vector_of_membersOf_eq_ok isSetUp.evaluated, List.length_map]
  · rintro earlier later succeeds ⟨areMeasured, -⟩
    exact ⟨areMeasured_of_succeeds succeeds areMeasured, length_of_succeeds succeeds⟩

/-- Each generation of a run keeps the violations of all before it low. -/
theorem pairwise_keepsLow
    (isSetUp : IsSetUp problem parameters candidates source population remaining members) :
    (course candidates parameters watch members remaining).Pairwise KeepsLow := by
  have ofAll := ofAll_of_isSetUp watch isSetUp
  have keeps : (course candidates parameters watch members remaining).IsChain KeepsLow := by
    refine (isChain_generations _ members _ remaining).imp_of_mem_imp ?_
    intro earlier later inCourse _ succeeds
    exact keepsLow_of_succeeds succeeds (ofAll earlier inCourse).1 (ofAll earlier inCourse).2
  have : Trans (KeepsLow (α := α)) KeepsLow KeepsLow := ⟨KeepsLow.trans⟩
  exact List.isChain_iff_pairwise.mp keeps

end Running

variable (γ) in
/--
Replacement takes an elite of any pool, in which no survivor is dominated by a discarded
candidate.  Each generation of a run replaces the one before it that way, also where the run
breaks down later, and none gives up feasibility.  The history of a solve that returns tells
of the least violation of each generation, and this never rises.
-/
theorem solve_replaces_elitist
    [Elementary α]
    [MeasuringScalar α]
    (problem : Problem α)
    (parameters : GeneticParameters α)
    (watch : Watch α) :
    (∀ (candidates : Candidates α) (pool : List (Member α)) (size : Nat), size ≤ pool.length →
        AreElite (standingsOf candidates pool) size
            ((Layering.ofStandings (standingsOf candidates pool)).survivors size) ∧
          (replacement candidates size pool).length = size) ∧
      (∀ candidates population members, ∀ source remaining : γ,
        IsSetUp problem parameters candidates source population remaining members →
          (course candidates parameters watch members remaining).IsChain
              (Replaces candidates parameters.populationSize) ∧
            (course candidates parameters watch members remaining).Pairwise KeepsFeasible) ∧
      ∀ outcome, solve γ problem parameters watch = .ok outcome →
        (outcome.account.history.map (·.constraintViolation)).Pairwise (· ≥ ·) ∧
          (watch.lookAtFlag.1 = false →
            ∃ candidates population members, ∃ source remaining : γ,
              IsSetUp problem parameters candidates source population remaining members ∧
                List.Forall₂ TellsLeast (course candidates parameters watch members remaining)
                  outcome.account.history) := by
  refine ⟨?_, ?_, ?_⟩
  · intro candidates pool size enough
    have areElite := areElite_replacement candidates enough
    exact ⟨areElite, length_eq_of_areElite areElite⟩
  · intro candidates population members source remaining isSetUp
    refine ⟨(isChain_generations _ members _ remaining).imp fun _ _ => replaces_of_succeeds, ?_⟩
    refine (pairwise_keepsLow isSetUp).imp_of_mem fun _ inCourse keepsLow => ?_
    exact keepsLow.exists_isFeasible (ofAll_of_isSetUp watch isSetUp _ inCourse).1
  · intro outcome solved
    cases started : watch.lookAtFlag.1 with
    | true =>
        unfold solve at solved
        simp only [started, ↓reduceIte] at solved
        cases solved
        exact ⟨.nil, nofun⟩
    | false =>
        obtain ⟨candidates, population, members, source, remaining, isSetUp, areTold⟩ :=
          exists_told_of_solve_eq_ok started solved
        have ofAll := ofAll_of_isSetUp watch isSetUp
        have areLeast :
            List.Forall₂ TellsLeast (course candidates parameters watch members remaining)
              outcome.account.history := by
          refine List.Forall₂.imp ?_ ((List.forall₂_and_left _ _).mpr ⟨ofAll, areTold⟩)
          rintro generation point ⟨⟨areMeasured, -⟩, tells⟩
          exact isLeast_of_tells areMeasured tells
        refine ⟨List.pairwise_map.mpr (pairwise_of_forall₂ areLeast ?_ (pairwise_keepsLow isSetUp)),
          fun _ => ⟨candidates, population, members, source, remaining, isSetUp, areLeast⟩⟩
        rintro earlier later point next ⟨⟨member, inEarlier, isTold⟩, -⟩ ⟨-, isLeast⟩ keepsLow
        obtain ⟨other, inLater, atMost⟩ := keepsLow member inEarlier
        rw [isTold]
        exact ComparableScalar.le_trans _ _ _ (isLeast other inLater) atMost

section Contested

/-- A whole number from zero to nine that is to be small and to be large, and has to be five. -/
def contestedProblem : Problem Extended where
  identifier := "contested"
  name := ""
  kind := .multiObjective
  description := ""
  objectives :=
    [⟨.expression (.variable "x"), "low", "low", .minimize, 1, 1, ""⟩,
     ⟨.expression (.variable "x"), "high", "high", .maximize, 1, 1, ""⟩]
  constraints :=
    [⟨.expression (.variable "x"), "five", "five", .equality, .equal, .finite 5, none, ""⟩]
  decisions := [⟨"x", "x", .integer, some 0, some (.finite 9), none, none, ""⟩]
  parameters := none
  status := .pending

/-- A run of two generations of two members. -/
def twoMembers : GeneticParameters Extended where
  maxIterations := 2
  tolerance := 0
  timeLimit := none
  seed := some 6
  convergence := ⟨.iterationLimit, 0, 1⟩
  parallelization := ⟨false, 1, .masterSlave⟩
  defaultBounds := (0, .finite 1)
  populationSize := 2
  crossoverRate := 0
  mutationRate := 1
  elitismRate := 0
  tournamentSize := 2
  mutationScale := 1
  mutationDecay := 1
  penaltyCoefficient := 1
  alternativesCount := 1

/-- The search space of the number. -/
def contestedCandidates : Candidates Extended where
  problem := contestedProblem
  tolerance := 0
  reduction := ⟨⟨[("x", (0, .finite 9))]⟩, {}, {}⟩

theorem contestedCandidates_evolves :
    ∃ members ending primary others,
      IsSetUp contestedProblem twoMembers contestedCandidates (⟨6⟩ : MixingGenerator)
          [[.finite 0], [.finite 9]] ⟨6⟩ members ∧
        evolve contestedCandidates twoMembers 2 members (.start Genetic.idleWatch.lookAtFlag.2)
            (⟨6⟩ : MixingGenerator) = .ok ending ∧
        primary? contestedCandidates ending = some primary ∧
        alternatives contestedCandidates ending = .ok others ∧
        ending.trace.history.map (·.constraintViolation) = [.finite 1, .finite 4] ∧
        primary.vector = [.finite 4] := by
  have evolves :
      (do
        let members ← membersOf contestedCandidates twoMembers [[.finite 0], [.finite 9]]
        let ending : Ending Extended ← evolve contestedCandidates twoMembers 2 members
          (.start Genetic.idleWatch.lookAtFlag.2) (⟨6⟩ : MixingGenerator)
        let _ ← alternatives contestedCandidates ending
        return (ending.trace.history.map fun point => point.constraintViolation,
          (primary? contestedCandidates ending).map fun primary => primary.vector)) =
        (.ok ([.finite 1, .finite 4], some [.finite 4]) :
          Except Breakdown (List Extended × Option (List Extended))) := by
    cbv
  obtain ⟨members, areMembers, evolves⟩ := bind_eq_ok evolves
  obtain ⟨ending, evolved, evolves⟩ := bind_eq_ok evolves
  obtain ⟨others, areOthers, evolves⟩ := bind_eq_ok evolves
  obtain ⟨areViolations, isVector⟩ := Prod.mk.inj (Except.ok.inj evolves)
  obtain ⟨primary, isPrimary, isVector⟩ := Option.map_eq_some_iff.mp isVector
  exact ⟨members, ending, primary, others, ⟨⟨by cbv, rfl, by cbv⟩, areMembers⟩, evolved,
    isPrimary, areOthers, areViolations, isVector⟩

/-- The distance to five falls from four to one. -/
theorem contestedProblem_replaces_elitist :
    ∃ outcome,
      solve MixingGenerator contestedProblem twoMembers Genetic.idleWatch = .ok outcome ∧
        outcome.account.history.map (·.constraintViolation) = [.finite 4, .finite 1] ∧
        (outcome.account.history.map (·.constraintViolation)).Pairwise (· ≥ ·) ∧
        ∃ members,
          (course contestedCandidates twoMembers Genetic.idleWatch members
              (⟨6⟩ : MixingGenerator)).IsChain (Replaces contestedCandidates 2) := by
  obtain ⟨-, ofRun, ofOutcome⟩ :=
    solve_replaces_elitist MixingGenerator contestedProblem twoMembers Genetic.idleWatch
  obtain ⟨members, ending, primary, others, isSetUp, evolved, isPrimary, areOthers, areViolations,
    isVector⟩ := contestedCandidates_evolves
  obtain ⟨outcome, solved, isHistory⟩ :
      ∃ outcome,
        solve MixingGenerator contestedProblem twoMembers Genetic.idleWatch = .ok outcome ∧
          outcome.account.history = ending.trace.history.reverse := by
    refine exists_solve_eq_ok isSetUp rfl evolved isPrimary areOthers ?_ ?_ ?_
    all_goals rw [isVector]
    all_goals exact exists_eq_ok_of_toBool (by cbv)
  refine ⟨outcome, solved, ?_, (ofOutcome outcome solved).1, members, (ofRun _ _ _ _ _ isSetUp).1⟩
  rw [isHistory, List.map_reverse, areViolations]
  rfl

end Contested

section Unbounded

/-- A front of four feasible candidates, the last of which has an infinite objective. -/
def unboundedFront : List (Standing Float) :=
  [⟨[0, 3], 0⟩, ⟨[1, 2], 0⟩, ⟨[2, 1], 0⟩, ⟨[1 / 0, 0], 0⟩]

/-- The crowding distances of the front after its first objective. -/
def crowdingAlongFirst : List Float :=
  Crowding.spread [0, 1, 2, 1 / 0] (1 / 0 - 0) [0, 1, 2, 3] [1 / 0, 0, 0, 1 / 0]

/-- The crowding distances of the front after its second objective. -/
def crowdingAlongBoth : List Float :=
  Crowding.spread [3, 2, 1, 0] (3 - 0) [3, 2, 1, 0]
    ((crowdingAlongFirst.set 3 (1 / 0)).set 0 (1 / 0))

theorem unboundedFront_crowding :
    (Layering.ofStandings unboundedFront).crowding = crowdingAlongBoth := by
  have isFront : Fronts.sort unboundedFront = [[0, 1, 2, 3]] := by
    decide +kernel
  have risesAlong : Scalar.ascending [(0 : Float), 1, 2, 1 / 0] = [0, 1, 2, 3] := by
    have ordered :
        [((0 : Float), 0), (1, 1), (2, 2), (1 / 0, 3)].Pairwise fun first second =>
          Scalar.inOrder first.1 second.1 = true := by
      decide +kernel
    exact congrArg (List.map Prod.snd) (List.mergeSort_of_pairwise ordered)
  have fallsAlong : Scalar.ascending [(3 : Float), 2, 1, 0] = [3, 2, 1, 0] := by
    have above : Scalar.inOrder (3 : Float) 2 = false := by decide +kernel
    have below : Scalar.inOrder (1 : Float) 0 = false := by decide +kernel
    have inside : Scalar.inOrder (2 : Float) 1 = false := by decide +kernel
    have outside : Scalar.inOrder (2 : Float) 0 = false := by decide +kernel
    simp [Scalar.ascending, List.mergeSort, List.MergeSort.Internal.splitInTwo, List.splitAt,
      List.splitAt.go, above, below, inside, outside]
  have alongFirst :
      Crowding.alongObjective [0, 0, 0, 0] [(0 : Float), 1, 2, 1 / 0] = crowdingAlongFirst := by
    simp only [Crowding.alongObjective, risesAlong]
    exact if_neg (by decide +kernel)
  have alongBoth :
      Crowding.alongObjective crowdingAlongFirst [(3 : Float), 2, 1, 0] = crowdingAlongBoth := by
    simp only [Crowding.alongObjective, fallsAlong]
    exact if_neg (by decide +kernel)
  have areDistances :
      Crowding.distances [[(0 : Float), 3], [1, 2], [2, 1], [1 / 0, 0]] = crowdingAlongBoth := by
    rw [← alongBoth, ← alongFirst]
    rfl
  calc (Layering.ofStandings unboundedFront).crowding
      = Crowding.perFront [[0, 3], [1, 2], [2, 1], [1 / 0, 0]] [[0, 1, 2, 3]] :=
        congrArg (Crowding.perFront _) isFront
    _ = ([0, 1, 2, 3].zip crowdingAlongBoth).foldl
          (fun updated entry => updated.set entry.1 entry.2) [0, 0, 0, 0] := by
        rw [← areDistances]
        rfl
    _ = crowdingAlongBoth := rfl

/-- Along an infinite objective nobody in a front has a share of the range, and the neighbour of
the infinite candidate has a distance that is not a number.  In an order that compares such
distances one candidate is kept and a more isolated one is discarded. -/
theorem unboundedFront_keeps_crowded :
    (Layering.ofStandings unboundedFront).survivors 2 = [0, 1] ∧
      Scalar.isNaN ((Layering.ofStandings unboundedFront).crowdingAt 2) = true ∧
      (Layering.ofStandings unboundedFront).crowdingAt 1 <
        (Layering.ofStandings unboundedFront).crowdingAt 3 := by
  have isFront : (Layering.ofStandings unboundedFront).fronts = [[0, 1, 2, 3]] := by
    decide +kernel
  have crowdingAt_eq (position : Nat) :
      (Layering.ofStandings unboundedFront).crowdingAt position =
        crowdingAlongBoth.getD position 0 := by
    rw [Layering.crowdingAt, unboundedFront_crowding]
  have first : ¬ -crowdingAlongBoth.getD 1 0 < -crowdingAlongBoth.getD 0 0 := by decide +kernel
  have second : ¬ -crowdingAlongBoth.getD 2 0 < -crowdingAlongBoth.getD 1 0 := by decide +kernel
  have third : ¬ -crowdingAlongBoth.getD 3 0 < -crowdingAlongBoth.getD 2 0 := by decide +kernel
  have across : ¬ -crowdingAlongBoth.getD 2 0 < -crowdingAlongBoth.getD 0 0 := by decide +kernel
  refine ⟨?_, ?_, ?_⟩
  · rw [Layering.survivors, isFront]
    simp only [Layering.fill, Layering.byIsolation, crowdingAt_eq]
    simp [List.mergeSort, List.MergeSort.Internal.splitInTwo, List.splitAt, List.splitAt.go,
      -List.getD_eq_getElem?_getD, first, second, third, across]
  · rw [crowdingAt_eq]
    decide +kernel
  · rw [crowdingAt_eq, crowdingAt_eq]
    decide +kernel

end Unbounded

end Pareto

end Optima
