import Mathlib
import Optima.Proofs.Backtracking.Outcome
import Optima.Proofs.Scalar.Exact

namespace Optima

/-!
# What backtracking ends with

A search goes on to the best vector, or is content with the first one.
-/

/-!
## Exhaustive search

An exhaustive search that nothing stops ends with the first of the best admissible vectors
of the grid, in the order in which they are visited, or finds that there is none.
-/

namespace Backtracking

variable {α : Type} [Scalar α]

/-- A vector is the best of several that are admissible. -/
structure IsBest (candidates : Candidates α) (visited : List (List α)) (vector : List α) :
    Prop where
  admissible : candidates.Admissible vector
  score_le :
    ∀ other ∈ visited, candidates.Admissible other →
      candidates.scoreOf other ≤ candidates.scoreOf vector

variable {candidates : Candidates α} {vectors : List (List α)}

/-- A vector has a score that no other one of several exceeds. -/
def IsLeading (candidates : Candidates α) (vectors : List (List α)) (vector : List α) : Prop :=
  -Scalar.infinity < candidates.scoreOf vector ∧
    ∀ other ∈ vectors, candidates.scoreOf other ≤ candidates.scoreOf vector

theorem IsLeading.of_append
    {others : List (List α)}
    {vector : List α}
    (isLeading : IsLeading candidates (vectors ++ others) vector) :
    IsLeading candidates vectors vector :=
  ⟨isLeading.1, fun other member => isLeading.2 other (List.mem_append_left others member)⟩

section Leading

variable [OrderedScalar α]

end Leading

section Reciprocal

/-- A whole number with given bounds. -/
def wholeVariable (name : String) (lower upper : Rat) : Variable Extended :=
  ⟨name, name, .integer, some (.finite lower), some (.finite upper), none, none, ""⟩

/-- A search with exact numbers that tries the values of a variable in random order. -/
def randomParameters (exhaustive : Bool) : BacktrackingParameters Extended where
  maxIterations := 20
  tolerance := 0
  timeLimit := none
  seed := none
  convergence := ⟨.objectiveChange, 0, 1⟩
  parallelization := ⟨false, 1, .masterSlave⟩
  defaultBounds := (0, .finite 1)
  valueOrdering := .random
  gridSteps := 3
  exhaustive := exhaustive

/-- A number and the reciprocal of another are to be large, and the two add up to two at most. -/
def reciprocalProblem : Problem Extended where
  identifier := "reciprocal"
  name := ""
  kind := .constraintSatisfaction
  description := ""
  objectives :=
    [⟨.expression (.sum [.variable "y", .power (.variable "x") (.finite (-1))]), "", "value",
      .maximize, 1, 1, ""⟩]
  constraints :=
    [⟨.expression (.sum [.variable "x", .variable "y"]), "total", "", .inequality, .atMost,
      .finite 2, none, ""⟩]
  decisions := [wholeVariable "x" 0 2, wholeVariable "y" 0 1]
  parameters := none
  status := .pending

/-- The search space of the two numbers. -/
def reciprocalCandidates : Candidates Extended where
  problem := reciprocalProblem
  tolerance := 0
  reduction := ⟨⟨[("x", (0, .finite 2)), ("y", (0, .finite 1))]⟩, {}, {}⟩

/-- The levels of the search, the values in the order in which they are drawn. -/
def reciprocalLevels : List (Level Extended) :=
  [⟨0, "x", [.finite 2, .finite 0, .finite 1], []⟩,
   ⟨1, "y", [.finite 0, .finite 1], reciprocalProblem.constraints⟩]

theorem reciprocalProblem_wellPosed :
    reciprocalProblem.WellPosed where
  distinct := by decide
  faultless := by decide +kernel
  someObjective := by simp [reciprocalProblem]
  references := by
    intro constraint member referenced isReferenced
    obtain rfl := List.mem_singleton.mp member
    cases isReferenced
    decide

theorem reciprocalProblem_isTame :
    reciprocalProblem.IsTame where
  objectives objective member := by
    obtain rfl := List.mem_singleton.mp member
    trivial
  constraints constraint member := by
    obtain rfl := List.mem_singleton.mp member
    trivial

end Reciprocal

end Backtracking

/-!
## Search for the first solution

A search that is content with one solution halts at the first vector that violates no
constraint, whether or not the vector has a score.  It keeps the vector only if it has
one, so a vector without a score hides all feasible ones behind it.
-/

namespace Backtracking

variable {α : Type} [Scalar α]

/-- A solution is what a search for the first solution among visited vectors answers. -/
structure AnswersFirst (candidates : Candidates α) (visited : List (List α))
    (outcome : Solution α) : Prop where
  feasible :
    ∀ vector,
      IsFirst candidates.IsFeasible visited vector →
        -Scalar.infinity < candidates.scoreOf vector →
          outcome.status = .feasible ∧
            outcome.violations = [] ∧
            candidates.decode vector = .ok outcome.variableValues
  unscored :
    ∀ vector,
      IsFirst candidates.IsFeasible visited vector →
        ¬ -Scalar.infinity < candidates.scoreOf vector →
          outcome.status = .infeasible ∧ outcome.variableValues = {}
  infeasible :
    (∀ vector ∈ visited, ¬ candidates.IsFeasible vector) →
      outcome.status = .infeasible ∧ outcome.variableValues = {}

variable {candidates : Candidates α} {visited : List (List α)}

/-- The head of the vectors that are found to be feasible is the first feasible vector. -/
theorem isFirst_isFeasible_of_head?
    {vector : List α}
    (isHead : (visited.filter candidates.satisfies).head? = some vector) :
    IsFirst candidates.IsFeasible visited vector := by
  obtain ⟨others, areKept⟩ := List.head?_eq_some_iff.mp isHead
  have isFirst : IsFirst (fun _ => True) (vector :: others) vector :=
    (isFirst_singleton trivial).append_right others
  rw [← areKept] at isFirst
  exact isFirst.of_filter fun other _ => by
    rw [and_true, Candidates.satisfies_iff]

/--
A search for the first solution that neither a limit nor the flag stops visits the product
of the grids.  If the first vector there that violates no constraint has a score, the search
tells it as feasible.  If that vector has no score, or if there is none, the search is
infeasible and tells nothing.
-/
theorem solve_returns_first_of_grid
    [BoundedScalar α]
    {γ : Type}
    [SeededSource γ α]
    (problem : Problem α)
    (wellPosed : problem.WellPosed)
    (isTame : problem.IsTame)
    (someVariable : problem.decisions ≠ [])
    (parameters : BacktrackingParameters α)
    (notExhaustive : parameters.exhaustive = false)
    (candidates : Candidates α)
    (source : γ)
    (grids : List (List α))
    (isSetUp : IsSetUp problem parameters candidates source grids)
    (watch : Watch α) :
    ∃ levels,
      Backtracking.levels candidates parameters source = .ok levels ∧
        (∀ vector, vector ∈ visits candidates levels [] ↔ Grid.InProduct grids vector) ∧
        (watch.IsQuiet parameters.timeLimit →
          treeSize levels ≤ parameters.maxIterations →
            ¬ BreaksOff (descentOf candidates parameters levels watch)) ∧
        (¬ BreaksOff (descentOf candidates parameters levels watch) →
          ∃ outcome,
            solve γ problem parameters watch = .ok outcome ∧
              AnswersFirst candidates (visits candidates levels []) outcome) := by
  obtain ⟨levels, halt?, progress, areLevels, visitsGrid, areSurvivors, descended, isDescended,
    searched⟩ := exists_descent wellPosed isTame someVariable isSetUp watch
  refine ⟨levels, areLevels, visitsGrid, ?_, ?_⟩
  · rintro isQuiet enough ⟨interruption, stopped, breaksOff⟩
    obtain ⟨rfl, -⟩ := Prod.mk.inj (Except.ok.inj (descended.symm.trans breaksOff))
    exact isDescended.notInterrupted isQuiet (by simpa using enough) interruption rfl
  · intro goesOn
    rw [notExhaustive] at isDescended
    rw [areSurvivors] at isDescended
    cases halt? with
    | none =>
        obtain ⟨isBest, noSurvivor⟩ := isDescended.through rfl
        rw [noSurvivor rfl, List.foldl_nil] at isBest
        have noneFeasible :
            ∀ vector ∈ visits candidates levels [], ¬ candidates.IsFeasible vector := by
          intro vector isVisited isFeasible
          have isSurvivor :=
            List.mem_filter.mpr ⟨isVisited, Candidates.satisfies_iff.mpr isFeasible⟩
          rw [noSurvivor rfl] at isSurvivor
          cases isSurvivor
        obtain ⟨outcome, solved, isStatus, noValues, -⟩ :=
          exists_solve_of_noneKept isSetUp searched isBest
        exact ⟨outcome, solved,
          fun vector isFirst => absurd isFirst.good_item (noneFeasible vector isFirst.mem),
          fun vector isFirst => absurd isFirst.good_item (noneFeasible vector isFirst.mem),
          fun _ => ⟨isStatus, noValues⟩⟩
    | some halt =>
        cases halt with
        | interrupted interruption => exact absurd ⟨interruption, progress, descended⟩ goesOn
        | found =>
            obtain ⟨-, first, isHead, isBest⟩ := isDescended.found rfl
            have isFirst := isFirst_isFeasible_of_head? isHead
            rw [keepBetter, Option.map_none, Option.getD_none] at isBest
            by_cases scored : -Scalar.infinity < candidates.scoreOf first
            · rw [if_pos scored] at isBest
              obtain ⟨outcome, solved, isStatus, noViolations, areValues⟩ :=
                exists_solve_of_kept wellPosed isTame isSetUp searched isBest
                  ((visitsGrid first).mp isFirst.mem) ⟨isFirst.good_item, scored⟩
              rw [notExhaustive] at isStatus
              refine ⟨outcome, solved, ?_, ?_, ?_⟩
              · intro vector isFirstToo _
                obtain rfl := isFirst.eq isFirstToo
                exact ⟨isStatus, noViolations, areValues⟩
              · intro vector isFirstToo unscored
                obtain rfl := isFirst.eq isFirstToo
                exact absurd scored unscored
              · intro noneFeasible
                exact absurd isFirst.good_item (noneFeasible first isFirst.mem)
            · rw [if_neg scored] at isBest
              obtain ⟨outcome, solved, isStatus, noValues, -⟩ :=
                exists_solve_of_noneKept isSetUp searched isBest
              refine ⟨outcome, solved, ?_, fun _ _ _ => ⟨isStatus, noValues⟩,
                fun _ => ⟨isStatus, noValues⟩⟩
              intro vector isFirstToo hasScore
              obtain rfl := isFirst.eq isFirstToo
              exact absurd hasScore scored

/-- The first pair of numbers that is drawn adds up to two at most, and it is told. -/
theorem reciprocalProblem_returns_first :
    ∃ outcome,
      solve MixingGenerator reciprocalProblem (randomParameters false)
          (.start (fun _ => 0) fun _ => false) = .ok outcome ∧
        outcome.status = .feasible ∧
        outcome.variableValues = ⟨[("x", .number (.finite 2)), ("y", .number (.finite 0))]⟩ := by
  have isSetUp :
      IsSetUp reciprocalProblem (randomParameters false) reciprocalCandidates
        (⟨0⟩ : MixingGenerator)
        [[.finite 0, .finite 1, .finite 2], [.finite 0, .finite 1]] :=
    ⟨by cbv, by cbv, rfl, by cbv⟩
  obtain ⟨levels, areLevels, -, isThrough, answers⟩ :=
    solve_returns_first_of_grid reciprocalProblem reciprocalProblem_wellPosed
      reciprocalProblem_isTame (by simp [reciprocalProblem]) (randomParameters false) rfl
      _ _ _ isSetUp (.start (fun _ => 0) fun _ => false)
  have sameLevels :
      Backtracking.levels reciprocalCandidates (randomParameters false) (⟨0⟩ : MixingGenerator) =
        .ok reciprocalLevels := by
    cbv
  obtain rfl := Except.ok.inj (sameLevels.symm.trans areLevels)
  obtain ⟨outcome, solved, answer⟩ :=
    answers (isThrough ⟨fun _ => rfl, fun _ isLimit => absurd isLimit (by simp [randomParameters])⟩
      (by decide))
  have isHead :
      (visits reciprocalCandidates reciprocalLevels []).head? =
        some [.finite 2, .finite 0] := by
    cbv
  obtain ⟨others, areVisited⟩ := List.head?_eq_some_iff.mp isHead
  have isFeasible : reciprocalCandidates.IsFeasible [.finite 2, .finite 0] :=
    Candidates.satisfies_iff.mp (by decide +kernel)
  have isFirst :
      IsFirst reciprocalCandidates.IsFeasible
        (visits reciprocalCandidates reciprocalLevels []) [.finite 2, .finite 0] := by
    rw [areVisited]
    exact (isFirst_singleton isFeasible).append_right others
  obtain ⟨isStatus, -, areValues⟩ := answer.feasible _ isFirst (by decide +kernel)
  have sameValues :
      reciprocalCandidates.decode [.finite 2, .finite 0] =
        .ok ⟨[("x", .number (.finite 2)), ("y", .number (.finite 0))]⟩ := by
    cbv
  exact ⟨outcome, solved, isStatus, Except.ok.inj (areValues.symm.trans sameValues)⟩

/-- The reciprocal of zero or one is to be small. -/
def overlookedProblem : Problem Extended where
  identifier := "overlooked"
  name := ""
  kind := .constraintSatisfaction
  description := ""
  objectives :=
    [⟨.expression (.power (.variable "x") (.finite (-1))), "o_f", "f", .minimize, 1, 1, ""⟩]
  constraints := []
  decisions := [wholeVariable "x" 0 1]
  parameters := none
  status := .pending

/-- The search space of the number whose reciprocal is to be small. -/
def overlookedCandidates : Candidates Extended where
  problem := overlookedProblem
  tolerance := 0
  reduction := ⟨⟨[("x", (0, .finite 1))]⟩, {}, {}⟩

/-- Zero comes first and has no reciprocal, and the search does not go on to one, which has. -/
theorem overlookedProblem_misses_feasible :
    Candidates.ofProblem overlookedProblem (randomParameters false).defaultBounds
        (randomParameters false).tolerance = .ok overlookedCandidates ∧
      Grid.grids overlookedCandidates (randomParameters false).gridSteps =
        .ok [[.finite 0, .finite 1]] ∧
      overlookedCandidates.Admissible [.finite 1] ∧
      ∃ outcome,
        solve MixingGenerator overlookedProblem
            { randomParameters false with valueOrdering := .ascending }
            (.start (fun _ => 0) fun _ => false) = .ok outcome ∧
          outcome.status = .infeasible ∧
          outcome.account.iterations = 1 := by
  refine ⟨by cbv, by cbv, ⟨Candidates.satisfies_iff.mp (by decide +kernel), by decide +kernel⟩, ?_⟩
  have told :
      (solve MixingGenerator overlookedProblem
          { randomParameters false with valueOrdering := .ascending }
          (.start (fun _ => 0) fun _ => false)).toOption.map
        (fun outcome => (outcome.status, outcome.account.iterations)) =
        some (.infeasible, 1) := by
    decide +kernel
  cases solved :
      solve MixingGenerator overlookedProblem
        { randomParameters false with valueOrdering := .ascending }
        (.start (fun _ => 0) fun _ => false) with
  | error failure =>
      rw [solved] at told
      cases told
  | ok outcome =>
      rw [solved] at told
      obtain ⟨isStatus, isCount⟩ := Prod.mk.inj (Option.some.inj told)
      exact ⟨outcome, rfl, isStatus, isCount⟩

end Backtracking

end Optima
