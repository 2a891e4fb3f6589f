import Optima.Backtracking.Solve
import Optima.Proofs.Search.Candidates
import Optima.Proofs.Search.Watch

namespace Optima

/-!
# The tree of assignments

Level by level the values of the domains make a tree, whose leaves are vectors.  The
search comes to the leaves that no check on the way cuts off, keeps the best of them as
it goes along, and tries no value twice.
-/

namespace Backtracking

variable {α : Type} [Scalar α]

/-- The vectors at the leaves below chosen levels, in the order in which they are visited. -/
def visits (candidates : Candidates α) : List (Level α) → List (Level α × α) → List (List α)
  | [], chosen => [vectorOf candidates.size chosen]
  | level :: deeper, chosen =>
    level.domain.flatMap fun value => visits candidates deeper (chosen ++ [(level, value)])

/-- The vectors at the leaves that no check cuts off. -/
def survivors (candidates : Candidates α) : List (Level α) → List (Level α × α) → List (List α)
  | [], chosen => [vectorOf candidates.size chosen]
  | level :: deeper, chosen =>
    level.domain.flatMap fun value =>
      if Constraints.satisfied candidates.tolerance (assignmentOf (chosen ++ [(level, value)]))
          level.checks then
        survivors candidates deeper (chosen ++ [(level, value)])
      else []

omit [Scalar α] in
/-- Number of values in the whole tree below a level. -/
def treeSize : List (Level α) → Nat
  | [] => 0
  | level :: deeper => level.domain.length * (treeSize deeper + 1)

/-- The better of the best vector so far and another one. -/
def keepBetter (candidates : Candidates α) (best : Option (List α × α)) (vector : List α) :
    Option (List α × α) :=
  if (best.map (·.2)).getD (-Scalar.infinity) < candidates.scoreOf vector then
    some (vector, candidates.scoreOf vector)
  else best

/-- What a search has done that has gone through a part of the tree, or halted in it. -/
structure Descended (candidates : Candidates α) (budget : Budget α) (exhaustive : Bool)
    (leaves : List (List α)) (size : Nat) (before : Progress α) (halt? : Option Halt)
    (after : Progress α) : Prop where
  through :
    halt? = none →
      after.best = leaves.foldl (keepBetter candidates) before.best ∧
        (exhaustive = false → leaves = [])
  found :
    halt? = some .found →
      exhaustive = false ∧
        ∃ first, leaves.head? = some first ∧ after.best = keepBetter candidates before.best first
  nodes_le : after.nodes ≤ before.nodes + size
  isQuiet : before.watch.IsQuiet budget.timeLimit → after.watch.IsQuiet budget.timeLimit
  notInterrupted :
    before.watch.IsQuiet budget.timeLimit →
      before.nodes + size ≤ budget.maxIterations →
        ∀ interruption, halt? ≠ some (.interrupted interruption)

namespace Descended

variable {candidates : Candidates α} {budget : Budget α} {exhaustive : Bool}
  {leaves others : List (List α)} {size otherSize : Nat} {before middle after : Progress α}
  {halt? : Option Halt} {interruption? : Option Interruption} {watch : Watch α}

/-- A search that tries nothing goes through no leaf. -/
theorem nothing :
    Descended candidates budget exhaustive [] 0 before none before :=
  ⟨fun _ => ⟨rfl, fun _ => rfl⟩, nofun, Nat.le_refl _, id, fun _ _ => nofun⟩

/-- A search that is interrupted before its next value has gone through nothing. -/
theorem interrupted
    {interruption : Interruption}
    (outcome : budget.interruption before.nodes before.watch = (some interruption, watch))
    (leaves : List (List α))
    (size : Nat) :
    Descended candidates budget exhaustive leaves (size + 1) before
      (some (.interrupted interruption)) { before with watch := watch } where
  through := nofun
  found := nofun
  nodes_le := Nat.le_add_right _ _
  isQuiet beforeQuiet := (beforeQuiet.of_interruption outcome).1
  notInterrupted beforeQuiet enough := by
    have none := (beforeQuiet.of_interruption outcome).2 (by omega)
    exact absurd none (Option.some_ne_none interruption)

/-- A value counts as tried before the search goes on below it. -/
theorem tried
    (outcome : budget.interruption before.nodes before.watch = (none, watch))
    (below : Descended candidates budget exhaustive leaves size
      { before with nodes := before.nodes + 1, watch := watch } halt? after) :
    Descended candidates budget exhaustive leaves (size + 1) before halt? after where
  through := below.through
  found := below.found
  nodes_le := by
    have belowLe := below.nodes_le
    dsimp only at belowLe
    omega
  isQuiet beforeQuiet := below.isQuiet (beforeQuiet.of_interruption outcome).1
  notInterrupted beforeQuiet enough :=
    below.notInterrupted (beforeQuiet.of_interruption outcome).1 (by dsimp only; omega)

/-- A part of the tree that is cut off has no leaves. -/
theorem cut
    (below : Descended candidates budget exhaustive [] size before halt? after)
    (otherSize : Nat) :
    Descended candidates budget exhaustive [] (size + otherSize) before halt? after where
  through := below.through
  found := below.found
  nodes_le := le_trans below.nodes_le (by omega)
  isQuiet := below.isQuiet
  notInterrupted beforeQuiet enough := below.notInterrupted beforeQuiet (by omega)

/-- A search that halts in a part of the tree has not gone through what is behind it. -/
theorem halted
    {halt : Halt}
    (first : Descended candidates budget exhaustive leaves size before (some halt) after)
    (others : List (List α))
    (otherSize : Nat) :
    Descended candidates budget exhaustive (leaves ++ others) (size + otherSize) before
      (some halt) after where
  through := nofun
  found isFound := by
    obtain ⟨notExhaustive, leaf, isHead, isBest⟩ := first.found isFound
    exact ⟨notExhaustive, leaf, by simp [List.head?_append, isHead], isBest⟩
  nodes_le := le_trans first.nodes_le (by omega)
  isQuiet := first.isQuiet
  notInterrupted beforeQuiet enough := first.notInterrupted beforeQuiet (by omega)

/-- After a part of the tree a search goes through what is behind it. -/
theorem next
    (first : Descended candidates budget exhaustive leaves size before none middle)
    (second : Descended candidates budget exhaustive others otherSize middle halt? after) :
    Descended candidates budget exhaustive (leaves ++ others) (size + otherSize) before halt?
      after where
  through isThrough := by
    obtain ⟨isMiddle, noneFirst⟩ := first.through rfl
    obtain ⟨isBest, noneSecond⟩ := second.through isThrough
    rw [List.foldl_append, ← isMiddle]
    exact ⟨isBest, fun notExhaustive => by rw [noneFirst notExhaustive, noneSecond notExhaustive,
      List.append_nil]⟩
  found isFound := by
    obtain ⟨isMiddle, noneFirst⟩ := first.through rfl
    obtain ⟨notExhaustive, leaf, isHead, isBest⟩ := second.found isFound
    have noneBefore := noneFirst notExhaustive
    subst noneBefore
    rw [List.foldl_nil] at isMiddle
    exact ⟨notExhaustive, leaf, isHead, isMiddle ▸ isBest⟩
  nodes_le := by
    have firstLe := first.nodes_le
    have secondLe := second.nodes_le
    omega
  isQuiet beforeQuiet := second.isQuiet (first.isQuiet beforeQuiet)
  notInterrupted beforeQuiet enough :=
    second.notInterrupted (first.isQuiet beforeQuiet) (by
      have firstLe := first.nodes_le
      omega)

end Descended

variable {candidates : Candidates α} {budget : Budget α} {exhaustive : Bool}

omit [Scalar α] in
theorem isNumeric_assignmentOf
    (chosen : List (Level α × α)) :
    (assignmentOf chosen).IsNumeric :=
  Assignment.isNumeric_ofList chosen (·.1.name) (·.2)

/-- Checks that are tame pass or fail. -/
theorem consistent_eq_ok
    {assignment : Assignment α}
    {checks : List (Constraint α)}
    (isNumeric : assignment.IsNumeric)
    (areTame : ∀ constraint ∈ checks, constraint.rule.IsTame)
    (tolerance : α) :
    consistent tolerance assignment checks =
      .ok (Constraints.satisfied tolerance assignment checks) := by
  have isContained : Contained (Constraints.feasible tolerance assignment checks) :=
    Constraints.contained_feasible areTame isNumeric
  unfold consistent Constraints.satisfied
  cases isOutcome : Constraints.feasible tolerance assignment checks with
  | ok verdict => rfl
  | error failure =>
      cases failure with
      | rejected error => rfl
      | broken breakdown => exact absurd isOutcome (isContained breakdown)

/-- At a leaf the better vector is kept. -/
theorem exists_record_eq_ok
    (isTame : candidates.problem.IsTame)
    (someObjective : candidates.problem.objectives ≠ [])
    (vector : List α)
    (progress : Progress α) :
    ∃ after,
      record candidates vector progress = .ok after ∧
        after.best = keepBetter candidates progress.best vector ∧
        after.nodes = progress.nodes ∧
        (∀ timeLimit, progress.watch.IsQuiet timeLimit → after.watch.IsQuiet timeLimit) := by
  obtain ⟨evaluation, isEvaluation, isScore⟩ := candidates.exists_evaluate_eq_ok isTame vector
  obtain ⟨value, isValue⟩ := candidates.exists_traceValue_eq_ok someObjective evaluation.score
  rw [isScore] at isValue
  simp only [record, isEvaluation, improves, keepBetter, isScore, bind, Except.bind,
    decide_eq_true_eq]
  by_cases isBetter :
      (progress.best.map (·.2)).getD (-Scalar.infinity) < candidates.scoreOf vector
  · simp only [isBetter, ↓reduceIte, isValue, pure, Except.pure]
    exact ⟨_, rfl, rfl, rfl, fun _ isQuiet => isQuiet.lookAtClock⟩
  · simp only [isBetter, ↓reduceIte]
    exact ⟨progress, rfl, rfl, rfl, fun _ => id⟩

/-- Trying values one after the other goes through what there is below each of them. -/
theorem exists_tryEach_descended
    {attempt : α → Progress α → Except Breakdown (Option Halt × Progress α)}
    {leavesOf : α → List (List α)}
    {size : Nat}
    (each : ∀ value before, ∃ halt? after,
      attempt value before = .ok (halt?, after) ∧
        Descended candidates budget exhaustive (leavesOf value) size before halt? after)
    (values : List α)
    (progress : Progress α) :
    ∃ halt? after,
      tryEach attempt values progress = .ok (halt?, after) ∧
        Descended candidates budget exhaustive (values.flatMap leavesOf) (values.length * size)
          progress halt? after := by
  induction values generalizing progress with
  | nil =>
      exact ⟨none, progress, rfl, by simpa using .nothing⟩
  | cons value values inductionHypothesis =>
      have sameSize : (value :: values).length * size = size + values.length * size := by
        rw [List.length_cons, Nat.succ_mul, Nat.add_comm]
      rw [List.flatMap_cons, sameSize]
      obtain ⟨halt?, middle, attempted, first⟩ := each value progress
      cases halt? with
      | some halt =>
          exact ⟨some halt, middle, by simp [tryEach, attempted, bind, Except.bind]; rfl,
            first.halted _ _⟩
      | none =>
          obtain ⟨halt?, after, others, second⟩ := inductionHypothesis middle
          exact ⟨halt?, after, by simp [tryEach, attempted, others, bind, Except.bind],
            first.next second⟩

/-- The search goes through the leaves that no check cuts off. -/
theorem exists_descend_descended
    (budget : Budget α)
    (exhaustive : Bool)
    (isTame : candidates.problem.IsTame)
    (someObjective : candidates.problem.objectives ≠ [])
    {levels : List (Level α)}
    (areTame : ∀ level ∈ levels, ∀ constraint ∈ level.checks, constraint.rule.IsTame)
    (chosen : List (Level α × α))
    (progress : Progress α) :
    ∃ halt? after,
      descend candidates budget exhaustive levels chosen progress = .ok (halt?, after) ∧
        Descended candidates budget exhaustive (survivors candidates levels chosen)
          (treeSize levels) progress halt? after := by
  induction levels generalizing chosen progress with
  | nil =>
      obtain ⟨after, recorded, isBest, sameNodes, staysQuiet⟩ :=
        exists_record_eq_ok isTame someObjective (vectorOf candidates.size chosen) progress
      simp only [descend, recorded, bind, Except.bind, pure, Except.pure]
      cases exhaustive with
      | true =>
          exact ⟨none, after, rfl, fun _ => ⟨isBest, nofun⟩, nofun, sameNodes.le,
            staysQuiet budget.timeLimit, fun _ _ => nofun⟩
      | false =>
          exact ⟨some .found, after, rfl, nofun, fun _ => ⟨rfl, _, rfl, isBest⟩,
            sameNodes.le, staysQuiet budget.timeLimit, fun _ _ => nofun⟩
  | cons level deeper inductionHypothesis =>
      rw [List.forall_mem_cons] at areTame
      obtain ⟨checksTame, deeperTame⟩ := areTame
      apply exists_tryEach_descended
      intro value before
      cases outcome : budget.interruption before.nodes before.watch with
      | mk interruption? watch =>
          cases interruption? with
          | some interruption =>
              exact ⟨_, _, rfl, .interrupted outcome _ _⟩
          | none =>
              have checked :=
                consistent_eq_ok (isNumeric_assignmentOf (chosen ++ [(level, value)])) checksTame
                  candidates.tolerance
              cases passes :
                  Constraints.satisfied candidates.tolerance
                    (assignmentOf (chosen ++ [(level, value)])) level.checks with
              | true =>
                  rw [passes] at checked
                  obtain ⟨halt?, after, descended, below⟩ :=
                    inductionHypothesis deeperTame (chosen ++ [(level, value)])
                      { before with nodes := before.nodes + 1, watch := watch }
                  refine ⟨halt?, after, ?_, ?_⟩
                  · simp [checked, descended, bind, Except.bind]
                  · simpa using below.tried outcome
              | false =>
                  rw [passes] at checked
                  refine ⟨none, { before with nodes := before.nodes + 1, watch := watch }, ?_, ?_⟩
                  · simp [checked, bind, Except.bind, pure, Except.pure]
                  · simpa using (Descended.nothing.cut (treeSize deeper)).tried outcome

end Backtracking

end Optima
