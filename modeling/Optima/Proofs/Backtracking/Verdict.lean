import Optima.Proofs.Backtracking.Budget
import Optima.Proofs.Backtracking.Outcome
import Optima.Proofs.Search.Verdict

namespace Optima

/-!
# What a depth-first search keeps

Whatever a search has kept when it ends, for whichever reason it ends, is a vector of the grid
that no check has cut off.  Such a vector violates nothing, and the points of a grid are numbers
that the variables have.
-/

namespace Grid

variable {α : Type} [Scalar α] [CountingScalar α] {decision : Variable α}
  {defaultBounds interval : α × α} {value : α}

theorem isCode_lower
    (faultless : decision.fault? = none)
    (isTightened : decision.IsTightened defaultBounds interval) :
    decision.IsCode interval.1 := by
  refine ⟨fun isDiscrete _ => ?_, fun isCategorical _ => ?_⟩
  · by_cases isCategorical : decision.kind = .categorical
    · rw [isTightened.isListed isCategorical, Variable.declaredBounds, isCategorical]
      exact Scalar.isWhole_zero
    · exact (isTightened.isWhole isDiscrete isCategorical).1
  · rw [isTightened.isListed isCategorical, Variable.declaredBounds, isCategorical]
    exact ⟨NumericScalar.le_self (Scalar.isNaN_of_isFinite Scalar.isWhole_zero.isFinite),
      Variable.zero_le_lastPosition faultless isCategorical⟩

/-- Points that are rounded to whole numbers of an interval are numbers that the variable has. -/
theorem isCode_of_mem_pointsWithin
    (isTightened : decision.IsTightened defaultBounds interval)
    {points : List α}
    (member : value ∈ pointsWithin interval.1 interval.2 (points.map Scalar.nearest)) :
    decision.IsCode value := by
  obtain ⟨inPoints, isWithin⟩ := List.mem_filter.mp (Scalar.mem_of_mem_distinct member)
  obtain ⟨point, -, rfl⟩ := List.mem_map.mp inPoints
  refine ⟨fun _ isFinite => Variable.isWhole_of_isFinite_nearest isFinite,
    fun isCategorical _ => ?_⟩
  rw [isTightened.isListed isCategorical] at isWithin
  simpa [Scalar.within, Variable.declaredBounds, isCategorical] using isWithin

/-- Whole numbers counted up from the lower end of an interval are numbers that the variable
has. -/
theorem isCode_of_mem_wholeRun
    (faultless : decision.fault? = none)
    (isTightened : decision.IsTightened defaultBounds interval)
    (member : value ∈ wholeRun interval.1 interval.2) :
    decision.IsCode value := by
  obtain ⟨index, inRange, rfl⟩ := List.mem_map.mp member
  have inRange := List.mem_range.mp inRange
  refine ⟨fun isDiscrete isFinite => ?_, fun isCategorical _ => ?_⟩
  · refine CountingScalar.isWhole_add _ _ ?_ (Variable.isWhole_ofInt _) isFinite
    by_cases isCategorical : decision.kind = .categorical
    · rw [isTightened.isListed isCategorical, Variable.declaredBounds, isCategorical]
      exact Scalar.isWhole_zero
    · exact (isTightened.isWhole isDiscrete isCategorical).1
  · obtain ⟨last, isLast⟩ : ∃ last : Nat, (decision.categoryNames.length - 1 : Int) = last :=
      Int.eq_ofNat_of_zero_le (by
        have someCategory : 0 < decision.categoryNames.length :=
          List.length_pos_iff.mpr (Variable.nodup_categoryNames faultless isCategorical).1
        omega)
    simp only [isTightened.isListed isCategorical, Variable.declaredBounds, isCategorical, isLast]
      at inRange ⊢
    cases isCount : Scalar.toRat? (Scalar.ceiling (Scalar.ofInt last + 1 - 0 : α)) with
    | none => simp [isCount] at inRange
    | some count =>
        simp only [isCount, Option.map_some, Option.getD_some] at inRange
        exact CountingScalar.zero_add_ofInt_between last index count isCount (by omega)

/-- The values to be tried of a variable are numbers that it has. -/
theorem isCode_of_mem_domain
    (faultless : decision.fault? = none)
    (isTightened : decision.IsTightened defaultBounds interval)
    {candidates : Candidates α}
    {steps : Nat}
    {grid : List α}
    (isGrid : domain candidates steps decision interval = .ok grid)
    (member : value ∈ grid) :
    decision.IsCode value := by
  unfold domain at isGrid
  dsimp only at isGrid
  split at isGrid
  · cases isGrid
    rw [List.mem_singleton.mp member]
    exact isCode_lower faultless isTightened
  · split at isGrid
    · rename_i isContinuous
      exact ⟨by simp [Variable.isDiscrete, isContinuous], by simp [isContinuous]⟩
    · split at isGrid
      · obtain ⟨thresholds, -, isGrid⟩ := bind_eq_ok isGrid
        cases isGrid
        exact isCode_of_mem_pointsWithin isTightened member
      · cases isGrid
        exact isCode_of_mem_wholeRun faultless isTightened member

end Grid

namespace Backtracking

variable {α : Type} [Scalar α] {γ : Type} [SeededSource γ α] {problem : Problem α}
  {parameters : BacktrackingParameters α} {candidates : Candidates α} {budget : Budget α}
  {exhaustive : Bool} {levels : List (Level α)} {chosen : List (Level α × α)}
  {halt? : Option Halt} {progress after : Progress α} {vector : List α}

/-- A vector that is kept has been kept before, or is one of a list. -/
def KeepsOneOf (vectors : List (List α)) (before after : Progress α) : Prop :=
  ∀ vector score,
    after.best = some (vector, score) →
      before.best = some (vector, score) ∨ vector ∈ vectors

theorem keepsOneOf_of_record_eq_ok
    (isRecorded : record candidates vector progress = .ok after) :
    KeepsOneOf [vector] progress after := by
  unfold record at isRecorded
  obtain ⟨evaluation, -, isRecorded⟩ := bind_eq_ok isRecorded
  split at isRecorded
  · obtain ⟨value, -, isRecorded⟩ := bind_eq_ok isRecorded
    cases isRecorded
    rintro kept score ⟨⟩
    exact .inr (List.mem_singleton.mpr rfl)
  · cases isRecorded
    exact fun kept score isBest => .inl isBest

/-- A value that is found consistent passes all checks. -/
theorem satisfied_of_consistent_eq_ok_true
    {tolerance : α}
    {assignment : Assignment α}
    {checks : List (Constraint α)}
    (isConsistent : consistent tolerance assignment checks = .ok true) :
    Constraints.satisfied tolerance assignment checks = true := by
  unfold consistent at isConsistent
  unfold Constraints.satisfied
  split at isConsistent
  · rename_i verdict isVerdict
    rw [isVerdict]
    exact Except.ok.inj isConsistent
  · cases isConsistent
  · cases isConsistent

/-- A descent keeps only what no check on the way cuts off. -/
theorem keepsOneOf_survivors
    (descended :
      descend candidates budget exhaustive levels chosen progress = .ok (halt?, after)) :
    KeepsOneOf (survivors candidates levels chosen) progress after := by
  induction levels generalizing chosen progress halt? after with
  | nil =>
      unfold descend at descended
      obtain ⟨recorded, isRecorded, descended⟩ := bind_eq_ok descended
      cases descended
      exact keepsOneOf_of_record_eq_ok isRecorded
  | cons level deeper inductionHypothesis =>
      unfold descend at descended
      refine of_tryEach_eq_ok
        (fun _ => KeepsOneOf (survivors candidates (level :: deeper) chosen) progress) ?_
        (fun _ _ => .inl) descended
      intro value inDomain before halt? after keepsBefore attempted
      cases outcome : budget.interruption before.nodes before.watch with
      | mk interruption? looked =>
          simp only [outcome] at attempted
          cases interruption? with
          | some interruption =>
              cases attempted
              exact keepsBefore
          | none =>
              obtain ⟨verdict, isVerdict, attempted⟩ := bind_eq_ok attempted
              split at attempted
              · rename_i isConsistent
                subst isConsistent
                have isSatisfied := satisfied_of_consistent_eq_ok_true isVerdict
                intro kept score isBest
                rcases inductionHypothesis attempted kept score isBest with wasKept | isBelow
                · exact keepsBefore kept score wasKept
                · right
                  rw [survivors, List.mem_flatMap]
                  exact ⟨value, inDomain, by rwa [if_pos isSatisfied]⟩
              · cases attempted
                exact keepsBefore

omit [Scalar α] in
theorem not_isPositive_missedStatus
    (halt? : Option Halt) :
    ¬ (missedStatus halt?).IsPositive := by
  unfold missedStatus
  split <;> exact id

variable [CountingScalar α]

/-- The components of a vector of the grid are numbers that the variables have. -/
theorem IsSetUp.areCodes
    {source : γ}
    {grids : List (List α)}
    (isSetUp : IsSetUp problem parameters candidates source grids)
    (distinct : problem.variableNames.Nodup)
    (faultless : ∀ decision ∈ problem.decisions, decision.fault? = none)
    (inProduct : Grid.InProduct grids vector) :
    candidates.AreCodes vector := by
  have areTightened := Candidates.isTightened_intervalOf distinct faultless isSetUp.prepared
  obtain ⟨sameLength, inGrids⟩ := forall₂_iff_getElem?.mp inProduct
  refine forall₂_iff_getElem?.mpr ⟨?_, fun position decision value isDecision isValue => ?_⟩
  · rw [sameLength, isSetUp.length_grids, Candidates.size]
  · have inProblem := List.mem_of_getElem? isDecision
    have inRange : position < grids.length :=
      sameLength ▸ (List.getElem?_eq_some_iff.mp isValue).1
    have isGrid := List.getElem?_eq_getElem inRange
    have isDecisionToo := isDecision
    rw [isSetUp.problem_eq] at isDecisionToo
    exact Grid.isCode_of_mem_domain
      (faultless decision (List.mem_of_getElem? isDecisionToo))
      (areTightened decision inProblem) (isSetUp.domain_eq isDecisionToo isGrid)
      (inGrids position value _ isValue isGrid)

variable [SummingScalar α]

/-- A search with a positive status has a vector that violates nothing. -/
theorem exists_vector_of_search_eq_ok
    {watch : Watch α}
    {ending : Ending α}
    (distinct : problem.variableNames.Nodup)
    (faultless : ∀ decision ∈ problem.decisions, decision.fault? = none)
    (areExtensional : ∀ constraint ∈ problem.constraints, constraint.rule.IsExtensional)
    (prepared :
      Candidates.ofProblem problem parameters.defaultBounds parameters.tolerance = .ok candidates)
    (searched : search γ candidates parameters watch = .ok ending)
    (isPositive : ending.status.IsPositive) :
    ∃ vector,
      ending.vector = some vector ∧
        candidates.AreCodes vector ∧
        Constraints.AllHold candidates.tolerance (candidates.assignment vector)
          candidates.problem.constraints := by
  unfold search at searched
  split at searched
  · cases searched
    exact isPositive.elim
  · rename_i isConsistent
    obtain ⟨source, seeded, searched⟩ := bind_eq_ok searched
    obtain ⟨levels, areLevels, searched⟩ := bind_eq_ok searched
    split at searched
    · rename_i noVariable
      have searched := mapError_eq_ok searched
      unfold Ending.withoutVariables at searched
      obtain ⟨evaluation, isEvaluation, searched⟩ := bind_eq_ok searched
      split at searched
      · rename_i isFeasible
        cases searched
        refine ⟨[], rfl, ?_, Candidates.allHold_of_isFeasible isEvaluation isFeasible⟩
        rw [Candidates.AreCodes, List.length_eq_zero_iff.mp noVariable]
        exact .nil
      · cases searched
        exact isPositive.elim
    · rename_i someVariable
      obtain ⟨⟨halt?, progress⟩, descended, searched⟩ := bind_eq_ok searched
      cases searched
      cases isBest : progress.best with
      | none =>
          simp only [Ending.ofSearch, isBest] at isPositive
          exact absurd isPositive (not_isPositive_missedStatus halt?)
      | some best =>
          obtain ⟨vector, score⟩ := best
          have nonempty : candidates.problem.decisions ≠ [] := by
            simpa [Candidates.size] using someVariable
          obtain ⟨grids, areGrids, laid⟩ :=
            exists_grids_laid (settled_eq_ok areLevels) nonempty
          have isSetUp : IsSetUp problem parameters candidates source grids :=
            ⟨prepared, by simpa using isConsistent, mapError_eq_ok seeded, areGrids⟩
          obtain rfl := isSetUp.problem_eq
          rcases keepsOneOf_survivors (mapError_eq_ok descended) vector score isBest with
            isStart | survives
          · cases isStart
          · rw [laid.survivors_eq distinct areExtensional, List.mem_filter,
              laid.mem_visits_iff_inProduct isSetUp.length_grids, Candidates.satisfies_iff]
              at survives
            exact ⟨vector, by simp [Ending.ofSearch, isBest],
              isSetUp.areCodes distinct faultless survives.1, survives.2⟩

/-- A solve with a positive status solves the problem. -/
theorem isSolvedBy_of_solve_eq_ok
    {watch : Watch α}
    {outcome : Solution α}
    (distinct : problem.variableNames.Nodup)
    (faultless : ∀ decision ∈ problem.decisions, decision.fault? = none)
    (areExtensional : ∀ constraint ∈ problem.constraints, constraint.rule.IsExtensional)
    (solved : solve γ problem parameters watch = .ok outcome)
    (isPositive : outcome.status.IsPositive) :
    problem.IsSolvedBy parameters.defaultBounds parameters.tolerance outcome := by
  obtain ⟨candidates, prepared, solved⟩ := bind_eq_ok solved
  obtain ⟨ending, searched, told⟩ := bind_eq_ok solved
  obtain ⟨isStatus, -, -, ofVector⟩ := takes_of_solution_eq_ok told
  obtain ⟨vector, isVector, areCodes, allHold⟩ :=
    exists_vector_of_search_eq_ok distinct faultless areExtensional (settled_eq_ok prepared)
      searched (isStatus ▸ isPositive)
  obtain ⟨areValues, areViolations⟩ := ofVector vector isVector
  exact Problem.isSolvedBy_of_vector faultless (settled_eq_ok prepared) areValues areViolations
    areCodes.length_eq.symm (fun _ => areCodes) allHold

end Backtracking

end Optima
