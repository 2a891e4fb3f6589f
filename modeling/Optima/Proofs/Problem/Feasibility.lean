import Optima.Problem.Feasibility
import Optima.Proofs.Problem.Evaluation
import Optima.Proofs.Scalar.Comparison
import Optima.Proofs.Scalar.Extended
import Optima.Search.Candidates

namespace Optima

/-!
# Violations and feasibility

Violations are added up, and an assignment without any is feasible.
-/

section Violations

/-!
## Violations are not negative

A violation is a sum of magnitudes none of which is negative, so it is a number that
compares with every other violation, whatever values the constraints have: where one of
them is NaN, nothing is added.
-/

/-- Numbers in which what is not negative adds up to what is not negative. -/
class MeasuringScalar (α : Type) [Scalar α] : Prop extends NumericScalar α where
  isNaN_zero : Scalar.isNaN (0 : α) = false
  zero_le_infinity : (0 : α) ≤ Scalar.infinity
  zero_le_strictStep : (0 : α) ≤ Constraint.strictStep
  add_nonneg (first second : α) : 0 ≤ first → 0 ≤ second → 0 ≤ first + second

instance : MeasuringScalar Extended where
  isNaN_zero := rfl
  zero_le_infinity := by
    decide +kernel
  zero_le_strictStep := by
    decide +kernel
  add_nonneg _ _ := add_nonneg

variable {α : Type} [Scalar α] [MeasuringScalar α]

theorem MeasuringScalar.zero_le_zero :
    (0 : α) ≤ 0 :=
  NumericScalar.le_self MeasuringScalar.isNaN_zero

theorem Constraint.magnitudeOf_nonneg
    (constraint : Constraint α)
    (tolerance value : α) :
    0 ≤ constraint.magnitudeOf tolerance value := by
  unfold Constraint.magnitudeOf
  dsimp only
  split
  · exact MeasuringScalar.zero_le_strictStep
  · unfold Scalar.larger
    split
    · rename_i isPositive
      exact ComparableScalar.le_of_lt isPositive
    · exact MeasuringScalar.zero_le_zero

theorem Constraint.violation_nonneg
    {constraint : Constraint α}
    {tolerance magnitude : α}
    {assignment : Assignment α}
    (isMagnitude : constraint.violation tolerance assignment = .ok magnitude) :
    0 ≤ magnitude := by
  rw [Constraint.violation] at isMagnitude
  cases isValue : constraint.evaluate assignment with
  | error failure =>
      rw [isValue] at isMagnitude
      cases isMagnitude
  | ok value =>
      rw [isValue] at isMagnitude
      cases isMagnitude
      exact constraint.magnitudeOf_nonneg tolerance value

theorem Constraints.nonneg_of_totalFrom_eq_ok
    {tolerance start total : α}
    {assignment : Assignment α}
    {constraints : List (Constraint α)}
    (isStart : 0 ≤ start)
    (isTotal : totalFrom tolerance assignment start constraints = .ok total) :
    0 ≤ total := by
  induction constraints generalizing start with
  | nil =>
      cases isTotal
      exact isStart
  | cons constraint rest inductionHypothesis =>
      obtain ⟨magnitude, isMagnitude, isTotal⟩ := bind_eq_ok isTotal
      exact inductionHypothesis
        (MeasuringScalar.add_nonneg _ _ isStart (Constraint.violation_nonneg isMagnitude)) isTotal

/-- No vector has a negative violation. -/
theorem Candidates.violation_nonneg
    {candidates : Candidates α}
    {vector : List α}
    {evaluation : Evaluation α}
    (isEvaluation : candidates.evaluate vector = .ok evaluation) :
    0 ≤ evaluation.violation := by
  unfold Candidates.evaluate at isEvaluation
  split at isEvaluation
  · rename_i worth isWorth
    cases isEvaluation
    obtain ⟨values, -, isWorth⟩ := bind_eq_ok isWorth
    obtain ⟨violation, isViolation, isWorth⟩ := bind_eq_ok isWorth
    cases isWorth
    exact Constraints.nonneg_of_totalFrom_eq_ok MeasuringScalar.zero_le_zero isViolation
  · cases isEvaluation
    exact MeasuringScalar.zero_le_infinity
  · cases isEvaluation

/-- Of two candidates one of which does not dominate the other, the other violates no more. -/
theorem Standing.violation_le_of_not_dominates
    {one other : Standing α}
    (isMeasured : 0 ≤ one.violation)
    (isMeasuredToo : 0 ≤ other.violation)
    (notDominated : ¬ one.dominates other = true) :
    other.violation ≤ one.violation := by
  cases isFeasibleToo : other.isFeasible with
  | true =>
      have isZero := (NumericScalar.beq_iff_le other.violation 0).mp isFeasibleToo
      exact ComparableScalar.le_trans _ _ _ isZero.1 isMeasured
  | false =>
      cases isFeasible : one.isFeasible with
      | true =>
          exact absurd (by simp [dominates, isFeasible, isFeasibleToo]) notDominated
      | false =>
          have notLess : ¬ one.violation < other.violation := by
            simpa [dominates, isFeasible, isFeasibleToo] using notDominated
          exact NumericScalar.le_of_not_lt _ _ (NumericScalar.isNaN_right isMeasuredToo)
            (NumericScalar.isNaN_right isMeasured) notLess

end Violations

/-!
## What violates nothing

An assignment is found to violate nothing in three ways: no violation of it is listed, the
sum of its violations is zero, or each constraint holds.  As no violation is negative, none
of them is hidden by another one, and the three are the same.
-/

/-- Numbers of which two that are not negative add up to zero only where both are zero. -/
class SummingScalar (α : Type) [Scalar α] : Prop extends MeasuringScalar α where
  infinity_beq_zero : ((Scalar.infinity : α) == 0) = false
  beq_zero_of_add (first second : α) :
    0 ≤ first → 0 ≤ second → (first + second == 0) = true →
      (first == 0) = true ∧ (second == 0) = true

instance : SummingScalar Extended where
  infinity_beq_zero := by
    decide
  beq_zero_of_add first second isFirst isSecond isZero := by
    have isZero : first + second = 0 := of_decide_eq_true isZero
    have atMost : first ≤ 0 := isZero ▸ le_add_of_nonneg_right isSecond
    have atMostToo : second ≤ 0 := isZero ▸ le_add_of_nonneg_left isFirst
    exact ⟨decide_eq_true (le_antisymm atMost isFirst),
      decide_eq_true (le_antisymm atMostToo isSecond)⟩

variable {α : Type} [Scalar α] {tolerance : α} {assignment : Assignment α}
  {constraints : List (Constraint α)}

namespace Constraints

/-- No violation is listed exactly where each constraint holds. -/
theorem violations_eq_nil_iff
    [MeasuringScalar α] :
    violations tolerance assignment constraints = .ok [] ↔
      AllHold tolerance assignment constraints := by
  induction constraints with
  | nil =>
      simp [violations, AllHold]
  | cons constraint rest inductionHypothesis =>
      rw [AllHold, List.forall_mem_cons]
      change _ ↔ _ ∧ AllHold tolerance assignment rest
      rw [← inductionHypothesis, violations, Constraint.HoldsOn]
      cases isMagnitude : constraint.violation tolerance assignment with
      | error failure => simp [bind, Except.bind]
      | ok magnitude =>
          have notNegative := Constraint.violation_nonneg isMagnitude
          have isZero_iff := NumericScalar.beq_iff_not_lt notNegative
          cases violations tolerance assignment rest with
          | error failure => simp [bind, Except.bind]
          | ok missed =>
              simp only [bind, Except.bind, pure, Except.pure, Except.ok.injEq, exists_eq_left',
                isZero_iff]
              split
              · rename_i isPositive
                simp [isPositive]
              · rename_i notPositive
                simp [notPositive]

/-- Where violations add up to zero, each constraint holds. -/
theorem allHold_of_totalFrom_eq_ok
    [SummingScalar α]
    {start total : α}
    (isStart : 0 ≤ start)
    (isTotal : totalFrom tolerance assignment start constraints = .ok total)
    (isZero : (total == 0) = true) :
    (start == 0) = true ∧ AllHold tolerance assignment constraints := by
  induction constraints generalizing start with
  | nil =>
      cases isTotal
      exact ⟨isZero, nofun⟩
  | cons constraint rest inductionHypothesis =>
      obtain ⟨magnitude, isMagnitude, isTotal⟩ := bind_eq_ok isTotal
      have notNegative := Constraint.violation_nonneg isMagnitude
      obtain ⟨isZeroSum, restHolds⟩ :=
        inductionHypothesis (MeasuringScalar.add_nonneg _ _ isStart notNegative) isTotal
      obtain ⟨isZeroStart, isZeroHere⟩ :=
        SummingScalar.beq_zero_of_add _ _ isStart notNegative isZeroSum
      refine ⟨isZeroStart, ?_⟩
      rw [AllHold, List.forall_mem_cons]
      exact ⟨⟨magnitude, isMagnitude, isZeroHere⟩, restHolds⟩

end Constraints

namespace Candidates

variable {candidates : Candidates α} {vector : List α}

/-- A vector that is worth something feasible violates no constraint. -/
theorem allHold_of_isFeasible
    [SummingScalar α]
    {evaluation : Evaluation α}
    (isEvaluation : candidates.evaluate vector = .ok evaluation)
    (isFeasible : evaluation.isFeasible = true) :
    Constraints.AllHold candidates.tolerance (candidates.assignment vector)
      candidates.problem.constraints := by
  unfold evaluate at isEvaluation
  split at isEvaluation
  · rename_i worth isWorth
    cases isEvaluation
    obtain ⟨values, -, isWorth⟩ := bind_eq_ok isWorth
    obtain ⟨violation, isViolation, isWorth⟩ := bind_eq_ok isWorth
    cases isWorth
    exact (Constraints.allHold_of_totalFrom_eq_ok MeasuringScalar.zero_le_zero isViolation
      isFeasible).2
  · cases isEvaluation
    rw [Evaluation.isFeasible, worst, SummingScalar.infinity_beq_zero] at isFeasible
    cases isFeasible
  · cases isEvaluation

/-- A vector that violates no constraint has no violation listed. -/
theorem violations_eq_nil
    [MeasuringScalar α]
    (allHold :
      Constraints.AllHold candidates.tolerance (candidates.assignment vector)
        candidates.problem.constraints) :
    candidates.violations vector = .ok [] := by
  rw [violations, Constraints.violations_eq_nil_iff.mpr allHold]

end Candidates

end Optima
