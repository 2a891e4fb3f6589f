import Optima.Proofs.Problem.Agreement
import Optima.Proofs.Scalar.Difference

namespace Optima

/-!
# What a violation of zero means

A constraint is measured by the difference of the two sides of its comparison, and a difference that
is not above zero counts as none.  So the violation is zero where the comparison holds, and besides
where a difference says nothing: where one of the sides is NaN, and where a value meets an infinite
target that its comparison excludes.
-/

/-- Numbers by which constraints are judged: they are told apart by their difference, and the step
off an excluded target is not zero. -/
class JudgingScalar (α : Type) [Scalar α] : Prop extends
    MeasuringScalar α, SubtractingScalar α where
  strictStep_beq_zero : ((Constraint.strictStep : α) == 0) = false

instance : JudgingScalar Extended where
  strictStep_beq_zero := by
    decide +kernel

instance : JudgingScalar Float where
  strictStep_beq_zero := by
    decide +kernel

variable {α : Type} [Scalar α]

namespace Comparison

/-- A value is as a comparison asks for, up to a tolerance.  The strict comparisons ask for a
distance of one tolerance, and without tolerance for any distance. -/
def IsMet (comparison : Comparison) (value target own : α) : Prop :=
  match comparison with
  | .equal => Scalar.magnitude (value - target) ≤ own
  | .atMost => value ≤ target + own
  | .atLeast => target - own ≤ value
  | .below => if (own == 0) = true then value < target else value ≤ target - own
  | .above => if (own == 0) = true then target < value else target + own ≤ value

instance (comparison : Comparison) (value target own : α) :
    Decidable (comparison.IsMet value target own) :=
  match comparison with
  | .equal => inferInstanceAs (Decidable (Scalar.magnitude (value - target) ≤ own))
  | .atMost => inferInstanceAs (Decidable (value ≤ target + own))
  | .atLeast => inferInstanceAs (Decidable (target - own ≤ value))
  | .below =>
    inferInstanceAs (Decidable (if (own == 0) = true then value < target else value ≤ target - own))
  | .above =>
    inferInstanceAs (Decidable (if (own == 0) = true then target < value else target + own ≤ value))

end Comparison

namespace Constraint

/-- What the comparison of a constraint asks to be at most something else, and that. -/
def sides (constraint : Constraint α) (own value : α) : α × α :=
  match constraint.comparison with
  | .equal => (Scalar.magnitude (value - constraint.target), own)
  | .atMost => (value, constraint.target + own)
  | .atLeast => (constraint.target - own, value)
  | .below => (value, constraint.target - own)
  | .above => (constraint.target + own, value)

/-- A value is on a target that is excluded. -/
def IsOnExcluded (constraint : Constraint α) (own value : α) : Prop :=
  constraint.isStrict = true ∧ (own == 0) = true ∧ (value == constraint.target) = true

/-- A value is not as a constraint asks for, but its difference does not tell. -/
def IsMissedSilently (constraint : Constraint α) (own value : α) : Prop :=
  Scalar.isNaN (constraint.sides own value).1 = true ∨
    Scalar.isNaN (constraint.sides own value).2 = true ∨
      constraint.IsOnExcluded own value ∧ Scalar.isFinite value = false

variable {constraint : Constraint α} {tolerance own value : α}

theorem excess_eq_sub_sides
    (constraint : Constraint α)
    (own value : α) :
    constraint.excess own value =
      (constraint.sides own value).1 - (constraint.sides own value).2 := by
  rcases isComparison : constraint.comparison with _ | _ | _ | _ | _ <;>
    rw [excess, sides, isComparison]

variable [JudgingScalar α]

/-- The violation is zero where the excess is not above zero, unless an excluded target is what it
starts from. -/
theorem magnitudeOf_beq_zero_iff_excess
    (constraint : Constraint α)
    (tolerance value : α) :
    (constraint.magnitudeOf tolerance value == 0) = true ↔
      ¬ 0 < constraint.excess (constraint.toleranceOr tolerance) value ∧
        ¬ ((constraint.excess (constraint.toleranceOr tolerance) value == 0) = true ∧
          (constraint.toleranceOr tolerance == 0) = true ∧ constraint.isStrict = true) := by
  have isZero : ((0 : α) == 0) = true :=
    (NumericScalar.beq_iff_le _ _).mpr
      ⟨MeasuringScalar.zero_le_zero, MeasuringScalar.zero_le_zero⟩
  unfold magnitudeOf Scalar.larger
  dsimp only
  generalize constraint.excess (constraint.toleranceOr tolerance) value = beyond
  by_cases isOnExcluded : (beyond == 0 && constraint.toleranceOr tolerance == 0 &&
      constraint.isStrict) = true
  · rw [if_pos isOnExcluded, JudgingScalar.strictStep_beq_zero]
    simp only [Bool.and_eq_true, and_assoc] at isOnExcluded
    simp [isOnExcluded]
  · rw [if_neg isOnExcluded]
    simp only [Bool.and_eq_true, and_assoc] at isOnExcluded
    rw [and_iff_left isOnExcluded]
    split
    · rename_i isPositive
      have notZero := NumericScalar.beq_iff_not_lt (ComparableScalar.le_of_lt isPositive)
      simp [notZero, isPositive]
    · rename_i notPositive
      simp [isZero, notPositive]

theorem not_le_of_isNaN
    {first second : α}
    (isNaN : Scalar.isNaN first = true ∨ Scalar.isNaN second = true) :
    ¬ first ≤ second := by
  intro atMost
  rw [NumericScalar.isNaN_left atMost, NumericScalar.isNaN_right atMost] at isNaN
  rcases isNaN with isNaN | isNaN <;> cases isNaN

/-- What is not above something else is at most that, unless one of them is NaN. -/
theorem not_lt_iff
    (first second : α) :
    ¬ second < first ↔
      first ≤ second ∨ Scalar.isNaN first = true ∨ Scalar.isNaN second = true := by
  constructor
  · intro notAbove
    by_contra isNeither
    simp only [not_or, Bool.not_eq_true] at isNeither
    exact isNeither.1 (NumericScalar.le_of_not_lt _ _ isNeither.2.1 isNeither.2.2 notAbove)
  · rintro (atMost | isNaN) isAbove
    · exact ComparableScalar.not_le_of_lt isAbove atMost
    · exact not_le_of_isNaN isNaN.symm (ComparableScalar.le_of_lt isAbove)

/-- Numbers that are the same compare with others in the same way. -/
theorem le_congr_of_same
    {first second : α}
    (isSame : Scalar.same first second = true)
    (other : α) :
    (first ≤ other ↔ second ≤ other) ∧ (other ≤ first ↔ other ≤ second) := by
  simp only [Scalar.same, Bool.or_eq_true, Bool.and_eq_true, NumericScalar.beq_iff_le] at isSame
  rcases isSame with ⟨atMost, atLeast⟩ | ⟨isNaN, isNaNToo⟩
  · exact ⟨⟨ComparableScalar.le_trans _ _ _ atLeast, ComparableScalar.le_trans _ _ _ atMost⟩,
      ⟨(ComparableScalar.le_trans _ _ _ · atMost), (ComparableScalar.le_trans _ _ _ · atLeast)⟩⟩
  · exact ⟨iff_of_false (not_le_of_isNaN (.inl isNaN)) (not_le_of_isNaN (.inl isNaNToo)),
      iff_of_false (not_le_of_isNaN (.inr isNaN)) (not_le_of_isNaN (.inr isNaNToo))⟩

/-- A target that is moved by a tolerance of zero compares as before. -/
theorem le_congr_of_beq_zero
    (isZero : (own == 0) = true)
    (target value : α) :
    ((target - own ≤ value ↔ target ≤ value) ∧ (value ≤ target - own ↔ value ≤ target)) ∧
      (target + own ≤ value ↔ target ≤ value) ∧ (value ≤ target + own ↔ value ≤ target) :=
  ⟨le_congr_of_same (SubtractingScalar.same_sub_zero target own isZero) value,
    le_congr_of_same (SubtractingScalar.same_add_zero target own isZero) value⟩

/-- A comparison asks for its sides to be in order, strictly so where it excludes its target. -/
theorem isMet_iff
    (constraint : Constraint α)
    (own value : α) :
    constraint.comparison.IsMet value constraint.target own ↔
      if constraint.isStrict = true ∧ (own == 0) = true
        then (constraint.sides own value).1 < (constraint.sides own value).2
        else (constraint.sides own value).1 ≤ (constraint.sides own value).2 := by
  unfold Comparison.IsMet sides isStrict
  by_cases isZero : (own == 0) = true
  · have isMoved := le_congr_of_beq_zero isZero constraint.target value
    rcases isComparison : constraint.comparison with _ | _ | _ | _ | _ <;>
      simp [isZero, ComparableScalar.lt_iff_le_not_le, isMoved]
  · rcases isComparison : constraint.comparison with _ | _ | _ | _ | _ <;> simp [isZero]

/-- A value is on an excluded target where the sides of the comparison are equal. -/
theorem isOnExcluded_iff
    (constraint : Constraint α)
    (own value : α) :
    constraint.IsOnExcluded own value ↔
      (constraint.isStrict = true ∧ (own == 0) = true) ∧
        ((constraint.sides own value).1 == (constraint.sides own value).2) = true := by
  unfold IsOnExcluded sides isStrict
  by_cases isZero : (own == 0) = true
  · have isMoved := le_congr_of_beq_zero isZero constraint.target value
    rcases isComparison : constraint.comparison with _ | _ | _ | _ | _ <;>
      simp [isZero, NumericScalar.beq_iff_le, isMoved, and_comm]
  · simp [isZero]

/-- A value on an excluded target is finite where the sides of the comparison are. -/
theorem isFinite_side
    (constraint : Constraint α)
    (own value : α)
    (isStrict : constraint.isStrict = true)
    (areEqual : ((constraint.sides own value).1 == (constraint.sides own value).2) = true) :
    Scalar.isFinite (constraint.sides own value).1 = Scalar.isFinite value := by
  have isTurned := (NumericScalar.beq_iff_le _ _).mpr
    ((NumericScalar.beq_iff_le _ _).mp areEqual).symm
  have isSame := Bool.eq_iff_iff.mpr
    ⟨SubtractingScalar.isFinite_of_beq _ _ isTurned, SubtractingScalar.isFinite_of_beq _ _ areEqual⟩
  unfold Constraint.isStrict at isStrict
  unfold sides at isSame ⊢
  rcases isComparison : constraint.comparison with _ | _ | _ | _ | _ <;>
    simp_all

/-- The violation is zero where the comparison holds or is missed silently. -/
theorem magnitudeOf_beq_zero_iff_or
    (constraint : Constraint α)
    (tolerance value : α) :
    (constraint.magnitudeOf tolerance value == 0) = true ↔
        constraint.comparison.IsMet value constraint.target (constraint.toleranceOr tolerance) ∨
          constraint.IsMissedSilently (constraint.toleranceOr tolerance) value := by
  rw [magnitudeOf_beq_zero_iff_excess, excess_eq_sub_sides, SubtractingScalar.sub_pos_iff,
    SubtractingScalar.sub_beq_zero_iff, not_lt_iff, isMet_iff, IsMissedSilently, isOnExcluded_iff]
  have isSide := isFinite_side constraint (constraint.toleranceOr tolerance) value
  generalize constraint.sides (constraint.toleranceOr tolerance) value = sides at *
  by_cases isExcluding : constraint.isStrict = true ∧ (constraint.toleranceOr tolerance == 0) = true
  · have isSide := isSide isExcluding.1
    rw [if_pos isExcluding, and_iff_left isExcluding.symm, and_iff_right isExcluding]
    rw [NumericScalar.beq_iff_le] at isSide ⊢
    by_cases atMost : sides.1 ≤ sides.2
    · have areNumbers := NumericScalar.isNaN_eq_false_of_le _ _ atMost
      by_cases atLeast : sides.2 ≤ sides.1
      · simp [ComparableScalar.lt_iff_le_not_le, atMost, atLeast, areNumbers,
          isSide ⟨atMost, atLeast⟩]
      · simp [ComparableScalar.lt_iff_le_not_le, atMost, atLeast]
    · simp [ComparableScalar.lt_iff_le_not_le, atMost]
  · rw [if_neg isExcluding, and_iff_left fun isOnExcluded => isExcluding isOnExcluded.2.symm]
    simp only [isExcluding, false_and, or_false]

/-- What is missed silently is not as the constraint asks for. -/
theorem not_isMet_of_isMissedSilently
    (isMissed : constraint.IsMissedSilently own value) :
    ¬ constraint.comparison.IsMet value constraint.target own := by
  rw [IsMissedSilently, isOnExcluded_iff] at isMissed
  rw [isMet_iff]
  rcases or_assoc.mpr isMissed with isNaN | ⟨⟨isExcluding, areEqual⟩, -⟩
  · split
    · exact fun isBelow => not_le_of_isNaN isNaN (ComparableScalar.le_of_lt isBelow)
    · exact not_le_of_isNaN isNaN
  · rw [if_pos isExcluding]
    exact fun isBelow => ComparableScalar.not_le_of_lt isBelow
      ((NumericScalar.beq_iff_le _ _).mp areEqual).2

theorem isMissedSilently_of_isNaN
    (constraint : Constraint α)
    (own : α)
    (isNaN : Scalar.isNaN value = true) :
    constraint.IsMissedSilently own value := by
  unfold IsMissedSilently sides
  cases constraint.comparison with
  | equal =>
      refine .inl ?_
      rw [SubtractingScalar.isNaN_magnitude]
      exact SubtractingScalar.isNaN_sub_of_isNaN _ _ isNaN
  | atMost | below => exact .inl isNaN
  | atLeast | above => exact .inr (.inl isNaN)

/-- Nothing is missed silently by a number where the target is finite. -/
theorem not_isMissedSilently
    (isNumber : Scalar.isNaN value = false)
    (isFinite : Scalar.isFinite constraint.target = true)
    (notNegative : 0 ≤ own) :
    ¬ constraint.IsMissedSilently own value := by
  have isNumberOwn := NumericScalar.isNaN_right notNegative
  have isNumberTarget := SubtractingScalar.isNaN_of_isFinite _ isFinite
  have isRaised := SubtractingScalar.isNaN_add _ _ isNumberTarget isNumberOwn (.inl isFinite)
  have isLowered := SubtractingScalar.isNaN_sub _ _ isNumberTarget isNumberOwn (.inl isFinite)
  have isDifference := SubtractingScalar.isNaN_sub _ _ isNumber isNumberTarget (.inr isFinite)
  rw [← SubtractingScalar.isNaN_magnitude] at isDifference
  unfold IsMissedSilently sides IsOnExcluded
  rintro (isNaN | isNaN | ⟨⟨-, -, isTarget⟩, notFinite⟩)
  · rcases isComparison : constraint.comparison with _ | _ | _ | _ | _ <;> simp_all
  · rcases isComparison : constraint.comparison with _ | _ | _ | _ | _ <;> simp_all
  · rw [SubtractingScalar.isFinite_of_beq _ _ isTarget isFinite] at notFinite
    cases notFinite

/-- Of exact numbers, a comparison that does not exclude its target is met where the violation is
zero. -/
theorem magnitudeOf_beq_zero_iff_isMet
    [SignedScalar α]
    {value : α}
    (notStrict : constraint.isStrict = false) :
    (constraint.magnitudeOf tolerance value == 0) = true ↔
      constraint.comparison.IsMet value constraint.target (constraint.toleranceOr tolerance) := by
  rw [magnitudeOf_beq_zero_iff_or, or_iff_left]
  simp [IsMissedSilently, IsOnExcluded, SignedScalar.isNaN_eq_false, notStrict]

/--
The violation by a value is zero exactly where the comparison is met or missed silently, and what is
missed silently is not met.  NaN always is.  Any other value never is where the target is finite and
the tolerance not negative, so there a violation of zero means that the comparison holds.
-/
theorem magnitudeOf_beq_zero_iff
    (constraint : Constraint α)
    (tolerance value : α) :
    ((constraint.magnitudeOf tolerance value == 0) = true ↔
        constraint.comparison.IsMet value constraint.target (constraint.toleranceOr tolerance) ∨
          constraint.IsMissedSilently (constraint.toleranceOr tolerance) value) ∧
      (constraint.IsMissedSilently (constraint.toleranceOr tolerance) value →
        ¬ constraint.comparison.IsMet value constraint.target (constraint.toleranceOr tolerance)) ∧
      (Scalar.isNaN value = true →
        constraint.IsMissedSilently (constraint.toleranceOr tolerance) value) ∧
      (Scalar.isNaN value = false → Scalar.isFinite constraint.target = true →
        0 ≤ constraint.toleranceOr tolerance →
          ¬ constraint.IsMissedSilently (constraint.toleranceOr tolerance) value) :=
  ⟨magnitudeOf_beq_zero_iff_or constraint tolerance value, not_isMet_of_isMissedSilently,
    isMissedSilently_of_isNaN constraint _, not_isMissedSilently⟩

section Samples

open Constraints (demand)

/-- Two is not below two, and the violation says so. -/
theorem magnitudeOf_two_below_two :
    let two := demand .below 2 2
    ((two.magnitudeOf 0 2 == 0) = true ↔
        two.comparison.IsMet 2 two.target 0 ∨ two.IsMissedSilently 0 2) ∧
      Scalar.isNaN (2 : Float) = false ∧ Scalar.isFinite two.target = true ∧
        (0 : Float) ≤ 0 ∧ ¬ two.IsMissedSilently 0 2 ∧ ¬ (two.magnitudeOf 0 2 == 0) = true := by
  have ⟨isZero_iff, _, _, notMissed⟩ := magnitudeOf_beq_zero_iff (demand .below 2 2) 0 2
  have notMissed := notMissed (by decide +kernel) (by decide +kernel) (by decide +kernel)
  exact ⟨isZero_iff, by decide +kernel, by decide +kernel, by decide +kernel, notMissed,
    by decide +kernel⟩

/-- NaN is at most one by its violation, though not by the comparison; and infinity is below itself
by its violation. -/
theorem violated_without_violation :
    (0 : Float) ≤ 0 ∧
      (((demand .atMost (0 / 0) 1).magnitudeOf 0 (0 / 0) == 0) = true ∧
        ¬ Comparison.atMost.IsMet (0 / 0) 1 (0 : Float)) ∧
      (((demand .below Scalar.infinity Scalar.infinity).magnitudeOf 0 Scalar.infinity == 0) = true ∧
        ¬ Comparison.below.IsMet Scalar.infinity Scalar.infinity (0 : Float)) := by
  decide +kernel

end Samples

end Constraint

end Optima
