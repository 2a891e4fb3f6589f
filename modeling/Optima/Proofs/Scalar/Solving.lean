import Mathlib.Algebra.Order.Field.Basic
import Mathlib.Algebra.Order.Field.Rat
import Mathlib.Tactic.Ring
import Optima.Proofs.Scalar.Rounding

namespace Optima

/-!
# Solving for one unknown

An inequality between a finite multiple of an unknown, with something finite added to it,
and any bound is solved by bringing the addend to the other side and dividing by the factor.
Where the factor is negative, the inequality is turned round.
-/

/-- Exact numbers in which an inequality with one unknown can be solved, whatever its bound. -/
class SolvingScalar (α : Type) [Scalar α] : Prop extends
    ArithmeticScalar α, BoundedScalar α where
  sub_eq_add_neg (first second : α) : first - second = first + -second
  toRat?_div (first second : α) (fraction other : Rat) :
    Scalar.toRat? first = some fraction → Scalar.toRat? second = some other → other ≠ 0 →
      Scalar.toRat? (first / second) = some (fraction / other)
  toRat?_magnitude (value : α) (fraction : Rat) :
    Scalar.toRat? value = some fraction → Scalar.toRat? (Scalar.magnitude value) = some |fraction|
  eq_of_magnitude_sub_nonpos (first second : α) :
    Scalar.isFinite first = true → Scalar.magnitude (first - second) ≤ 0 → first = second
  le_of_sub_nonpos (first second : α) :
    (Scalar.isFinite first = true ∨ Scalar.isFinite second = true) → first - second ≤ 0 →
      first ≤ second
  add_le_iff_le_sub (value step bound : α) :
    Scalar.isFinite step = true → (value + step ≤ bound ↔ value ≤ bound - step)
  le_add_iff_sub_le (value step bound : α) :
    Scalar.isFinite step = true → (bound ≤ value + step ↔ bound - step ≤ value)
  mul_le_iff_of_pos (factor value bound : α) :
    Scalar.isFinite factor = true → Scalar.isFinite value = true → 0 < factor →
      (factor * value ≤ bound ↔ value ≤ bound / factor)
  le_mul_iff_of_pos (factor value bound : α) :
    Scalar.isFinite factor = true → Scalar.isFinite value = true → 0 < factor →
      (bound ≤ factor * value ↔ bound / factor ≤ value)
  mul_le_iff_of_neg (factor value bound : α) :
    Scalar.isFinite factor = true → Scalar.isFinite value = true → factor < 0 →
      (factor * value ≤ bound ↔ bound / factor ≤ value)
  le_mul_iff_of_neg (factor value bound : α) :
    Scalar.isFinite factor = true → Scalar.isFinite value = true → factor < 0 →
      (bound ≤ factor * value ↔ value ≤ bound / factor)

namespace Scalar

variable {α : Type} [Scalar α] [SolvingScalar α] {first second value : α}

/-- The difference of finite numbers is that of their fractions. -/
theorem fraction_sub
    (isFinite : isFinite first = true)
    (isFiniteToo : Scalar.isFinite second = true) :
    Scalar.isFinite (first - second) = true ∧
      fraction (first - second) = fraction first - fraction second := by
  obtain ⟨isFiniteOpposite, isOpposite⟩ := fraction_neg isFiniteToo
  obtain ⟨isFiniteSum, isSum⟩ := fraction_add isFinite isFiniteOpposite
  rw [SolvingScalar.sub_eq_add_neg, isSum, isOpposite]
  exact ⟨isFiniteSum, (sub_eq_add_neg _ _).symm⟩

/-- The quotient of finite numbers is that of their fractions, unless it is by zero. -/
theorem fraction_div
    (isFinite : isFinite first = true)
    (isFiniteToo : Scalar.isFinite second = true)
    (notZero : fraction second ≠ 0) :
    Scalar.isFinite (first / second) = true ∧
      fraction (first / second) = fraction first / fraction second :=
  isFinite_and_fraction_eq (SolvingScalar.toRat?_div _ _ _ _
    (toRat?_eq_some_fraction isFinite) (toRat?_eq_some_fraction isFiniteToo) notZero)

/-- The distance of a finite number from zero is that of its fraction. -/
theorem fraction_magnitude
    (isFinite : isFinite value = true) :
    Scalar.isFinite (magnitude value) = true ∧ fraction (magnitude value) = |fraction value| :=
  isFinite_and_fraction_eq
    (SolvingScalar.toRat?_magnitude _ _ (toRat?_eq_some_fraction isFinite))

/-- Finite numbers are ordered as their fractions are. -/
theorem lt_iff_fraction_lt
    (isFinite : isFinite first = true)
    (isFiniteToo : Scalar.isFinite second = true) :
    first < second ↔ fraction first < fraction second := by
  rw [OrderedScalar.lt_iff_not_le, ← not_le,
    le_iff_of_toRat? (toRat?_eq_some_fraction isFiniteToo) (toRat?_eq_some_fraction isFinite)]

/-- Taking nothing away changes nothing. -/
theorem sub_zero_eq
    (value : α) :
    value - 0 = value := by
  apply ExactScalar.le_antisymm
  · exact ArithmeticScalar.sub_le_self value 0 le_rfl
  · exact (SolvingScalar.add_le_iff_le_sub value 0 value isFinite_zero).mp (add_zero value).le

/-- The slack is finite. -/
theorem isFinite_slack :
    isFinite (slack : α) = true := by
  obtain ⟨fraction, isFraction, -⟩ :=
    FractionalScalar.exists_toRat?_add_slack (0 : α) 0 FractionalScalar.toRat?_zero
  rw [zero_add] at isFraction
  exact (FractionalScalar.isFinite_iff _).mpr ⟨fraction, isFraction⟩

/-- Adding something finite on both sides does not change which is smaller. -/
theorem add_le_add_iff_of_isFinite
    {step : α}
    (isFinite : isFinite step = true) :
    first + step ≤ second + step ↔ first ≤ second := by
  constructor
  · intro atMost
    exact ((SolvingScalar.add_le_iff_le_sub _ _ _ isFinite).mp atMost).trans
      ((SolvingScalar.le_add_iff_sub_le _ _ _ isFinite).mp le_rfl)
  · intro atMost
    exact add_le_add_left atMost step

/-- Adding something finite on both sides does not change which is strictly smaller. -/
theorem add_lt_add_iff_of_isFinite
    {step : α}
    (isFinite : Scalar.isFinite step = true) :
    first + step < second + step ↔ first < second := by
  rw [← not_le, ← not_le, add_le_add_iff_of_isFinite isFinite]

/-- Taking something finite away makes no number finite or infinite. -/
theorem isFinite_sub_iff
    {step : α}
    (isFiniteStep : isFinite step = true) :
    isFinite (value - step) = true ↔ isFinite value = true := by
  constructor
  · intro isFinite
    have isSum := (fraction_add isFinite isFiniteStep).1
    have isBelow := (SolvingScalar.add_le_iff_le_sub _ step value isFiniteStep).mpr le_rfl
    have isAbove := (SolvingScalar.le_add_iff_sub_le _ step value isFiniteStep).mpr le_rfl
    exact BoundedScalar.isFinite_between _ value _ isBelow isAbove isSum isSum
  · exact fun isFinite => (fraction_sub isFinite isFiniteStep).1

/-- Adding something finite makes no number finite or infinite. -/
theorem isFinite_add_iff
    {step : α}
    (isFiniteStep : isFinite step = true) :
    isFinite (value + step) = true ↔ isFinite value = true := by
  constructor
  · intro isFinite
    have isDifference := (fraction_sub isFinite isFiniteStep).1
    have isBelow := (SolvingScalar.le_add_iff_sub_le value step _ isFiniteStep).mp le_rfl
    have isAbove := (SolvingScalar.add_le_iff_le_sub value step _ isFiniteStep).mp le_rfl
    exact BoundedScalar.isFinite_between _ value _ isBelow isAbove isDifference isDifference
  · exact fun isFinite => (fraction_add isFinite isFiniteStep).1

/-- Taking away a span, and adding a step that is not larger, leads no further up. -/
theorem sub_add_le_self
    {step span : α}
    (isFiniteStep : isFinite step = true)
    (isFiniteSpan : isFinite span = true)
    (atMost : step ≤ span)
    (value : α) :
    value - span + step ≤ value := by
  rw [SolvingScalar.add_le_iff_le_sub _ _ _ isFiniteStep,
    ← SolvingScalar.le_add_iff_sub_le _ _ _ isFiniteSpan]
  calc value
      ≤ value - step + step :=
        (SolvingScalar.le_add_iff_sub_le _ step value isFiniteStep).mpr le_rfl
    _ ≤ value - step + span := ExactScalar.add_le_add_left _ _ _ atMost

/-- Around a number there is room for steps that are not larger than twice the distance. -/
theorem sub_add_le_add
    {step distance : α}
    (isFiniteStep : isFinite step = true)
    (isFinite : isFinite distance = true)
    (atMost : step ≤ distance + distance)
    (value : α) :
    value - distance + step ≤ value + distance := by
  rw [SolvingScalar.add_le_iff_le_sub _ _ _ isFiniteStep]
  calc value - distance
      ≤ value + distance - (distance + distance) := by
        rw [← SolvingScalar.add_le_iff_le_sub _ _ _ (fraction_add isFinite isFinite).1, ← add_assoc]
        exact add_le_add_left
          ((SolvingScalar.add_le_iff_le_sub _ distance value isFinite).mpr le_rfl) distance
    _ ≤ value + distance - step := by
        rw [← SolvingScalar.add_le_iff_le_sub _ _ _ isFiniteStep]
        exact sub_add_le_self isFiniteStep (fraction_add isFinite isFinite).1 atMost _

/-- Rounding up leads up by one at most. -/
theorem ceiling_le_add_one
    (isFinite : isFinite value = true) :
    ceiling value ≤ value + 1 := by
  obtain ⟨isFiniteSum, isSum⟩ := fraction_add isFinite isFinite_one
  have isCeiling := FractionalScalar.toRat?_ceiling value _ (toRat?_eq_some_fraction isFinite)
  rw [le_iff_of_toRat? isCeiling (toRat?_eq_some_fraction isFiniteSum), isSum, fraction_one]
  exact Rat.ceil_lt.le

/-- Counting up and down from zero reaches every whole number. -/
theorem exists_toRat?_eq_some_intCast
    (whole : Int) :
    ∃ value : α, toRat? value = some (whole : Rat) := by
  induction whole with
  | zero =>
      exact ⟨0, by simpa using FractionalScalar.toRat?_zero⟩
  | succ count inductionHypothesis =>
      obtain ⟨value, isValue⟩ := inductionHypothesis
      obtain ⟨isFinite, isFraction⟩ := isFinite_and_fraction_eq isValue
      obtain ⟨isFiniteNext, isNext⟩ := fraction_add isFinite (isFinite_one (α := α))
      refine ⟨value + 1, ?_⟩
      rw [toRat?_eq_some_fraction isFiniteNext, isNext, isFraction, fraction_one]
      push_cast
      rfl
  | pred count inductionHypothesis =>
      obtain ⟨value, isValue⟩ := inductionHypothesis
      obtain ⟨isFinite, isFraction⟩ := isFinite_and_fraction_eq isValue
      obtain ⟨isFiniteNext, isNext⟩ := fraction_sub isFinite (isFinite_one (α := α))
      refine ⟨value - 1, ?_⟩
      rw [toRat?_eq_some_fraction isFiniteNext, isNext, isFraction, fraction_one]
      push_cast
      rfl

/-- The number of an integer is that integer. -/
theorem fraction_ofInt
    (whole : Int) :
    isFinite (ofInt whole : α) = true ∧ fraction (ofInt whole : α) = whole := by
  obtain ⟨value, isValue⟩ := exists_toRat?_eq_some_intCast (α := α) whole
  exact isFinite_and_fraction_eq
    (toRat?_eq_of_beq (beq_comm_of_beq (FractionalScalar.ofInt_beq _ _ isValue)) isValue)

theorem fraction_two :
    isFinite (two : α) = true ∧ fraction (two : α) = 2 :=
  fraction_ofInt 2

/-- A finite number is its half twice. -/
theorem half_add_half
    (isFinite : isFinite value = true) :
    Scalar.isFinite (value / two) = true ∧ value / two + value / two = value := by
  obtain ⟨isFiniteTwo, isTwo⟩ := fraction_two (α := α)
  obtain ⟨isFiniteHalf, isHalf⟩ := fraction_div isFinite isFiniteTwo (by rw [isTwo]; norm_num)
  obtain ⟨isFiniteSum, isSum⟩ := fraction_add isFiniteHalf isFiniteHalf
  refine ⟨isFiniteHalf, eq_of_fraction_eq isFiniteSum isFinite ?_⟩
  rw [isSum, isHalf, isTwo]
  ring

section Unknown

variable {factor addend bound : α}

/-- A finite number that is neither zero nor below it is above it. -/
theorem pos_of_not_neg
    (isFinite : isFinite factor = true)
    (notZero : fraction factor ≠ 0)
    (notNegative : ¬ factor < 0) :
    0 < factor := by
  rw [lt_iff_fraction_lt isFinite isFinite_zero, fraction_zero] at notNegative
  rw [lt_iff_fraction_lt isFinite_zero isFinite, fraction_zero]
  exact lt_of_le_of_ne (not_lt.mp notNegative) notZero.symm

section Solved

variable (bound) (isFiniteFactor : isFinite factor = true) (isFiniteAddend : isFinite addend = true)
  (isFiniteValue : isFinite value = true)

include isFiniteFactor isFiniteAddend isFiniteValue

/-- An inequality between a multiple of an unknown, with something added, and a bound above it
is solved for the unknown. -/
theorem affine_le_iff :
    (0 < factor → (factor * value + addend ≤ bound ↔ value ≤ (bound - addend) / factor)) ∧
      (factor < 0 → (factor * value + addend ≤ bound ↔ (bound - addend) / factor ≤ value)) := by
  rw [SolvingScalar.add_le_iff_le_sub _ _ _ isFiniteAddend]
  exact ⟨SolvingScalar.mul_le_iff_of_pos _ _ _ isFiniteFactor isFiniteValue,
    SolvingScalar.mul_le_iff_of_neg _ _ _ isFiniteFactor isFiniteValue⟩

/-- An inequality between a multiple of an unknown, with something added, and a bound below it
is solved for the unknown. -/
theorem le_affine_iff :
    (0 < factor → (bound ≤ factor * value + addend ↔ (bound - addend) / factor ≤ value)) ∧
      (factor < 0 → (bound ≤ factor * value + addend ↔ value ≤ (bound - addend) / factor)) := by
  rw [SolvingScalar.le_add_iff_sub_le _ _ _ isFiniteAddend]
  exact ⟨SolvingScalar.le_mul_iff_of_pos _ _ _ isFiniteFactor isFiniteValue,
    SolvingScalar.le_mul_iff_of_neg _ _ _ isFiniteFactor isFiniteValue⟩

end Solved

theorem fraction_affine
    (isFiniteFactor : isFinite factor = true)
    (isFiniteAddend : isFinite addend = true)
    (isFiniteValue : isFinite value = true) :
    isFinite (factor * value + addend) = true ∧
      fraction (factor * value + addend) =
        fraction factor * fraction value + fraction addend := by
  obtain ⟨isFiniteProduct, isProduct⟩ := fraction_mul isFiniteFactor isFiniteValue
  obtain ⟨isFiniteSum, isSum⟩ := fraction_add isFiniteProduct isFiniteAddend
  exact ⟨isFiniteSum, by rw [isSum, isProduct]⟩

/-- Moving an unknown by a share of a change moves a multiple of it by the change. -/
theorem affine_moved
    {moved change : α}
    (isFiniteFactor : isFinite factor = true)
    (isFiniteAddend : isFinite addend = true)
    (isFiniteValue : isFinite value = true)
    (isFiniteMoved : isFinite moved = true)
    (isFiniteChange : isFinite change = true)
    (notZero : fraction factor ≠ 0)
    (isMoved : fraction moved = fraction value + fraction change / fraction factor) :
    factor * moved + addend = factor * value + addend + change := by
  obtain ⟨isFiniteBefore, isBefore⟩ :=
    fraction_affine isFiniteFactor isFiniteAddend isFiniteValue
  obtain ⟨isFiniteAfter, isAfter⟩ := fraction_affine isFiniteFactor isFiniteAddend isFiniteMoved
  obtain ⟨isFiniteSum, isSum⟩ := fraction_add isFiniteBefore isFiniteChange
  apply eq_of_fraction_eq isFiniteAfter isFiniteSum
  rw [isAfter, isSum, isBefore, isMoved, mul_add, mul_div_cancel₀ _ notZero]
  ring

section Margin

variable {margin : α} (isFiniteFactor : isFinite factor = true)
  (notZero : fraction factor ≠ 0) (isFiniteMargin : isFinite margin = true)

include isFiniteFactor notZero isFiniteMargin

/-- The share of a margin in a step of the unknown. -/
theorem fraction_step :
    isFinite (margin / magnitude factor) = true ∧
      fraction (margin / magnitude factor) = fraction margin / |fraction factor| := by
  obtain ⟨isFiniteMagnitude, isMagnitude⟩ := fraction_magnitude isFiniteFactor
  have notZeroToo : fraction (magnitude factor) ≠ 0 := by
    rw [isMagnitude]
    exact abs_ne_zero.mpr notZero
  obtain ⟨isFiniteStep, isStep⟩ := fraction_div isFiniteMargin isFiniteMagnitude notZeroToo
  exact ⟨isFiniteStep, by rw [isStep, isMagnitude]⟩

variable (isFiniteAddend : isFinite addend = true) (isFiniteValue : isFinite value = true)

include isFiniteAddend isFiniteValue

/-- A step of the unknown moves a rising multiple of it by the margin in its own direction, and a
falling one in the other. -/
theorem affine_step :
    (0 < factor →
        factor * (value + margin / magnitude factor) + addend = factor * value + addend + margin ∧
          factor * (value - margin / magnitude factor) + addend
            = factor * value + addend - margin) ∧
      (factor < 0 →
        factor * (value + margin / magnitude factor) + addend = factor * value + addend - margin ∧
          factor * (value - margin / magnitude factor) + addend
            = factor * value + addend + margin) := by
  rw [lt_iff_fraction_lt isFinite_zero isFiniteFactor,
    lt_iff_fraction_lt isFiniteFactor isFinite_zero, fraction_zero,
    SolvingScalar.sub_eq_add_neg (factor * value + addend) margin]
  obtain ⟨isFiniteStep, isStep⟩ := fraction_step isFiniteFactor notZero isFiniteMargin
  obtain ⟨isFiniteUp, isUp⟩ := fraction_add isFiniteValue isFiniteStep
  obtain ⟨isFiniteDown, isDown⟩ := fraction_sub isFiniteValue isFiniteStep
  obtain ⟨isFiniteOpposite, isOpposite⟩ := fraction_neg isFiniteMargin
  constructor
  · intro isPositive
    rw [abs_of_pos isPositive] at isStep
    constructor
    · exact affine_moved isFiniteFactor isFiniteAddend isFiniteValue isFiniteUp isFiniteMargin
        notZero (by rw [isUp, isStep])
    · exact affine_moved isFiniteFactor isFiniteAddend isFiniteValue isFiniteDown isFiniteOpposite
        notZero (by rw [isDown, isStep, isOpposite]; ring)
  · intro isNegative
    rw [abs_of_neg isNegative] at isStep
    constructor
    · exact affine_moved isFiniteFactor isFiniteAddend isFiniteValue isFiniteUp isFiniteOpposite
        notZero (by rw [isUp, isStep, isOpposite]; ring)
    · exact affine_moved isFiniteFactor isFiniteAddend isFiniteValue isFiniteDown isFiniteMargin
        notZero (by rw [isDown, isStep]; ring)

/-- An inequality that leaves a margin below a bound is solved for the unknown. -/
theorem solve_below
    (isBelow : factor * value + addend ≤ bound - margin) :
    (0 < factor → value ≤ (bound - addend) / factor - margin / magnitude factor) ∧
      (factor < 0 → (bound - addend) / factor + margin / magnitude factor ≤ value) := by
  obtain ⟨ofRising, ofFalling⟩ :=
    affine_step isFiniteFactor notZero isFiniteMargin isFiniteAddend isFiniteValue
  obtain ⟨isFiniteStep, -⟩ := fraction_step isFiniteFactor notZero isFiniteMargin
  have isFiniteUp := (fraction_add isFiniteValue isFiniteStep).1
  have isFiniteDown := (fraction_sub isFiniteValue isFiniteStep).1
  have atMost : factor * value + addend + margin ≤ bound :=
    (SolvingScalar.add_le_iff_le_sub _ _ _ isFiniteMargin).mpr isBelow
  constructor
  · intro isPositive
    rw [← (ofRising isPositive).1] at atMost
    have isSolved :=
      ((affine_le_iff bound isFiniteFactor isFiniteAddend isFiniteUp).1 isPositive).mp atMost
    exact (SolvingScalar.add_le_iff_le_sub _ _ _ isFiniteStep).mp isSolved
  · intro isNegative
    rw [← (ofFalling isNegative).2] at atMost
    have isSolved :=
      ((affine_le_iff bound isFiniteFactor isFiniteAddend isFiniteDown).2 isNegative).mp atMost
    exact (SolvingScalar.add_le_iff_le_sub _ _ _ isFiniteStep).mpr isSolved

/-- An inequality that leaves a margin above a bound is solved for the unknown. -/
theorem solve_above
    (isAbove : bound + margin ≤ factor * value + addend) :
    (0 < factor → (bound - addend) / factor + margin / magnitude factor ≤ value) ∧
      (factor < 0 → value ≤ (bound - addend) / factor - margin / magnitude factor) := by
  obtain ⟨ofRising, ofFalling⟩ :=
    affine_step isFiniteFactor notZero isFiniteMargin isFiniteAddend isFiniteValue
  obtain ⟨isFiniteStep, -⟩ := fraction_step isFiniteFactor notZero isFiniteMargin
  have isFiniteUp := (fraction_add isFiniteValue isFiniteStep).1
  have isFiniteDown := (fraction_sub isFiniteValue isFiniteStep).1
  have atLeast : bound ≤ factor * value + addend - margin :=
    (SolvingScalar.add_le_iff_le_sub _ _ _ isFiniteMargin).mp isAbove
  constructor
  · intro isPositive
    rw [← (ofRising isPositive).2] at atLeast
    have isSolved :=
      ((le_affine_iff bound isFiniteFactor isFiniteAddend isFiniteDown).1 isPositive).mp atLeast
    exact (SolvingScalar.add_le_iff_le_sub _ _ _ isFiniteStep).mpr isSolved
  · intro isNegative
    rw [← (ofFalling isNegative).1] at atLeast
    have isSolved :=
      ((le_affine_iff bound isFiniteFactor isFiniteAddend isFiniteUp).2 isNegative).mp atLeast
    exact (SolvingScalar.add_le_iff_le_sub _ _ _ isFiniteStep).mp isSolved

end Margin

end Unknown

end Scalar

namespace Extended

variable {factor : Rat}

theorem lt_finite_iff
    {first second : Rat} :
    finite first < finite second ↔ first < second := by
  rw [OrderedScalar.lt_iff_not_le, finite_le_finite_iff, not_le]

theorem finite_div_finite
    (value factor : Rat) :
    finite value / finite factor = finite (value / factor) :=
  congrArg finite (div_eq_mul_inv value factor).symm

/-- An infinity divided by a positive number is that infinity. -/
theorem infinity_div_of_pos
    (isPositive : 0 < factor) :
    above / finite factor = above ∧ below / finite factor = below := by
  have isInverse : 0 < factor⁻¹ := inv_pos.mpr isPositive
  have notNegative : ¬ 0 < -factor⁻¹ := by grind
  have isOpposite : -factor⁻¹ < 0 := by grind
  constructor
  · change infinite factor⁻¹ = above
    exact if_pos isInverse
  · change infinite (-factor⁻¹) = below
    rw [infinite, if_neg notNegative, if_pos isOpposite]

/-- An infinity divided by a negative number is the other one. -/
theorem infinity_div_of_neg
    (isNegative : factor < 0) :
    above / finite factor = below ∧ below / finite factor = above := by
  have isInverse : factor⁻¹ < 0 := inv_neg''.mpr isNegative
  have notPositive : ¬ 0 < factor⁻¹ := by grind
  have isOpposite : 0 < -factor⁻¹ := by grind
  constructor
  · change infinite factor⁻¹ = below
    rw [infinite, if_neg notPositive, if_pos isInverse]
  · change infinite (-factor⁻¹) = above
    exact if_pos isOpposite

end Extended

open Extended in
instance : SolvingScalar Extended where
  sub_eq_add_neg _ _ := rfl
  toRat?_div first second fraction other isFirst isSecond notZero := by
    obtain rfl := toRat?_eq_some_iff.mp isFirst
    obtain rfl := toRat?_eq_some_iff.mp isSecond
    exact congrArg some (div_eq_mul_inv fraction other).symm
  toRat?_magnitude value fraction isFraction := by
    obtain rfl := toRat?_eq_some_iff.mp isFraction
    rfl
  eq_of_magnitude_sub_nonpos first second isFinite := by
    obtain ⟨fraction, rfl⟩ := exists_fraction_of_isFinite isFinite
    cases second with
    | finite other =>
        intro isNear
        have isNear : |fraction + -other| ≤ 0 := finite_le_finite_iff.mp isNear
        have isSame := abs_nonpos_iff.mp isNear
        rw [← sub_eq_add_neg, sub_eq_zero] at isSame
        rw [isSame]
    | below => exact nofun
    | above => exact nofun
  le_of_sub_nonpos first second := by
    change _ → isAtMost (add first (neg second)) (finite 0) = true → isAtMost first second = true
    cases first <;> cases second <;> simp [isAtMost, add, neg, Scalar.isFinite]
  add_le_iff_le_sub value step bound isFinite := by
    obtain ⟨fraction, rfl⟩ := exists_fraction_of_isFinite isFinite
    change isAtMost (add value (finite fraction)) bound = true ↔
      isAtMost value (add bound (neg (finite fraction))) = true
    cases value <;> cases bound <;> simp [isAtMost, add, neg]
  le_add_iff_sub_le value step bound isFinite := by
    obtain ⟨fraction, rfl⟩ := exists_fraction_of_isFinite isFinite
    change isAtMost bound (add value (finite fraction)) = true ↔
      isAtMost (add bound (neg (finite fraction))) value = true
    cases value <;> cases bound <;> simp [isAtMost, add, neg]
  mul_le_iff_of_pos factor value bound isFinite isFiniteToo isPositive := by
    obtain ⟨factor, rfl⟩ := exists_fraction_of_isFinite isFinite
    obtain ⟨value, rfl⟩ := exists_fraction_of_isFinite isFiniteToo
    have isPositive : 0 < factor := lt_finite_iff.mp isPositive
    obtain ⟨isAbove, isBelow⟩ := infinity_div_of_pos isPositive
    cases bound with
    | above => rw [isAbove]; exact Iff.rfl
    | below => rw [isBelow]; exact Iff.rfl
    | finite bound =>
        rw [finite_div_finite, finite_le_finite_iff, le_div_iff₀ isPositive, mul_comm]
        exact finite_le_finite_iff
  le_mul_iff_of_pos factor value bound isFinite isFiniteToo isPositive := by
    obtain ⟨factor, rfl⟩ := exists_fraction_of_isFinite isFinite
    obtain ⟨value, rfl⟩ := exists_fraction_of_isFinite isFiniteToo
    have isPositive : 0 < factor := lt_finite_iff.mp isPositive
    obtain ⟨isAbove, isBelow⟩ := infinity_div_of_pos isPositive
    cases bound with
    | above => rw [isAbove]; exact Iff.rfl
    | below => rw [isBelow]; exact Iff.rfl
    | finite bound =>
        rw [finite_div_finite, finite_le_finite_iff, div_le_iff₀ isPositive, mul_comm]
        exact finite_le_finite_iff
  mul_le_iff_of_neg factor value bound isFinite isFiniteToo isNegative := by
    obtain ⟨factor, rfl⟩ := exists_fraction_of_isFinite isFinite
    obtain ⟨value, rfl⟩ := exists_fraction_of_isFinite isFiniteToo
    have isNegative : factor < 0 := lt_finite_iff.mp isNegative
    obtain ⟨isAbove, isBelow⟩ := infinity_div_of_neg isNegative
    cases bound with
    | above => rw [isAbove]; exact ⟨fun _ => rfl, fun _ => rfl⟩
    | below => rw [isBelow]; exact ⟨nofun, nofun⟩
    | finite bound =>
        rw [finite_div_finite, finite_le_finite_iff, div_le_iff_of_neg isNegative, mul_comm]
        exact finite_le_finite_iff
  le_mul_iff_of_neg factor value bound isFinite isFiniteToo isNegative := by
    obtain ⟨factor, rfl⟩ := exists_fraction_of_isFinite isFinite
    obtain ⟨value, rfl⟩ := exists_fraction_of_isFinite isFiniteToo
    have isNegative : factor < 0 := lt_finite_iff.mp isNegative
    obtain ⟨isAbove, isBelow⟩ := infinity_div_of_neg isNegative
    cases bound with
    | above => rw [isAbove]; exact ⟨nofun, nofun⟩
    | below => rw [isBelow]; exact ⟨fun _ => rfl, fun _ => rfl⟩
    | finite bound =>
        rw [finite_div_finite, finite_le_finite_iff, le_div_iff_of_neg isNegative, mul_comm]
        exact finite_le_finite_iff

end Optima
