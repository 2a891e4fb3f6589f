import Mathlib.Algebra.BigOperators.Group.List.Basic
import Optima.Proofs.Scalar.Comparison

namespace Optima

/-!
# Finite numbers as fractions

Finite numbers are rounded and computed with as the fractions that they are.
-/

/-!
## Fractions and whole numbers

A finite number is a fraction, and finite numbers are ordered as fractions are.  Rounding
leads to whole numbers and never across one, and the slack is too small to lead from one
whole number to the next.  All of this holds of doubles, for which NaN is no fraction.
-/

/-- Numbers of which the finite ones are fractions that can be rounded. -/
class FractionalScalar (α : Type) [Scalar α] : Prop extends NumericScalar α where
  isFinite_iff (value : α) :
    Scalar.isFinite value = true ↔ ∃ fraction, Scalar.toRat? value = some fraction
  le_iff_of_toRat?_eq_some (first second : α) (fraction other : Rat) :
    Scalar.toRat? first = some fraction → Scalar.toRat? second = some other →
      (first ≤ second ↔ fraction ≤ other)
  isFinite_between (lower value upper : α) :
    lower ≤ value → value ≤ upper → Scalar.isFinite lower = true →
      Scalar.isFinite upper = true → Scalar.isFinite value = true
  toRat?_zero : Scalar.toRat? (0 : α) = some 0
  toRat?_one : Scalar.toRat? (1 : α) = some 1
  /-- The number of an integer may be another one nearby. -/
  exists_toRat?_ofInt (whole : Int) :
    Scalar.isFinite (Scalar.ofInt whole : α) = true →
      ∃ nearby : Int, Scalar.toRat? (Scalar.ofInt whole : α) = some (nearby : Rat)
  ofInt_mono (first second : Int) :
    first ≤ second → (Scalar.ofInt first : α) ≤ Scalar.ofInt second
  ofInt_beq (value : α) (whole : Int) :
    Scalar.toRat? value = some (whole : Rat) → (Scalar.ofInt whole == value) = true
  toRat?_floor (value : α) (fraction : Rat) :
    Scalar.toRat? value = some fraction →
      Scalar.toRat? (Scalar.floor value) = some (fraction.floor : Rat)
  toRat?_ceiling (value : α) (fraction : Rat) :
    Scalar.toRat? value = some fraction →
      Scalar.toRat? (Scalar.ceiling value) = some (fraction.ceil : Rat)
  /-- No whole number lies between a number and the nearest whole one. -/
  exists_toRat?_nearest (value : α) (fraction : Rat) :
    Scalar.toRat? value = some fraction →
      ∃ nearby : Int,
        Scalar.toRat? (Scalar.nearest value) = some (nearby : Rat) ∧
          ∀ whole : Int, (whole ≤ fraction → whole ≤ nearby) ∧ (fraction ≤ whole → nearby ≤ whole)
  sub_slack_le_sub_slack (first second : α) :
    first ≤ second → first - Scalar.slack ≤ second - Scalar.slack
  add_slack_le_add_slack (first second : α) :
    first ≤ second → first + Scalar.slack ≤ second + Scalar.slack
  exists_toRat?_sub_slack (value : α) (whole : Int) :
    Scalar.toRat? value = some (whole : Rat) →
      ∃ fraction, Scalar.toRat? (value - Scalar.slack) = some fraction ∧ whole - 1 < fraction
  exists_toRat?_add_slack (value : α) (whole : Int) :
    Scalar.toRat? value = some (whole : Rat) →
      ∃ fraction, Scalar.toRat? (value + Scalar.slack) = some fraction ∧ fraction < whole + 1
  add_zero_beq (value : α) : Scalar.isNaN value = false → (value + 0 == value) = true

namespace Scalar

variable {α : Type} [Scalar α]

/-- A finite number without a fractional part. -/
def IsWhole (value : α) : Prop :=
  ∃ whole : Int, toRat? value = some (whole : Rat)

variable [FractionalScalar α] {first second lower value upper whole : α}

/-- Two fractions are ordered as the numbers are that they are. -/
theorem le_iff_of_toRat?
    {fraction other : Rat}
    (isFraction : toRat? first = some fraction)
    (isOther : toRat? second = some other) :
    first ≤ second ↔ fraction ≤ other :=
  FractionalScalar.le_iff_of_toRat?_eq_some _ _ _ _ isFraction isOther

theorem exists_fraction
    (isFinite : isFinite value = true) :
    ∃ fraction, toRat? value = some fraction :=
  (FractionalScalar.isFinite_iff value).mp isFinite

theorem isNaN_of_isFinite
    (isFinite : isFinite value = true) :
    isNaN value = false := by
  obtain ⟨fraction, isFraction⟩ := exists_fraction isFinite
  exact NumericScalar.isNaN_left
    ((le_iff_of_toRat? isFraction isFraction).mpr le_rfl)

theorem IsWhole.isFinite
    (isWhole : IsWhole value) :
    isFinite value = true := by
  obtain ⟨whole, isWhole⟩ := isWhole
  exact (FractionalScalar.isFinite_iff value).mpr ⟨whole, isWhole⟩

theorem isWhole_zero :
    IsWhole (0 : α) :=
  ⟨0, FractionalScalar.toRat?_zero⟩

theorem isWhole_one :
    IsWhole (1 : α) :=
  ⟨1, FractionalScalar.toRat?_one⟩

/-- Numbers that are equal are the same fraction. -/
theorem toRat?_eq_of_beq
    (isSame : (first == second) = true)
    {fraction : Rat}
    (isFraction : toRat? first = some fraction) :
    toRat? second = some fraction := by
  obtain ⟨atMost, atLeast⟩ := (NumericScalar.beq_iff_le first second).mp isSame
  have isFinite := (FractionalScalar.isFinite_iff first).mpr ⟨fraction, isFraction⟩
  have isFiniteToo :=
    FractionalScalar.isFinite_between first second first atMost atLeast isFinite isFinite
  obtain ⟨other, isOther⟩ := exists_fraction isFiniteToo
  rw [le_iff_of_toRat? isFraction isOther] at atMost
  rw [le_iff_of_toRat? isOther isFraction] at atLeast
  rw [isOther, le_antisymm atMost atLeast]

theorem IsWhole.of_beq
    (isWhole : IsWhole first)
    (isSame : (first == second) = true) :
    IsWhole second := by
  obtain ⟨whole, isWhole⟩ := isWhole
  exact ⟨whole, toRat?_eq_of_beq isSame isWhole⟩

theorem beq_of_toRat?_eq
    {fraction : Rat}
    (isFraction : toRat? first = some fraction)
    (isFractionToo : toRat? second = some fraction) :
    (first == second) = true := by
  rw [NumericScalar.beq_iff_le, le_iff_of_toRat? isFraction isFractionToo,
    le_iff_of_toRat? isFractionToo isFraction]
  exact ⟨le_rfl, le_rfl⟩

/-- A number between two whole numbers is rounded to a whole number between them. -/
theorem isWhole_nearest_between
    (isWholeLower : IsWhole lower)
    (isWholeUpper : IsWhole upper)
    (isAbove : lower ≤ value)
    (isBelow : value ≤ upper) :
    IsWhole (nearest value) ∧ lower ≤ nearest value ∧ nearest value ≤ upper := by
  obtain ⟨fraction, isFraction⟩ := exists_fraction
    (FractionalScalar.isFinite_between _ _ _ isAbove isBelow isWholeLower.isFinite
      isWholeUpper.isFinite)
  obtain ⟨nearby, isNearby, noneBetween⟩ :=
    FractionalScalar.exists_toRat?_nearest value fraction isFraction
  obtain ⟨low, isLow⟩ := isWholeLower
  obtain ⟨high, isHigh⟩ := isWholeUpper
  rw [le_iff_of_toRat? isLow isFraction] at isAbove
  rw [le_iff_of_toRat? isFraction isHigh] at isBelow
  refine ⟨⟨nearby, isNearby⟩, ?_, ?_⟩
  · rw [le_iff_of_toRat? isLow isNearby]
    exact_mod_cast (noneBetween low).1 isAbove
  · rw [le_iff_of_toRat? isNearby isHigh]
    exact_mod_cast (noneBetween high).2 isBelow

/-- A whole number is the nearest one to itself. -/
theorem nearest_beq_of_isWhole
    (isWhole : IsWhole value) :
    (nearest value == value) = true := by
  have isSelf := NumericScalar.le_self (isNaN_of_isFinite isWhole.isFinite)
  rw [NumericScalar.beq_iff_le]
  exact (isWhole_nearest_between isWhole isWhole isSelf isSelf).2.symm

theorem isWhole_ceiling
    (isFinite : isFinite value = true) :
    IsWhole (ceiling value) ∧ value ≤ ceiling value := by
  obtain ⟨fraction, isFraction⟩ := exists_fraction isFinite
  have isCeiling := FractionalScalar.toRat?_ceiling value fraction isFraction
  refine ⟨⟨_, isCeiling⟩, ?_⟩
  rw [le_iff_of_toRat? isFraction isCeiling]
  exact Rat.le_ceil

theorem isWhole_floor
    (isFinite : isFinite value = true) :
    IsWhole (floor value) ∧ floor value ≤ value := by
  obtain ⟨fraction, isFraction⟩ := exists_fraction isFinite
  have isFloor := FractionalScalar.toRat?_floor value fraction isFraction
  refine ⟨⟨_, isFloor⟩, ?_⟩
  rw [le_iff_of_toRat? isFloor isFraction]
  exact Rat.floor_le fraction

/-- Rounding up does not lead above a whole number. -/
theorem ceiling_le_of_isWhole
    (isWhole : IsWhole whole)
    (isFinite : Scalar.isFinite value = true)
    (atMost : value ≤ whole) :
    ceiling value ≤ whole := by
  obtain ⟨integer, isWhole⟩ := isWhole
  obtain ⟨fraction, isFraction⟩ := exists_fraction isFinite
  rw [le_iff_of_toRat? isFraction isWhole] at atMost
  rw [le_iff_of_toRat? (FractionalScalar.toRat?_ceiling value _ isFraction) isWhole]
  exact_mod_cast Rat.ceil_le_iff.mpr atMost

/-- Rounding down does not lead below a whole number. -/
theorem le_floor_of_isWhole
    (isWhole : IsWhole whole)
    (isFinite : Scalar.isFinite value = true)
    (atLeast : whole ≤ value) :
    whole ≤ floor value := by
  obtain ⟨integer, isWhole⟩ := isWhole
  obtain ⟨fraction, isFraction⟩ := exists_fraction isFinite
  rw [le_iff_of_toRat? isWhole isFraction] at atLeast
  rw [le_iff_of_toRat? isWhole (FractionalScalar.toRat?_floor value _ isFraction)]
  exact_mod_cast Rat.le_floor_iff.mpr atLeast

/-- Giving way by the slack before rounding up does not lead below a whole number. -/
theorem le_ceiling_sub_slack
    (isWhole : IsWhole whole)
    (atMost : whole ≤ value)
    (isFinite : Scalar.isFinite (value - slack) = true) :
    whole ≤ ceiling (value - slack) := by
  obtain ⟨floor, isWhole⟩ := isWhole
  obtain ⟨least, isLeast, above⟩ :=
    FractionalScalar.exists_toRat?_sub_slack whole floor isWhole
  obtain ⟨fraction, isFraction⟩ := exists_fraction isFinite
  have atLeast := FractionalScalar.sub_slack_le_sub_slack _ _ atMost
  rw [le_iff_of_toRat? isLeast isFraction] at atLeast
  have isCeiling := FractionalScalar.toRat?_ceiling _ fraction isFraction
  rw [le_iff_of_toRat? isWhole isCeiling]
  have isAbove : ((floor - 1 : Int) : Rat) < fraction.ceil := by
    calc ((floor - 1 : Int) : Rat)
        = floor - 1 := by norm_cast
      _ < least := above
      _ ≤ fraction := atLeast
      _ ≤ fraction.ceil := Rat.le_ceil
  have isAbove : floor - 1 < fraction.ceil := by exact_mod_cast isAbove
  exact_mod_cast (by omega : floor ≤ fraction.ceil)

/-- Giving way by the slack before rounding down does not lead above a whole number. -/
theorem floor_add_slack_le
    (isWhole : IsWhole whole)
    (atLeast : value ≤ whole)
    (isFinite : Scalar.isFinite (value + slack) = true) :
    floor (value + slack) ≤ whole := by
  obtain ⟨ceiling, isWhole⟩ := isWhole
  obtain ⟨greatest, isGreatest, below⟩ :=
    FractionalScalar.exists_toRat?_add_slack whole ceiling isWhole
  obtain ⟨fraction, isFraction⟩ := exists_fraction isFinite
  have atMost := FractionalScalar.add_slack_le_add_slack _ _ atLeast
  rw [le_iff_of_toRat? isFraction isGreatest] at atMost
  have isFloor := FractionalScalar.toRat?_floor _ fraction isFraction
  rw [le_iff_of_toRat? isFloor isWhole]
  have isBelow : (fraction.floor : Rat) < ((ceiling + 1 : Int) : Rat) := by
    calc (fraction.floor : Rat)
        ≤ fraction := Rat.floor_le fraction
      _ ≤ greatest := atMost
      _ < ceiling + 1 := below
      _ = ((ceiling + 1 : Int) : Rat) := by norm_cast
  have isBelow : fraction.floor < ceiling + 1 := by exact_mod_cast isBelow
  exact_mod_cast (by omega : fraction.floor ≤ ceiling)

/-- A number that is clipped lies between the ends of the interval. -/
theorem clip_between
    (isNumber : isNaN value = false)
    (inOrder : lower ≤ upper) :
    lower ≤ clip value lower upper ∧ clip value lower upper ≤ upper := by
  have isNumberLower := NumericScalar.isNaN_left inOrder
  have isNumberUpper := NumericScalar.isNaN_right inOrder
  have isRaised : peak value lower = larger value lower := by
    simp [peak, isNumber, isNumberLower]
  have ⟨raised, isNumberRaised⟩ :
      lower ≤ larger value lower ∧ isNaN (larger value lower) = false := by
    unfold larger
    split
    · exact ⟨NumericScalar.le_self isNumberLower, isNumberLower⟩
    · rename_i notBelow
      exact ⟨NumericScalar.le_of_not_lt _ _ isNumberLower isNumber notBelow, isNumber⟩
  have isLowered : clip value lower upper = smaller (larger value lower) upper := by
    simp [clip, isRaised, trough, isNumberRaised, isNumberUpper]
  rw [isLowered]
  unfold smaller
  split
  · exact ⟨inOrder, NumericScalar.le_self isNumberUpper⟩
  · rename_i notAbove
    exact ⟨raised, NumericScalar.le_of_not_lt _ _ isNumberRaised isNumberUpper notAbove⟩

end Scalar

namespace Extended

theorem toRat?_eq_some_iff
    {value : Extended}
    {fraction : Rat} :
    Scalar.toRat? value = some fraction ↔ value = finite fraction := by
  cases value <;> simp [Scalar.toRat?]

/-- Rounding leads down to the floor, or up from above it. -/
theorem nearest_eq_floor_or
    (fraction : Rat) :
    nearest fraction = fraction.floor ∨
      (fraction.floor < fraction ∧ nearest fraction = (fraction.floor + 1 : Int)) := by
  unfold nearest
  dsimp only
  split
  · exact .inl rfl
  · rename_i notBelow
    have isAbove : (fraction.floor : Rat) < fraction := by
      grind
    split
    · exact .inr ⟨isAbove, by norm_cast⟩
    · split
      · exact .inl rfl
      · exact .inr ⟨isAbove, by norm_cast⟩

theorem nearest_between
    (fraction : Rat) :
    ∃ nearby : Int,
      nearest fraction = nearby ∧
        ∀ whole : Int,
          (whole ≤ fraction → whole ≤ nearby) ∧ (fraction ≤ whole → nearby ≤ whole) := by
  rcases nearest_eq_floor_or fraction with isFloor | ⟨isAbove, isNext⟩
  · refine ⟨_, isFloor, fun whole => ⟨Rat.le_floor_iff.mpr, fun isBelow => ?_⟩⟩
    exact_mod_cast (Rat.floor_le fraction).trans isBelow
  · refine ⟨_, isNext, fun whole => ⟨fun isBelow => ?_, fun isBelow => ?_⟩⟩
    · exact (Rat.le_floor_iff.mpr isBelow).trans (Int.le_add_one le_rfl)
    · have isAbove : fraction.floor < whole := by
        exact_mod_cast isAbove.trans_le isBelow
      exact isAbove

theorem add_finite_le_add_finite
    {first second : Extended}
    (atMost : first ≤ second)
    (fraction : Rat) :
    first + finite fraction ≤ second + finite fraction := by
  rw [add_comm first, add_comm second]
  exact ExactScalar.add_le_add_left _ _ _ atMost

theorem sub_slack_eq
    (value : Extended) :
    value - Scalar.slack = value + finite (-(1 / 10 ^ 9)) := by
  rw [slack_eq]
  rfl

end Extended

open Extended in
instance : FractionalScalar Extended where
  isFinite_iff value := by
    cases value <;> simp [Scalar.isFinite, Scalar.toRat?]
  le_iff_of_toRat?_eq_some first second fraction other isFirst isSecond := by
    rw [toRat?_eq_some_iff] at isFirst isSecond
    rw [isFirst, isSecond, finite_le_finite_iff]
  isFinite_between := BoundedScalar.isFinite_between
  toRat?_zero := rfl
  toRat?_one := rfl
  exists_toRat?_ofInt whole _ := ⟨whole, rfl⟩
  ofInt_mono first second atMost := by
    exact finite_le_finite_iff.mpr (by exact_mod_cast atMost)
  ofInt_beq value whole isWhole := by
    obtain rfl := toRat?_eq_some_iff.mp isWhole
    exact OrderedScalar.beq_self _
  toRat?_floor value fraction isFraction := by
    obtain rfl := toRat?_eq_some_iff.mp isFraction
    rfl
  toRat?_ceiling value fraction isFraction := by
    obtain rfl := toRat?_eq_some_iff.mp isFraction
    rfl
  exists_toRat?_nearest value fraction isFraction := by
    obtain rfl := toRat?_eq_some_iff.mp isFraction
    obtain ⟨nearby, isNearby, noneBetween⟩ := nearest_between fraction
    exact ⟨nearby, congrArg some isNearby, noneBetween⟩
  sub_slack_le_sub_slack first second atMost := by
    rw [sub_slack_eq, sub_slack_eq]
    exact add_finite_le_add_finite atMost _
  add_slack_le_add_slack first second atMost := by
    rw [slack_eq]
    exact add_finite_le_add_finite atMost _
  exists_toRat?_sub_slack value whole isWhole := by
    obtain rfl := toRat?_eq_some_iff.mp isWhole
    rw [sub_slack_eq]
    exact ⟨whole + -(1 / 10 ^ 9), rfl, by grind⟩
  exists_toRat?_add_slack value whole isWhole := by
    obtain rfl := toRat?_eq_some_iff.mp isWhole
    rw [slack_eq]
    exact ⟨whole + 1 / 10 ^ 9, rfl, by grind⟩
  add_zero_beq value _ := by
    rw [add_zero]
    exact OrderedScalar.beq_self value

/-!
## Arithmetic of fractions

Exact numbers that are finite are fractions, and they are added and multiplied as such.  So
an equation between finite numbers may be read off the fractions that they are, and there
it is an equation of a field.
-/

/-- Exact numbers of which the finite ones are added, multiplied and raised to trivial powers as the
fractions are that they are.  An infinite number is far from a finite one. -/
class ArithmeticScalar (α : Type) [Scalar α] : Prop extends
    ExactScalar α, FractionalScalar α where
  toRat?_add (first second : α) (fraction other : Rat) :
    Scalar.toRat? first = some fraction → Scalar.toRat? second = some other →
      Scalar.toRat? (first + second) = some (fraction + other)
  toRat?_mul (first second : α) (fraction other : Rat) :
    Scalar.toRat? first = some fraction → Scalar.toRat? second = some other →
      Scalar.toRat? (first * second) = some (fraction * other)
  toRat?_neg (value : α) (fraction : Rat) :
    Scalar.toRat? value = some fraction → Scalar.toRat? (-value) = some (-fraction)
  toRat?_power_one (value : α) (fraction : Rat) :
    Scalar.toRat? value = some fraction → Scalar.toRat? (Scalar.power value 1) = some fraction
  toRat?_power_zero (value : α) :
    Scalar.isFinite value = true → Scalar.toRat? (Scalar.power value 0) = some 1
  magnitude_sub_self (value : α) :
    Scalar.isFinite value = true → Scalar.magnitude (value - value) = 0
  sub_nonpos (first second : α) :
    first ≤ second → (Scalar.isFinite first = true ∨ Scalar.isFinite second = true) →
      first - second ≤ 0
  sub_le_self (value step : α) : 0 ≤ step → value - step ≤ value

namespace Scalar

variable {α : Type} [Scalar α]

/-- The fraction that a finite number is. -/
def fraction (value : α) : Rat :=
  (toRat? value).getD 0

/-- Each number of a list is finite. -/
def AreFinite (values : List α) : Prop :=
  ∀ value ∈ values, isFinite value = true

section Arithmetic

variable [ArithmeticScalar α] {first second value : α}

theorem toRat?_eq_some_fraction
    (isFinite : isFinite value = true) :
    toRat? value = some (fraction value) := by
  obtain ⟨found, isFraction⟩ := exists_fraction isFinite
  simp [fraction, isFraction]

/-- What is known to be a fraction is a finite number, and that fraction is its own. -/
theorem isFinite_and_fraction_eq
    {found : Rat}
    (isFraction : toRat? value = some found) :
    isFinite value = true ∧ fraction value = found :=
  ⟨(FractionalScalar.isFinite_iff value).mpr ⟨found, isFraction⟩, by simp [fraction, isFraction]⟩

theorem isFinite_zero :
    isFinite (0 : α) = true :=
  isWhole_zero.isFinite

@[simp]
theorem fraction_zero :
    fraction (0 : α) = 0 :=
  (isFinite_and_fraction_eq FractionalScalar.toRat?_zero).2

theorem isFinite_one :
    isFinite (1 : α) = true :=
  isWhole_one.isFinite

@[simp]
theorem fraction_one :
    fraction (1 : α) = 1 :=
  (isFinite_and_fraction_eq FractionalScalar.toRat?_one).2

/-- The sum of finite numbers is that of their fractions. -/
theorem fraction_add
    (isFinite : isFinite first = true)
    (isFiniteToo : Scalar.isFinite second = true) :
    Scalar.isFinite (first + second) = true ∧
      fraction (first + second) = fraction first + fraction second :=
  isFinite_and_fraction_eq (ArithmeticScalar.toRat?_add _ _ _ _
    (toRat?_eq_some_fraction isFinite) (toRat?_eq_some_fraction isFiniteToo))

/-- The product of finite numbers is that of their fractions. -/
theorem fraction_mul
    (isFinite : isFinite first = true)
    (isFiniteToo : Scalar.isFinite second = true) :
    Scalar.isFinite (first * second) = true ∧
      fraction (first * second) = fraction first * fraction second :=
  isFinite_and_fraction_eq (ArithmeticScalar.toRat?_mul _ _ _ _
    (toRat?_eq_some_fraction isFinite) (toRat?_eq_some_fraction isFiniteToo))

/-- The opposite of a finite number is that of its fraction. -/
theorem fraction_neg
    (isFinite : isFinite value = true) :
    Scalar.isFinite (-value) = true ∧ fraction (-value) = -fraction value :=
  isFinite_and_fraction_eq
    (ArithmeticScalar.toRat?_neg _ _ (toRat?_eq_some_fraction isFinite))

/-- Finite numbers that are the same fraction are the same number. -/
theorem eq_of_fraction_eq
    (isFinite : isFinite first = true)
    (isFiniteToo : Scalar.isFinite second = true)
    (sameFraction : fraction first = fraction second) :
    first = second := by
  have isFirst := toRat?_eq_some_fraction isFinite
  have isSecond := toRat?_eq_some_fraction isFiniteToo
  apply ExactScalar.le_antisymm
  · exact (le_iff_of_toRat? isFirst isSecond).mpr sameFraction.le
  · exact (le_iff_of_toRat? isSecond isFirst).mpr sameFraction.ge

/-- Numbers that compare as equal are the same number. -/
theorem eq_of_beq
    (isSame : (first == second) = true) :
    first = second :=
  have ⟨atMost, atLeast⟩ := (OrderedScalar.beq_iff_le first second).mp isSame
  ExactScalar.le_antisymm _ _ atMost atLeast

/-- Of finite numbers zero is the one whose fraction is zero. -/
theorem beq_zero_iff_fraction_eq_zero
    (isFinite : isFinite value = true) :
    (value == 0) = true ↔ fraction value = 0 := by
  constructor
  · intro isZero
    rw [eq_of_beq isZero, fraction_zero]
  · intro isZero
    rw [eq_of_fraction_eq isFinite isFinite_zero (isZero.trans fraction_zero.symm)]
    exact OrderedScalar.beq_self 0

/-- Adding finite numbers from left to right adds their fractions. -/
theorem fraction_total
    {numbers : List α}
    (areFinite : AreFinite numbers) :
    isFinite (total numbers) = true ∧ fraction (total numbers) = (numbers.map fraction).sum := by
  rw [total_eq_sum]
  induction numbers with
  | nil =>
      exact ⟨isFinite_zero, fraction_zero⟩
  | cons number rest inductionHypothesis =>
      obtain ⟨isFinite, restFinite⟩ := List.forall_mem_cons.mp areFinite
      obtain ⟨isFiniteSum, isSum⟩ := inductionHypothesis restFinite
      rw [List.sum_cons, List.map_cons, List.sum_cons, ← isSum]
      exact fraction_add isFinite isFiniteSum

end Arithmetic

end Scalar

open Extended in
instance : ArithmeticScalar Extended where
  toRat?_add first second fraction other isFirst isSecond := by
    obtain rfl := toRat?_eq_some_iff.mp isFirst
    obtain rfl := toRat?_eq_some_iff.mp isSecond
    rfl
  toRat?_mul first second fraction other isFirst isSecond := by
    obtain rfl := toRat?_eq_some_iff.mp isFirst
    obtain rfl := toRat?_eq_some_iff.mp isSecond
    rfl
  toRat?_neg value fraction isFraction := by
    obtain rfl := toRat?_eq_some_iff.mp isFraction
    rfl
  toRat?_power_one value fraction isFraction := by
    obtain rfl := toRat?_eq_some_iff.mp isFraction
    exact congrArg some (zpow_one fraction)
  toRat?_power_zero value isFinite := by
    obtain ⟨fraction, rfl⟩ := exists_fraction_of_isFinite isFinite
    exact congrArg some (zpow_zero fraction)
  magnitude_sub_self value isFinite := by
    obtain ⟨fraction, rfl⟩ := exists_fraction_of_isFinite isFinite
    exact congrArg finite (by rw [add_neg_cancel, abs_zero])
  sub_nonpos first second := by
    change isAtMost _ _ = true → _ → isAtMost (add first (neg second)) (finite 0) = true
    cases first <;> cases second <;> simp [isAtMost, add, neg, Scalar.isFinite]
  sub_le_self value step := by
    change isAtMost (finite 0) step = true → isAtMost (add value (neg step)) value = true
    cases value <;> cases step <;> simp [isAtMost, add, neg]

end Optima
