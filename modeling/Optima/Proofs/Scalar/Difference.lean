import Mathlib
import Optima.Proofs.Scalar.Double

namespace Optima

/-!
# Differences

Which of two numbers is larger can be read off their difference, also where it is rounded: a
difference of doubles is zero only between equal ones, because no two others are closer to each
other than the smallest double is to zero.  The exception are infinities, which have no difference
from themselves.
-/

/-- Numbers that are compared by their difference, and of which a sum or difference is NaN only
where one of them is, or both are infinite. -/
class SubtractingScalar (α : Type) [Scalar α] : Prop extends NumericScalar α where
  isNaN_of_isFinite (value : α) : Scalar.isFinite value = true → Scalar.isNaN value = false
  isFinite_of_beq (first second : α) :
    (first == second) = true → Scalar.isFinite second = true → Scalar.isFinite first = true
  sub_pos_iff (first second : α) : 0 < first - second ↔ second < first
  sub_beq_zero_iff (first second : α) :
    (first - second == 0) = true ↔ (first == second) = true ∧ Scalar.isFinite first = true
  isNaN_sub (first second : α) :
    Scalar.isNaN first = false → Scalar.isNaN second = false →
      (Scalar.isFinite first = true ∨ Scalar.isFinite second = true) →
        Scalar.isNaN (first - second) = false
  isNaN_sub_of_isNaN (first second : α) :
    Scalar.isNaN first = true → Scalar.isNaN (first - second) = true
  isNaN_add (first second : α) :
    Scalar.isNaN first = false → Scalar.isNaN second = false →
      (Scalar.isFinite first = true ∨ Scalar.isFinite second = true) →
        Scalar.isNaN (first + second) = false
  isNaN_magnitude (value : α) : Scalar.isNaN (Scalar.magnitude value) = Scalar.isNaN value
  same_sub_zero (value step : α) : (step == 0) = true → Scalar.same (value - step) value = true
  same_add_zero (value step : α) : (step == 0) = true → Scalar.same (value + step) value = true

instance : SubtractingScalar Extended where
  isNaN_of_isFinite _ _ := rfl
  isFinite_of_beq first second isSame isFinite := by
    rwa [of_decide_eq_true isSame]
  sub_pos_iff first second := by
    change ¬ Extended.isAtMost (.add first (.neg second)) (.finite 0) = true ↔
      ¬ Extended.isAtMost first second = true
    cases first <;> cases second <;> simp [Extended.isAtMost, Extended.add, Extended.neg]
  sub_beq_zero_iff first second := by
    change decide (Extended.add first (.neg second) = .finite 0) = true ↔
      decide (first = second) = true ∧ _
    cases first <;> cases second <;>
      simp [Extended.add, Extended.neg, Scalar.isFinite, add_neg_eq_zero]
  isNaN_sub _ _ _ _ _ := rfl
  isNaN_sub_of_isNaN _ _ isNaN := nomatch isNaN
  isNaN_add _ _ _ _ _ := rfl
  isNaN_magnitude _ := rfl
  same_sub_zero value step isZero := by
    obtain rfl : step = 0 := of_decide_eq_true isZero
    change Scalar.same (Extended.add value (.neg (.finite 0))) value = true
    cases value <;> simp [Extended.add, Extended.neg, Scalar.same]
  same_add_zero value step isZero := by
    obtain rfl : step = 0 := of_decide_eq_true isZero
    simp [Scalar.same]

/-- Numbers that are ordered in the same way compare in the same way. -/
theorem compare_congr
    {α β : Type}
    [LinearOrder α]
    [LinearOrder β]
    {first second : α}
    {other another : β}
    (below_iff : first < second ↔ other < another)
    (above_iff : second < first ↔ another < other) :
    compare first second = compare other another := by
  rcases lt_trichotomy first second with isBelow | rfl | isAbove
  · rw [compare_lt_iff_lt.mpr isBelow, compare_lt_iff_lt.mpr (below_iff.mp isBelow)]
  · have isSame := le_antisymm (not_lt.mp (above_iff.not.mp (lt_irrefl first)))
      (not_lt.mp (below_iff.not.mp (lt_irrefl first)))
    rw [compare_eq_iff_eq.mpr rfl, compare_eq_iff_eq.mpr isSame]
  · rw [compare_gt_iff_gt.mpr isAbove, compare_gt_iff_gt.mpr (above_iff.mp isAbove)]

namespace Double

open Float.Model (Format UnpackedFloat)
open Float.Model.UnpackedFloat

/-!
## Digits at a common exponent

Two doubles are subtracted as the whole numbers that their digits are at the lower one of their
exponents, and they compare as these numbers do.
-/

/-- The digits and the exponent of a double that has digits.  They are normal, or the exponent is
the least one. -/
structure Canonical (digits : Nat) (exponent : Int) : Prop where
  isBelow : digits < 2 ^ 53
  isAbove : -1074 ≤ exponent
  isNormal : 2 ^ 52 ≤ digits ∨ exponent = -1074

/-- What is unpacked has the one bit in front that a double leaves out, unless it is below all of
those that have it. -/
theorem canonical_of_unpack_eq_finite
    {bits : BitVec Format.binary64.numBits}
    {sign : Sign}
    {digits : Nat}
    {exponent : Int}
    {isNonzero : 0 < digits}
    (isFinite : UnpackedFloat.unpack Format.binary64 bits =
      .finite sign digits exponent isNonzero) :
    Canonical digits exponent := by
  have isAbove := le_exponent_of_unpack_eq_finite isFinite
  have isField : (unpackMantissa bits).toNat < 2 ^ 52 := (unpackMantissa bits).isLt
  unfold UnpackedFloat.unpack at isFinite
  dsimp only at isFinite
  split at isFinite
  · split at isFinite <;> cases isFinite
  · split at isFinite
    · rename_i isZero
      split at isFinite
      · cases isFinite
      · cases isFinite
        exact ⟨by omega, isAbove, .inr (by simp [isZero, Format.exponentBias])⟩
    · cases isFinite
      have isDigits : (1#1 ++ unpackMantissa bits).toNat =
          2 ^ 52 + (unpackMantissa bits).toNat := by
        rw [BitVec.toNat_append, ← Nat.shiftLeft_add_eq_or_of_lt isField]
        rfl
      exact ⟨by omega, isAbove, .inl (by omega)⟩

/-- The digits that a number has at a lower exponent. -/
def digitsAt (digits : Nat) (exponent target : Int) : Nat :=
  digits <<< (exponent - target).toNat

section Digits

variable {digits others : Nat} {exponent other : Int}

theorem digitsAt_pos
    (isNonzero : 0 < digits)
    (exponent target : Int) :
    0 < digitsAt digits exponent target := by
  rw [digitsAt, Nat.shiftLeft_eq]
  exact Nat.mul_pos isNonzero (by positivity)

/-- The number with the larger exponent has the larger digits at the lower one. -/
theorem digitsAt_lt_of_lt
    (isCanonical : Canonical digits exponent)
    (isCanonicalToo : Canonical others other)
    (isLess : exponent < other) :
    digitsAt digits exponent (min exponent other) <
      digitsAt others other (min exponent other) := by
  have isNormal : 2 ^ 52 ≤ others :=
    isCanonicalToo.isNormal.resolve_right (isCanonical.isAbove.trans_lt isLess).ne'
  rw [min_eq_left isLess.le]
  calc digitsAt digits exponent exponent
      = digits := by simp [digitsAt]
    _ < 2 ^ 52 * 2 := isCanonical.isBelow
    _ ≤ others * 2 := Nat.mul_le_mul_right 2 isNormal
    _ ≤ others * 2 ^ (other - exponent).toNat :=
        Nat.mul_le_mul_left others (Nat.le_self_pow (by omega) 2)
    _ = digitsAt others other exponent := (Nat.shiftLeft_eq _ _).symm

/-- Doubles compare as the digits that they have at the lower exponent. -/
theorem compare_digitsAt
    (isCanonical : Canonical digits exponent)
    (isCanonicalToo : Canonical others other) :
    compare (digitsAt digits exponent (min exponent other))
        (digitsAt others other (min exponent other)) =
      (compare exponent other).then (compare digits others) := by
  rcases lt_trichotomy exponent other with isLess | rfl | isMore
  · rw [compare_lt_iff_lt.mpr isLess, Ordering.lt_then]
    exact compare_lt_iff_lt.mpr (digitsAt_lt_of_lt isCanonical isCanonicalToo isLess)
  · simp [digitsAt]
  · rw [compare_gt_iff_gt.mpr isMore, Ordering.gt_then, min_comm]
    exact compare_gt_iff_gt.mpr (digitsAt_lt_of_lt isCanonicalToo isCanonical isMore)

end Digits

/-!
## The sign of a difference

A difference is rounded to a number on the same side of zero, so zero compares with it as the number
that is taken away compares with the other one.
-/

/-- Packing and unpacking the opposite of a number gives the opposite. -/
theorem unpack_pack_neg
    (value : UnpackedFloat)
    (isNumber : value ≠ .notANumber) :
    UnpackedFloat.unpack Format.binary64 (UnpackedFloat.pack Format.binary64 value.neg) =
      (UnpackedFloat.unpack Format.binary64 (UnpackedFloat.pack Format.binary64 value)).neg := by
  obtain ⟨sign, exponent, digits, isPacked, isOpposite⟩ :=
    exists_packComponents Format.binary64 isNumber
  rw [isOpposite, isPacked, unpack_packComponents_neg]

theorem zero_compare_of_isPositive
    {value : UnpackedFloat}
    (isPositive : IsPositive value)
    (sign : Sign) :
    (UnpackedFloat.zero sign).compare value = some .lt ∧
      value.compare (.zero sign) = some .gt := by
  obtain rfl | ⟨digits, exponent, isNonzero, rfl⟩ := eq_of_isPositive isPositive
  · exact ⟨rfl, rfl⟩
  · exact ⟨rfl, rfl⟩

theorem round_neg
    (digits : Nat)
    (exponent : Int) :
    UnpackedFloat.round Format.binary64 .negative digits exponent =
      (UnpackedFloat.round Format.binary64 .positive digits exponent).neg := by
  unfold UnpackedFloat.round roundWithAccuracy
  dsimp only
  split
  · rfl
  · rfl

/-- What is below zero is rounded as its opposite is. -/
theorem normalize_of_neg
    {digits : Int}
    {exponent : Int}
    (isNegative : digits < 0) :
    UnpackedFloat.normalize Format.binary64 digits exponent .positive =
      (UnpackedFloat.round Format.binary64 .positive (-digits).toNat exponent).neg := by
  rw [UnpackedFloat.normalize, compare_lt_iff_lt.mpr isNegative]
  exact round_neg _ _

/-- What is rounded and packed stays on its side of zero. -/
theorem zero_compare_normalize
    (digits : Int)
    {exponent : Int}
    (isAbove : -1074 ≤ exponent) :
    (UnpackedFloat.zero .positive).compare
      (UnpackedFloat.unpack Format.binary64 (UnpackedFloat.pack Format.binary64
        (UnpackedFloat.normalize Format.binary64 digits exponent .positive))) =
      some (compare 0 digits) := by
  rcases lt_trichotomy digits 0 with isNegative | rfl | isPositive
  · have isPositive : 0 < (-digits).toNat := by omega
    obtain ⟨others, other, fits, isRounded⟩ := exists_round_eq isPositive isAbove
    rw [normalize_of_neg isNegative, isRounded, compare_gt_iff_gt.mpr isNegative,
      unpack_pack_neg (.finite .positive others other fits.isNonzero) (by simp)]
    change (UnpackedFloat.zero Sign.negative).neg.compare _ = _
    rw [compare_neg_neg]
    exact (zero_compare_of_isPositive (isPositive_unpack_pack fits) _).2
  · change UnpackedFloat.compare _ (UnpackedFloat.unpack Format.binary64
      (UnpackedFloat.packedZero Format.binary64 .positive)) = _
    rw [unpack_packedZero]
    rfl
  · lift digits to Nat using isPositive.le
    have isPositive : 0 < digits := by omega
    rw [compare_lt_iff_lt.mpr (by omega)]
    exact (zero_compare_of_isPositive (isPositive_normalize isPositive isAbove) _).1

theorem zero_compare_sub_finite
    {sign otherSign : Sign}
    {digits others : Nat}
    {exponent other : Int}
    {isNonzero : 0 < digits}
    {isNonzeroToo : 0 < others}
    (isCanonical : Canonical digits exponent)
    (isCanonicalToo : Canonical others other) :
    (UnpackedFloat.zero .positive).compare
      (UnpackedFloat.unpack Format.binary64 (UnpackedFloat.pack Format.binary64
        (UnpackedFloat.sub Format.binary64 (.finite sign digits exponent isNonzero)
          (.finite otherSign others other isNonzeroToo)))) =
      (UnpackedFloat.finite otherSign others other isNonzeroToo).compare
        (.finite sign digits exponent isNonzero) := by
  have isCompared := compare_digitsAt isCanonicalToo isCanonical
  have isPositive := digitsAt_pos isNonzero exponent (min exponent other)
  have isPositiveToo := digitsAt_pos isNonzeroToo other (min exponent other)
  rw [UnpackedFloat.sub]
  dsimp only [decreaseExponent]
  rw [zero_compare_normalize _ (le_min isCanonical.isAbove isCanonicalToo.isAbove), ← digitsAt,
    ← digitsAt]
  rw [min_comm] at isCompared
  generalize digitsAt digits exponent (min exponent other) = first at *
  generalize digitsAt others other (min exponent other) = second at *
  cases sign <;> cases otherSign <;>
    simp only [Sign.apply, UnpackedFloat.compare, ← isCompared, Option.some.injEq]
  case negative.negative =>
    rw [Nat.compare_swap]
    exact compare_congr (by omega) (by omega)
  case negative.positive =>
    exact compare_gt_iff_gt.mpr (by omega)
  case positive.negative =>
    exact compare_lt_iff_lt.mpr (by omega)
  case positive.positive =>
    exact compare_congr (by omega) (by omega)

/-- The difference of two doubles is packed once. -/
theorem unpack_sub
    (first second : Float) :
    (first - second).toModel.unpack =
      UnpackedFloat.unpack Format.binary64 (UnpackedFloat.pack Format.binary64
        (UnpackedFloat.sub Format.binary64 first.toModel.unpack second.toModel.unpack)) :=
  rfl

/-- An infinity has no difference from itself. -/
theorem unpack_sub_of_infinity
    {first second : Float}
    {sign : Sign}
    (isFirst : first.toModel.unpack = .infinity sign)
    (isSecond : second.toModel.unpack = .infinity sign) :
    (first - second).toModel.unpack = .notANumber := by
  rw [unpack_sub, isFirst, isSecond]
  cases sign
  · exact unpack_packedNaN
  · exact unpack_packedNaN

theorem unpack_packedInfinity
    (sign : Sign) :
    UnpackedFloat.unpack Format.binary64 (packedInfinity Format.binary64 sign) =
      .infinity sign := by
  simp [UnpackedFloat.unpack, packedInfinity]

/-- Zero compares with the difference of two doubles as these compare, unless both are the same
infinity. -/
theorem zero_compare_unpack_sub
    {first second : Float}
    (notInfinity : ∀ sign, first.toModel.unpack = .infinity sign →
      second.toModel.unpack ≠ .infinity sign) :
    (UnpackedFloat.zero .positive).compare (first - second).toModel.unpack =
      second.toModel.unpack.compare first.toModel.unpack := by
  have isNaN : UnpackedFloat.unpack Format.binary64 (packedNaN Format.binary64) = .notANumber :=
    unpack_packedNaN
  have isItself := unpack_pack_unpack first
  have isOpposite := unpack_pack_unpack (-second)
  rw [unpack_neg] at isOpposite
  rw [unpack_sub]
  cases isFirst : first.toModel.unpack with
  | notANumber =>
      cases second.toModel.unpack <;> exact congrArg _ isNaN
  | infinity sign =>
      cases isSecond : second.toModel.unpack with
      | notANumber =>
          exact congrArg _ isNaN
      | infinity other =>
          have isOther : sign ≠ other := by
            rintro rfl
            exact notInfinity sign isFirst isSecond
          cases sign <;> cases other <;>
            first
              | exact absurd rfl isOther
              | exact congrArg _ (unpack_packedInfinity _)
      | zero other | finite other others otherExponent isNonzero =>
          cases sign <;> exact congrArg _ (unpack_packedInfinity _)
  | zero sign =>
      cases isSecond : second.toModel.unpack with
      | notANumber =>
          exact congrArg _ isNaN
      | infinity other =>
          cases other <;> exact congrArg _ (unpack_packedInfinity _)
      | zero other =>
          cases sign <;> cases other <;> exact congrArg _ unpack_packedZero
      | finite other others otherExponent isNonzero =>
          rw [isSecond] at isOpposite
          cases other <;> exact congrArg _ isOpposite
  | finite sign digits exponent isNonzero =>
      cases isSecond : second.toModel.unpack with
      | notANumber =>
          exact congrArg _ isNaN
      | infinity other =>
          cases sign <;> cases other <;> exact congrArg _ (unpack_packedInfinity _)
      | zero other =>
          rw [isFirst] at isItself
          cases sign <;> exact congrArg _ isItself
      | finite other others otherExponent isNonzeroToo =>
          exact zero_compare_sub_finite (canonical_of_unpack_eq_finite isFirst)
            (canonical_of_unpack_eq_finite isSecond)

theorem sub_unpack_neg
    (first second : UnpackedFloat) :
    UnpackedFloat.sub Format.binary64 first second.neg =
      UnpackedFloat.add Format.binary64 first second := by
  rcases first with sign | _ | sign | ⟨sign, digits, exponent, isNonzero⟩ <;>
    rcases second with other | _ | other | ⟨other, others, otherExponent, isNonzeroToo⟩ <;>
    (try cases sign) <;> (try cases other) <;> try rfl
  all_goals
    exact congrArg (UnpackedFloat.normalize Format.binary64 · _ _) (sub_neg_eq_add _ _)

/-- A sum is the difference from the opposite. -/
theorem add_eq_sub_neg
    (first second : Float) :
    first + second = first - -second := by
  change Float.ofModel (first.toModel.add second.toModel) =
    Float.ofModel (first.toModel.sub (-second).toModel)
  rw [Float.Model.add, Float.Model.sub, unpack_neg, sub_unpack_neg]

/-- Only NaN does not compare. -/
theorem compare_eq_none_iff
    (first second : UnpackedFloat) :
    first.compare second = none ↔ first.isNaN = true ∨ second.isNaN = true := by
  rcases first with sign | _ | sign | ⟨sign, digits, exponent, isNonzero⟩ <;>
    rcases second with other | _ | other | ⟨other, others, otherExponent, isNonzeroToo⟩ <;>
    (try cases sign) <;> (try cases other) <;>
    simp [UnpackedFloat.isNaN, UnpackedFloat.compare]

theorem beq_comm
    (first second : UnpackedFloat) :
    first.beq second = second.beq first := by
  rw [Bool.eq_iff_iff, beq_iff_place?, beq_iff_place?]
  exact exists_congr fun place => and_comm

theorem abs_eq_or
    (value : UnpackedFloat) :
    value.abs = value ∨ value.abs = value.neg := by
  rcases value with sign | _ | sign | ⟨sign, digits, exponent, isNonzero⟩ <;>
    (try cases sign) <;> first | exact .inl rfl | exact .inr rfl

/-- The distance of a double from zero is the double or its opposite. -/
theorem unpack_abs
    (value : Float) :
    value.abs.toModel.unpack = value.toModel.unpack ∨
      value.abs.toModel.unpack = value.toModel.unpack.neg := by
  change UnpackedFloat.unpack Format.binary64 (UnpackedFloat.pack Format.binary64
    value.toModel.unpack.abs) = _ ∨ UnpackedFloat.unpack Format.binary64
      (UnpackedFloat.pack Format.binary64 value.toModel.unpack.abs) = _
  have isOpposite := unpack_pack_unpack (-value)
  rw [unpack_neg] at isOpposite
  rcases abs_eq_or value.toModel.unpack with isSame | isTurned
  · exact .inl (by rw [isSame, unpack_pack_unpack])
  · exact .inr (by rw [isTurned, isOpposite])

section Differences

variable {first second value step : Float}

theorem eq_infinity_of_isFinite
    {value : UnpackedFloat}
    (isNumber : value.isNaN = false)
    (notFinite : value.isFinite = false) :
    ∃ sign, value = .infinity sign := by
  cases value with
  | infinity sign => exact ⟨sign, rfl⟩
  | notANumber => cases isNumber
  | zero sign => cases notFinite
  | finite sign digits exponent isNonzero => cases notFinite

/-- Equal doubles are the same infinity, or both finite. -/
theorem isFinite_eq_of_beq
    {first second : UnpackedFloat}
    (isSame : first.beq second = true) :
    first.isFinite = second.isFinite ∧
      ∀ sign, first = .infinity sign ↔ second = .infinity sign := by
  rcases first with sign | _ | sign | ⟨sign, digits, exponent, isNonzero⟩ <;>
    rcases second with other | _ | other | ⟨other, others, otherExponent, isNonzeroToo⟩ <;>
    (try cases sign) <;> (try cases other) <;>
    simp_all [UnpackedFloat.beq, UnpackedFloat.compare, UnpackedFloat.isFinite]

theorem exists_infinity_or_zero_compare_unpack_sub
    (first second : Float) :
    (∃ sign, first.toModel.unpack = .infinity sign ∧ second.toModel.unpack = .infinity sign ∧
        (first - second).toModel.unpack = .notANumber) ∨
      (∀ sign, first.toModel.unpack = .infinity sign → second.toModel.unpack ≠ .infinity sign) ∧
        (UnpackedFloat.zero .positive).compare (first - second).toModel.unpack =
          second.toModel.unpack.compare first.toModel.unpack := by
  by_cases areInfinite : ∃ sign, first.toModel.unpack = .infinity sign ∧
      second.toModel.unpack = .infinity sign
  · obtain ⟨sign, isFirst, isSecond⟩ := areInfinite
    exact .inl ⟨sign, isFirst, isSecond, unpack_sub_of_infinity isFirst isSecond⟩
  · have notInfinity : ∀ sign, first.toModel.unpack = .infinity sign →
        second.toModel.unpack ≠ .infinity sign :=
      fun sign isFirst isSecond => areInfinite ⟨sign, isFirst, isSecond⟩
    exact .inr ⟨notInfinity, zero_compare_unpack_sub notInfinity⟩

/-- A difference is above zero where its first part is above the second. -/
theorem sub_pos_iff :
    0 < first - second ↔ second < first := by
  have isZero : (0 : Float).toModel.unpack = .zero .positive := rfl
  rw [lt_iff_unpack, lt_iff_unpack, isZero, UnpackedFloat.lt, UnpackedFloat.lt]
  obtain ⟨sign, isFirst, isSecond, isNaN⟩ | ⟨-, isCompared⟩ :=
    exists_infinity_or_zero_compare_unpack_sub first second
  · rw [isNaN, isFirst, isSecond]
    cases sign <;> decide
  · rw [isCompared]

/-- A difference is zero where its parts are equal and finite. -/
theorem sub_beq_zero_iff :
    (first - second == 0) = true ↔
      (first == second) = true ∧ first.toModel.unpack.isFinite = true := by
  change (first - second).toModel.unpack.beq (.zero .positive) = true ↔
    first.toModel.unpack.beq second.toModel.unpack = true ∧ _
  obtain ⟨sign, isFirst, isSecond, isNaN⟩ | ⟨notInfinity, isCompared⟩ :=
    exists_infinity_or_zero_compare_unpack_sub first second
  · rw [isNaN, isFirst]
    simp [UnpackedFloat.beq, UnpackedFloat.compare, UnpackedFloat.isFinite]
  · rw [beq_comm, beq_comm first.toModel.unpack, UnpackedFloat.beq, UnpackedFloat.beq, isCompared,
      ← UnpackedFloat.beq, iff_self_and]
    intro isSame
    by_contra notFinite
    have isNumber : first.toModel.unpack.isNaN = false := by
      rw [← Bool.not_eq_true]
      intro isNaN
      have isNone := (compare_eq_none_iff second.toModel.unpack _).mpr (.inr isNaN)
      rw [UnpackedFloat.beq, isNone] at isSame
      cases isSame
    obtain ⟨sign, isFirst⟩ := eq_infinity_of_isFinite isNumber (Bool.eq_false_iff.mpr notFinite)
    exact notInfinity sign isFirst (((isFinite_eq_of_beq isSame).2 sign).mpr isFirst)

/-- A difference of which one part is finite is NaN only where one of them is. -/
theorem isNaN_sub
    (isNumber : first.toModel.unpack.isNaN = false)
    (isNumberToo : second.toModel.unpack.isNaN = false)
    (isFinite : first.toModel.unpack.isFinite = true ∨
      second.toModel.unpack.isFinite = true) :
    (first - second).toModel.unpack.isNaN = false := by
  obtain ⟨sign, isFirst, isSecond, -⟩ | ⟨-, isCompared⟩ :=
    exists_infinity_or_zero_compare_unpack_sub first second
  · rw [isFirst, isSecond] at isFinite
    rcases isFinite with isFinite | isFinite <;> cases isFinite
  · rw [← Bool.not_eq_true]
    intro isNaN
    have isNone := (compare_eq_none_iff (.zero .positive) _).mpr (.inr isNaN)
    rw [isCompared, compare_eq_none_iff, isNumber, isNumberToo] at isNone
    rcases isNone with isNaN | isNaN <;> cases isNaN

/-- Nothing can be taken away from NaN. -/
theorem isNaN_sub_of_isNaN
    (isNaN : first.toModel.unpack.isNaN = true) :
    (first - second).toModel.unpack.isNaN = true := by
  rw [unpack_sub]
  cases isFirst : first.toModel.unpack with
  | notANumber =>
      exact congrArg UnpackedFloat.isNaN unpack_packedNaN
  | infinity _ | zero _ | finite _ _ _ _ =>
      rw [isFirst] at isNaN
      cases isNaN

theorem isNaN_neg
    (value : UnpackedFloat) :
    value.neg.isNaN = value.isNaN ∧ value.neg.isFinite = value.isFinite := by
  cases value <;> exact ⟨rfl, rfl⟩

theorem isNaN_abs
    (value : Float) :
    value.abs.toModel.unpack.isNaN = value.toModel.unpack.isNaN := by
  rcases unpack_abs value with isSame | isTurned
  · rw [isSame]
  · rw [isTurned, (isNaN_neg _).1]

/-- Taking a zero away from a zero leaves one, and changes nothing else. -/
theorem sub_zero_eq_or
    (value : UnpackedFloat)
    (sign : Sign) :
    UnpackedFloat.sub Format.binary64 value (.zero sign) = value ∨
      ∃ other another, value = .zero other ∧
        UnpackedFloat.sub Format.binary64 value (.zero sign) = .zero another := by
  cases value with
  | zero other =>
      refine .inr ⟨other, ?_⟩
      cases sign <;> cases other <;> exact ⟨_, rfl, rfl⟩
  | infinity other | notANumber | finite other digits exponent isNonzero => exact .inl rfl

/-- Taking a zero away changes a double at most in the sign of a zero. -/
theorem same_sub_zero
    (isZero : (step == 0) = true) :
    Scalar.same (value - step) value = true := by
  obtain ⟨sign, isStep⟩ := exists_unpack_eq_zero isZero
  change ((value - step).toModel.unpack.beq value.toModel.unpack ||
    (value - step).toModel.unpack.isNaN && value.toModel.unpack.isNaN) = true
  rw [unpack_sub, isStep]
  obtain isSame | ⟨other, another, isValue, isZero⟩ := sub_zero_eq_or value.toModel.unpack sign
  · rw [isSame, unpack_pack_unpack]
    cases isNaN : value.toModel.unpack.isNaN with
    | true => simp
    | false =>
        have isSelf : (value == value) = true := by
          rw [NumericScalar.beq_iff_le]
          exact ⟨NumericScalar.le_self isNaN, NumericScalar.le_self isNaN⟩
        exact Bool.or_eq_true_iff.mpr (.inl isSelf)
  · rw [isZero, isValue]
    change (UnpackedFloat.beq (UnpackedFloat.unpack Format.binary64
      (UnpackedFloat.packedZero Format.binary64 another)) _ || _) = true
    rw [unpack_packedZero]
    rfl

/-- The opposite of a zero is a zero. -/
theorem neg_beq_zero
    (isZero : (step == 0) = true) :
    (-step == 0) = true := by
  obtain ⟨sign, isStep⟩ := exists_unpack_eq_zero isZero
  change (-step).toModel.unpack.beq (.zero .positive) = true
  rw [unpack_neg, isStep]
  rfl

end Differences

end Double

instance : SubtractingScalar Float where
  isNaN_of_isFinite value isFinite := by
    change value.toModel.unpack.isFinite = true at isFinite
    change value.toModel.unpack.isNaN = false
    cases isValue : value.toModel.unpack with
    | notANumber =>
        rw [isValue] at isFinite
        cases isFinite
    | _ => rfl
  isFinite_of_beq first second isSame isFinite :=
    (Double.isFinite_eq_of_beq isSame).1.trans isFinite
  sub_pos_iff _ _ := Double.sub_pos_iff
  sub_beq_zero_iff _ _ := Double.sub_beq_zero_iff
  isNaN_sub _ _ := Double.isNaN_sub
  isNaN_sub_of_isNaN _ _ := Double.isNaN_sub_of_isNaN
  isNaN_add first second isNumber isNumberToo isFinite := by
    have isOpposite := Double.unpack_neg second
    rw [Double.add_eq_sub_neg]
    refine Double.isNaN_sub isNumber ?_ (isFinite.imp_right ?_)
    · rw [isOpposite, (Double.isNaN_neg _).1]
      exact isNumberToo
    · rw [isOpposite, (Double.isNaN_neg _).2]
      exact id
  isNaN_magnitude := Double.isNaN_abs
  same_sub_zero _ _ := Double.same_sub_zero
  same_add_zero value step isZero := by
    rw [Double.add_eq_sub_neg]
    exact Double.same_sub_zero (Double.neg_beq_zero isZero)

end Optima
