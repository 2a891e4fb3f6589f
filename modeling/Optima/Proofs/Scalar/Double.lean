import Mathlib
import Optima.Proofs.Scalar.Comparison

namespace Optima

/-!
# Doubles

Doubles are numbers that compare unless one of them is NaN, and their opposites are ordered the
other way round.  Their sums are rounded, but never across zero: what is added to a number above
zero without being below zero itself leads to a number above zero, or to infinity.
-/

open Float.Model (Format UnpackedFloat totalExponent)
open Float.Model.UnpackedFloat

namespace Double

/-!
## Comparing doubles
-/

/-- Doubles are compared by their unpacked forms. -/
theorem lt_iff_unpack
    (first second : Float) :
    first < second ↔ first.toModel.unpack.lt second.toModel.unpack = true :=
  decide_eq_true_iff

section Opposites

/-- The order of two numbers is turned round by turning round both of its parts. -/
theorem swap_then_compare
    (exponent other : Int)
    (digits others : Nat) :
    ((compare exponent other).then (compare digits others)).swap =
      (compare other exponent).then (compare others digits) := by
  rw [Ordering.swap_then, Int.compare_swap, Nat.compare_swap]

variable {format : Format}

/-- Components with the other sign make the opposite. -/
theorem unpack_packComponents_neg
    (sign : Sign)
    (exponent : BitVec format.exponentBits)
    (digits : BitVec format.mantissaBitsWithoutImplicit) :
    unpack format (packComponents format (-sign) exponent digits) =
      (unpack format (packComponents format sign exponent digits)).neg := by
  simp only [unpack, unpackExponent_packComponents, unpackMantissa_packComponents,
    unpackSign_packComponents, Sign.ofBitVec_toBitVec]
  split
  · split <;> rfl
  · split
    · split <;> rfl
    · rfl

/-- A double and its opposite have the same components but for the sign. -/
theorem exists_packComponents
    (format : Format)
    {value : UnpackedFloat}
    (isNumber : value ≠ .notANumber) :
    ∃ sign exponent digits,
      pack format value = packComponents format sign exponent digits ∧
        pack format value.neg = packComponents format (-sign) exponent digits := by
  cases value with
  | notANumber => exact absurd rfl isNumber
  | infinity sign => exact ⟨sign, _, _, rfl, rfl⟩
  | zero sign => exact ⟨sign, _, _, rfl, rfl⟩
  | finite sign digits exponent isPositive =>
      refine ⟨sign, ?_⟩
      simp only [pack, UnpackedFloat.neg]
      split
      · exact ⟨_, _, rfl, rfl⟩
      · split
        · exact ⟨_, _, rfl, rfl⟩
        · exact ⟨_, _, rfl, rfl⟩

/-- The opposite of a double is read off the double. -/
theorem unpack_neg
    (value : Float) :
    (-value).toModel.unpack = value.toModel.unpack.neg := by
  have isSame := pack_unpack_of_valid value.toModel.valid
  change unpack Format.binary64 (pack Format.binary64 value.toModel.unpack.neg) = _
  by_cases isNumber : value.toModel.unpack = .notANumber
  · rw [isNumber]
    exact unpack_packedNaN
  · obtain ⟨sign, exponent, digits, isPacked, isOpposite⟩ :=
      exists_packComponents Format.binary64 isNumber
    rw [isOpposite, unpack_packComponents_neg, ← isPacked]
    exact congrArg (fun bits => (unpack Format.binary64 bits).neg) isSame

/-- Of two opposites the order is the other one. -/
theorem compare_neg_neg
    (first second : UnpackedFloat) :
    first.neg.compare second.neg = second.compare first := by
  rcases first with sign | _ | sign | ⟨sign, digits, exponent, isPositive⟩ <;>
    rcases second with other | _ | other | ⟨other, others, otherExponent, isPositiveToo⟩ <;>
    (try cases sign) <;> (try cases other) <;>
    first
      | rfl
      | exact congrArg some (swap_then_compare _ _ _ _)
      | exact congrArg some (swap_then_compare _ _ _ _).symm

end Opposites

/-- Two doubles are equal if they have the same place. -/
theorem beq_iff_place?
    (first second : UnpackedFloat) :
    first.beq second = true ↔
      ∃ place, place? first = some place ∧ place? second = some place := by
  rcases first with sign | _ | sign | ⟨sign, digits, exponent, isPositive⟩ <;>
    rcases second with other | _ | other | ⟨other, others, otherExponent, isPositiveToo⟩ <;>
    (try cases sign) <;> (try cases other) <;>
    dsimp only [UnpackedFloat.beq, UnpackedFloat.compare, place?] <;>
    simp [Ordering.then_eq_eq, compare_negative_positive, compare_positive_negative,
      compare_sign_self]
  all_goals exact and_congr eq_comm eq_comm

/-- NaN alone has no place. -/
theorem isNaN_iff_place?
    (value : UnpackedFloat) :
    value.isNaN = true ↔ place? value = none := by
  rcases value with sign | _ | sign | ⟨sign, digits, exponent, isPositive⟩ <;>
    (try cases sign) <;> simp [UnpackedFloat.isNaN, place?]

theorem exists_place?
    {value : Float}
    (isNumber : Scalar.isNaN value = false) :
    ∃ place, place? value.toModel.unpack = some place := by
  rw [← Option.ne_none_iff_exists', Ne, ← isNaN_iff_place?]
  exact Bool.eq_false_iff.mp isNumber

theorem isNaN_eq_false_of_place?
    {value : Float}
    {place : Int ×ₗ Int ×ₗ Int}
    (isPlace : place? value.toModel.unpack = some place) :
    Scalar.isNaN value = false := by
  refine Bool.eq_false_iff.mpr fun isNaN => ?_
  rw [(isNaN_iff_place? _).mp isNaN] at isPlace
  cases isPlace

end Double

instance : NumericScalar Float where
  isNaN_eq_false_of_le first second := by
    rw [Double.le_iff]
    rintro ⟨place, other, isPlace, isOther, -⟩
    exact ⟨Double.isNaN_eq_false_of_place? isPlace, Double.isNaN_eq_false_of_place? isOther⟩
  le_of_not_lt first second isNumber isNumberToo notBelow := by
    obtain ⟨place, isPlace⟩ := Double.exists_place? isNumber
    obtain ⟨other, isOther⟩ := Double.exists_place? isNumberToo
    refine (Double.le_iff first second).mpr ⟨place, other, isPlace, isOther, ?_⟩
    refine le_of_not_gt fun isBelow => notBelow ?_
    exact (Double.lt_iff second first).mpr ⟨other, place, isOther, isPlace, isBelow⟩
  beq_iff_le first second := by
    change first.toModel.unpack.beq second.toModel.unpack = true ↔ _
    rw [Double.beq_iff_place?, Double.le_iff, Double.le_iff]
    constructor
    · rintro ⟨place, isPlace, isSame⟩
      exact ⟨⟨place, place, isPlace, isSame, le_rfl⟩, ⟨place, place, isSame, isPlace, le_rfl⟩⟩
    · rintro ⟨⟨place, other, isPlace, isOther, atMost⟩, again, same, isAgain, isSame, atLeast⟩
      obtain rfl := Option.some.inj (isOther.symm.trans isAgain)
      obtain rfl := Option.some.inj (isPlace.symm.trans isSame)
      exact ⟨place, isPlace, atMost.antisymm atLeast ▸ isOther⟩
  neg_lt_neg_iff first second := by
    rw [Double.lt_iff_unpack, Double.lt_iff_unpack, Double.unpack_neg, Double.unpack_neg]
    rw [UnpackedFloat.lt, Double.compare_neg_neg, ← UnpackedFloat.lt]

namespace Double

/-!
## Doubles above zero

A double other than NaN is above zero, below it, or one of the two zeros.
-/

/-- A double is above zero. -/
def IsPositive : UnpackedFloat → Prop
  | .infinity .positive | .finite .positive _ _ _ => True
  | .infinity .negative | .finite .negative _ _ _ | .zero _ | .notANumber => False

theorem zero_lt_iff
    (value : Float) :
    0 < value ↔ IsPositive value.toModel.unpack := by
  have isZero : (0 : Float).toModel.unpack = .zero .positive := rfl
  rw [lt_iff_unpack, isZero]
  rcases value.toModel.unpack with sign | _ | sign | ⟨sign, digits, exponent, isPositive⟩ <;>
    (try cases sign) <;> simp [UnpackedFloat.lt, UnpackedFloat.compare, IsPositive]

/-- What is not below zero is above it, or is one of the zeros. -/
theorem zero_le_iff
    (value : Float) :
    0 ≤ value ↔
      IsPositive value.toModel.unpack ∨ ∃ sign, value.toModel.unpack = .zero sign := by
  have isZero : (0 : Float).toModel.unpack = .zero .positive := rfl
  rw [le_iff, isZero]
  rcases value.toModel.unpack with sign | _ | sign | ⟨sign, digits, exponent, isPositive⟩ <;>
    (try cases sign) <;> simp [place?, Prod.Lex.le_iff, IsPositive]

/-- A number above zero is infinite, or has digits. -/
theorem eq_of_isPositive
    {value : UnpackedFloat}
    (isPositive : IsPositive value) :
    value = .infinity .positive ∨
      ∃ digits exponent, ∃ isNonzero : 0 < digits,
        value = .finite .positive digits exponent isNonzero := by
  rcases value with sign | _ | sign | ⟨sign, digits, exponent, isNonzero⟩ <;>
    (try cases sign) <;> simp [IsPositive] at isPositive ⊢
  exact isNonzero

/-!
## Packing and rounding what is above zero

The digits of a sum are shifted to where they belong, rounded, and shifted again if rounding made
one digit too many of them.  A shift does not leave zero of digits above zero, as a double can hold
the exponent that the digits start with.
-/

/-- What a double can have as its digits and exponent. -/
structure Fits (digits : Nat) (exponent : Int) : Prop where
  isNonzero : 0 < digits
  isBelow : digits < 2 ^ 53
  isAbove : -1074 ≤ exponent

theorem isPositive_unpack_infinity :
    IsPositive (UnpackedFloat.unpack Format.binary64
      (UnpackedFloat.pack Format.binary64 (.infinity .positive))) := by
  simp [UnpackedFloat.unpack, UnpackedFloat.pack, packedInfinity, IsPositive]

/-- Components make a number above zero unless they are those of NaN or of a zero. -/
theorem isPositive_unpack_packComponents
    {exponent : BitVec 11}
    {digits : BitVec 52}
    (isFinite : exponent ≠ -1#11)
    (notZero : exponent ≠ 0#11 ∨ digits ≠ 0#52) :
    IsPositive (UnpackedFloat.unpack Format.binary64
      (packComponents Format.binary64 .positive exponent digits)) := by
  simp only [UnpackedFloat.unpack, unpackExponent_packComponents, unpackMantissa_packComponents,
    unpackSign_packComponents, Sign.ofBitVec_toBitVec]
  rw [if_neg isFinite]
  split
  · rename_i isSmall
    rw [dif_neg (notZero.resolve_left (not_not.mpr isSmall))]
    trivial
  · trivial

/-- What is above zero and fits is above zero when it is packed, be it as an infinity. -/
theorem isPositive_unpack_pack
    {digits : Nat}
    {exponent : Int}
    (fits : Fits digits exponent) :
    IsPositive (UnpackedFloat.unpack Format.binary64
      (UnpackedFloat.pack Format.binary64 (.finite .positive digits exponent fits.isNonzero))) := by
  obtain ⟨isPositive, isBelow, isAbove⟩ := fits
  have isField : ∀ field : Nat, field + 1 < 2 ^ 11 →
      (BitVec.ofNat 11 field).toNat = field := fun field isBelow =>
    (BitVec.toNat_ofNat field 11).trans (Nat.mod_eq_of_lt (by omega))
  unfold UnpackedFloat.pack
  dsimp only
  split
  · exact isPositive_unpack_infinity
  · rename_i isFinite
    simp only [Format.exponentBias] at isFinite ⊢
    set field := (exponent + ((2 ^ (11 - 1) - 1 : Nat) : Int) + (52 : Nat)).toNat with isThis
    have isAtField := isField field (not_le.mp isFinite)
    split
    · refine isPositive_unpack_packComponents (fun isOnes => ?_) (.inl fun isZero => ?_)
      · rw [isOnes, BitVec.neg_one_eq_allOnes, BitVec.toNat_allOnes] at isAtField
        omega
      · rw [isZero, BitVec.toNat_zero] at isAtField
        omega
    · rename_i isSmall
      refine isPositive_unpack_packComponents (by decide) (.inr fun isZero => ?_)
      have isLess : digits.log2 < 53 := (Nat.log2_lt isPositive.ne').mpr isBelow
      have isSubnormal : digits < 2 ^ 52 := by
        refine (Nat.log2_lt isPositive.ne').mp ?_
        simp only [Format.mantissaBits] at isSmall
        omega
      have isDigits := congrArg BitVec.toNat isZero
      rw [BitVec.toNat_ofNat, Nat.mod_eq_of_lt isSubnormal, BitVec.toNat_zero] at isDigits
      exact isPositive.ne' isDigits

theorem shiftRight_mantissa
    (extended : ExtendedMantissa)
    (amount : Nat) :
    (extended >>> amount).mantissa = extended.mantissa / 2 ^ amount := by
  change (amount.repeat ExtendedMantissa.shiftRightOne extended).mantissa = _
  induction amount with
  | zero =>
      simp [Nat.repeat]
  | succ amount inductionHypothesis =>
      rw [Nat.repeat, ExtendedMantissa.shiftRightOne, inductionHypothesis, Nat.pow_succ,
        Nat.div_div_eq_div_mul]

/-- Rounding digits does not make them less. -/
theorem mantissa_le_roundedMantissa
    (extended : ExtendedMantissa) :
    extended.mantissa ≤ extended.roundedMantissa := by
  rcases extended with ⟨digits, roundBit, stickyBit⟩
  cases roundBit <;> cases stickyBit <;>
    simp [ExtendedMantissa.roundedMantissa, ExtendedMantissa.accuracy,
      Accuracy.roundToNearestEven]

/-- Digits that are shifted to where they belong fit, and do not vanish. -/
theorem fits_shiftToTargetExponent
    {digits : Nat}
    {exponent : Int}
    (isPositive : 0 < digits)
    (isAbove : -1074 ≤ exponent) :
    Fits (shiftToTargetExponent Format.binary64 digits exponent .exact).1.mantissa
      (shiftToTargetExponent Format.binary64 digits exponent .exact).2 := by
  set target := Format.binary64.targetExponent (totalExponent digits exponent) with isTarget
  have isTarget : target = max (digits.log2 + exponent - 52) (-1074) := by
    simp only [isTarget, Format.targetExponent, totalExponent, Format.mantissaBits,
      Format.minExponent]
    omega
  have isMantissa :
      (shiftToTargetExponent Format.binary64 digits exponent .exact).1.mantissa =
        digits / 2 ^ (target - exponent).toNat :=
    shiftRight_mantissa _ _
  have isExponent :
      (shiftToTargetExponent Format.binary64 digits exponent .exact).2 =
        exponent + (target - exponent).toNat :=
    rfl
  have atLeast := Nat.log2_self_le isPositive.ne'
  have below := Nat.lt_log2_self (n := digits)
  refine ⟨?_, ?_, by omega⟩
  · rw [isMantissa]
    refine Nat.div_pos (le_trans (Nat.pow_le_pow_right two_pos ?_) atLeast) (by positivity)
    omega
  · rw [isMantissa, Nat.div_lt_iff_lt_mul (by positivity), ← Nat.pow_add]
    exact below.trans_le (Nat.pow_le_pow_right two_pos (by omega))

/-- What is above zero is rounded to what fits. -/
theorem exists_round_eq
    {digits : Nat}
    {exponent : Int}
    (isPositive : 0 < digits)
    (isAbove : -1074 ≤ exponent) :
    ∃ others other, ∃ fits : Fits others other,
      UnpackedFloat.round Format.binary64 .positive digits exponent =
        .finite .positive others other fits.isNonzero := by
  unfold UnpackedFloat.round
  set start := decreaseExponent digits exponent
    (Format.binary64.targetExponent (totalExponent digits exponent)) with isStart
  have isPositiveStart : 0 < start.1 := by
    rw [isStart, decreaseExponent, Nat.shiftLeft_eq]
    exact Nat.mul_pos isPositive (by positivity)
  have isAboveStart : -1074 ≤ start.2 := by
    simp only [isStart, decreaseExponent, Format.targetExponent, Format.mantissaBits,
      Format.minExponent]
    omega
  have firstFits := fits_shiftToTargetExponent isPositiveStart isAboveStart
  set first := shiftToTargetExponent Format.binary64 start.1 start.2 .exact with isFirst
  have isPositiveFirst : 0 < first.1.roundedMantissa :=
    firstFits.isNonzero.trans_le (mantissa_le_roundedMantissa _)
  have lastFits := fits_shiftToTargetExponent isPositiveFirst firstFits.isAbove
  refine ⟨_, _, lastFits, ?_⟩
  exact dif_neg lastFits.isNonzero.ne'

/-- A double that is not zero and not infinite has an exponent of doubles. -/
theorem le_exponent_of_unpack_eq_finite
    {bits : BitVec Format.binary64.numBits}
    {sign : Sign}
    {digits : Nat}
    {exponent : Int}
    {isPositive : 0 < digits}
    (isFinite : UnpackedFloat.unpack Format.binary64 bits =
      .finite sign digits exponent isPositive) :
    -1074 ≤ exponent := by
  unfold UnpackedFloat.unpack at isFinite
  dsimp only at isFinite
  split at isFinite
  · split at isFinite <;> cases isFinite
  · split at isFinite
    · split at isFinite
      · cases isFinite
      · cases isFinite
        simp only [Format.exponentBias]
        omega
    · rename_i notZero
      cases isFinite
      have isPositiveField : (unpackExponent bits).toNat ≠ 0 := fun isZero =>
        notZero (BitVec.eq_of_toNat_eq isZero)
      simp only [Format.exponentBias]
      omega

/-- What is above zero is above zero when it is rounded and packed. -/
theorem isPositive_normalize
    {digits : Nat}
    {exponent : Int}
    (isPositive : 0 < digits)
    (isAbove : -1074 ≤ exponent) :
    IsPositive (UnpackedFloat.unpack Format.binary64 (UnpackedFloat.pack Format.binary64
      (UnpackedFloat.normalize Format.binary64 digits exponent .positive))) := by
  obtain ⟨others, other, fits, isRounded⟩ := exists_round_eq isPositive isAbove
  have isGreater : compare (digits : Int) 0 = .gt := compare_gt_iff_gt.mpr (by omega)
  rw [UnpackedFloat.normalize, isGreater]
  change IsPositive (UnpackedFloat.unpack Format.binary64 (UnpackedFloat.pack Format.binary64
    (UnpackedFloat.round Format.binary64 .positive digits exponent)))
  rw [isRounded]
  exact isPositive_unpack_pack fits

theorem isPositive_add_finite
    {digits others : Nat}
    {exponent other : Int}
    (isPositive : 0 < digits)
    (isPositiveToo : 0 < others)
    (isAbove : -1074 ≤ exponent)
    (isAboveToo : -1074 ≤ other) :
    IsPositive (UnpackedFloat.unpack Format.binary64 (UnpackedFloat.pack Format.binary64
      (UnpackedFloat.add Format.binary64 (.finite .positive digits exponent isPositive)
        (.finite .positive others other isPositiveToo)))) := by
  rw [UnpackedFloat.add]
  dsimp only [decreaseExponent, Sign.apply]
  rw [← Int.natCast_add]
  refine isPositive_normalize (Nat.add_pos_left ?_ _) (le_min isAbove isAboveToo)
  rw [Nat.shiftLeft_eq]
  exact Nat.mul_pos isPositive (by positivity)

theorem unpack_pack_unpack
    (value : Float) :
    UnpackedFloat.unpack Format.binary64
      (UnpackedFloat.pack Format.binary64 value.toModel.unpack) = value.toModel.unpack :=
  congrArg (UnpackedFloat.unpack Format.binary64) (pack_unpack_of_valid value.toModel.valid)

/-- The sum of two doubles is packed once. -/
theorem unpack_add
    (first second : Float) :
    (first + second).toModel.unpack =
      UnpackedFloat.unpack Format.binary64 (UnpackedFloat.pack Format.binary64
        (UnpackedFloat.add Format.binary64 first.toModel.unpack second.toModel.unpack)) :=
  rfl

/-- A number above zero and one not below it have a sum above zero, however it is rounded. -/
theorem add_pos_left
    {first second : Float}
    (isPositive : 0 < first)
    (notNegative : 0 ≤ second) :
    0 < first + second := by
  have isItself := unpack_pack_unpack first
  rw [zero_le_iff] at notNegative
  rw [zero_lt_iff] at isPositive ⊢
  rw [unpack_add]
  obtain isFirst | ⟨digits, exponent, isNonzero, isFirst⟩ := eq_of_isPositive isPositive
  · have isSum :
        UnpackedFloat.add Format.binary64 first.toModel.unpack second.toModel.unpack =
          .infinity .positive := by
      rw [isFirst]
      rcases notNegative with isPositiveToo | ⟨sign, isSecond⟩
      · obtain isSecond | ⟨_, _, _, isSecond⟩ := eq_of_isPositive isPositiveToo
        · rw [isSecond]
          rfl
        · rw [isSecond]
          rfl
      · rw [isSecond]
        rfl
    rw [isSum]
    exact isPositive_unpack_infinity
  · rcases notNegative with isPositiveToo | ⟨sign, isSecond⟩
    · obtain isSecond | ⟨others, other, isNonzeroToo, isSecond⟩ :=
        eq_of_isPositive isPositiveToo
      · rw [isFirst, isSecond]
        exact isPositive_unpack_infinity
      · rw [isFirst, isSecond]
        exact isPositive_add_finite isNonzero isNonzeroToo
          (le_exponent_of_unpack_eq_finite isFirst) (le_exponent_of_unpack_eq_finite isSecond)
    · -- What a zero is added to is packed as it was unpacked.
      have isSum :
          UnpackedFloat.add Format.binary64 first.toModel.unpack second.toModel.unpack =
            first.toModel.unpack := by
        rw [isFirst, isSecond]
        rfl
      rw [isSum, isItself]
      exact isPositive

theorem unpacked_add_comm
    (first second : UnpackedFloat) :
    UnpackedFloat.add Format.binary64 first second =
      UnpackedFloat.add Format.binary64 second first := by
  rcases first with sign | _ | sign | ⟨sign, digits, exponent, isPositive⟩ <;>
    rcases second with other | _ | other | ⟨other, others, otherExponent, isPositiveToo⟩
  all_goals try rfl
  · cases sign <;> cases other <;> rfl
  · cases sign <;> cases other <;> rfl
  · dsimp only [UnpackedFloat.add, decreaseExponent]
    rw [min_comm, Int.add_comm]

/-- Sums of doubles do not depend on the order of two summands. -/
theorem add_comm
    (first second : Float) :
    first + second = second + first := by
  change Float.ofModel (first.toModel.add second.toModel) =
    Float.ofModel (second.toModel.add first.toModel)
  rw [Float.Model.add, Float.Model.add, unpacked_add_comm]

theorem zero_le_of_beq_zero
    {value : Float}
    (isZero : (value == 0) = true) :
    0 ≤ value :=
  ((NumericScalar.beq_iff_le value 0).mp isZero).2

theorem exists_unpack_eq_zero
    {value : Float}
    (isZero : (value == 0) = true) :
    ∃ sign, value.toModel.unpack = .zero sign := by
  have notNegative := zero_le_of_beq_zero isZero
  have notPositive := (NumericScalar.beq_iff_not_lt notNegative).mp isZero
  exact ((zero_le_iff value).mp notNegative).resolve_left
    (mt (zero_lt_iff value).mpr notPositive)

/-- Zeros have a sum that is one. -/
theorem add_beq_zero
    {first second : Float}
    (isZero : (first == 0) = true)
    (isZeroToo : (second == 0) = true) :
    (first + second == 0) = true := by
  obtain ⟨sign, isFirst⟩ := exists_unpack_eq_zero isZero
  obtain ⟨other, isSecond⟩ := exists_unpack_eq_zero isZeroToo
  have isSum :
      ∃ sign, (first + second).toModel.unpack = .zero sign := by
    rw [unpack_add, isFirst, isSecond, UnpackedFloat.add]
    split
    · exact ⟨_, unpack_packedZero⟩
    · exact ⟨_, unpack_packedZero⟩
  obtain ⟨_, isSum⟩ := isSum
  have notNegative : 0 ≤ first + second := (zero_le_iff _).mpr (.inr ⟨_, isSum⟩)
  rw [NumericScalar.beq_iff_not_lt notNegative, zero_lt_iff, isSum]
  exact id

/-- Numbers that are not below zero have a sum that is zero only where both are zero. -/
theorem beq_zero_of_add
    {first second : Float}
    (notNegative : 0 ≤ first)
    (notNegativeToo : 0 ≤ second)
    (isZero : (first + second == 0) = true) :
    (first == 0) = true ∧ (second == 0) = true := by
  have notPositive := (NumericScalar.beq_iff_not_lt (zero_le_of_beq_zero isZero)).mp isZero
  rw [NumericScalar.beq_iff_not_lt notNegative, NumericScalar.beq_iff_not_lt notNegativeToo]
  constructor
  · exact fun isPositive => notPositive (add_pos_left isPositive notNegativeToo)
  · intro isPositive
    rw [add_comm] at notPositive
    exact notPositive (add_pos_left isPositive notNegative)

/-- Numbers that are not below zero have a sum that is not below zero. -/
theorem add_nonneg
    {first second : Float}
    (notNegative : 0 ≤ first)
    (notNegativeToo : 0 ≤ second) :
    0 ≤ first + second := by
  by_cases isPositive : 0 < first
  · exact ComparableScalar.le_of_lt (add_pos_left isPositive notNegativeToo)
  · by_cases isPositiveToo : 0 < second
    · rw [add_comm]
      exact ComparableScalar.le_of_lt (add_pos_left isPositiveToo notNegative)
    · have isZero := (NumericScalar.beq_iff_not_lt notNegative).mpr isPositive
      have isZeroToo := (NumericScalar.beq_iff_not_lt notNegativeToo).mpr isPositiveToo
      exact zero_le_of_beq_zero (add_beq_zero isZero isZeroToo)

end Double

end Optima
