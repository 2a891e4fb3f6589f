import Mathlib.Algebra.Order.Ring.Rat
import Mathlib.Data.EReal.Basic
import Mathlib.Order.Hom.Basic
import Optima.Proofs.Scalar.Laws

namespace Optima

/-!
# Exact numbers

Fractions between two infinities.  They are numbers on which every algorithm of
the library can be run without rounding, and they satisfy the laws of exact
numbers.  The lower infinity wins where both are added.
-/

/-- A fraction or an infinity. -/
inductive Extended where
  | below
  | finite (value : Rat)
  | above
  deriving Repr, DecidableEq

namespace Extended

/-- Being at most. -/
def isAtMost : Extended → Extended → Bool
  | below, _ => true
  | _, above => true
  | finite first, finite second => decide (first ≤ second)
  | _, _ => false

/-- The sum of two numbers. -/
def add : Extended → Extended → Extended
  | below, _ => below
  | _, below => below
  | above, _ => above
  | _, above => above
  | finite first, finite second => finite (first + second)

/-- The opposite of a number. -/
def neg : Extended → Extended
  | below => above
  | above => below
  | finite value => finite (-value)

/-- An infinity of the sign of a fraction; without a sign there is none. -/
def infinite (sign : Rat) : Extended :=
  if 0 < sign then above else if sign < 0 then below else finite 0

/-- The product of two numbers. -/
def mul : Extended → Extended → Extended
  | finite first, finite second => finite (first * second)
  | finite sign, above | above, finite sign => infinite sign
  | finite sign, below | below, finite sign => infinite (-sign)
  | above, above | below, below => above
  | above, below | below, above => below

/-- The inverse of a number; that of an infinity is zero. -/
def inv : Extended → Extended
  | finite value => finite value⁻¹
  | _ => finite 0

/-- The whole power of a fraction; other powers are left at zero. -/
def power : Extended → Extended → Extended
  | finite base, finite exponent =>
    if exponent.den = 1 then finite (base ^ exponent.num) else finite 0
  | _, _ => finite 0

/-- Change a fraction, and leave an infinity as it is. -/
def mapFinite (change : Rat → Rat) : Extended → Extended
  | finite value => finite (change value)
  | infinity => infinity

/-- The nearest whole number, the even one of two. -/
def nearest (value : Rat) : Rat :=
  let lower := value.floor
  if value - lower < 1 / 2 then lower
  else if 1 / 2 < value - lower then lower + 1
  else if lower % 2 = 0 then lower else lower + 1

instance : Scalar Extended where
  zero := finite 0
  one := finite 1
  add := add
  sub first second := add first (neg second)
  mul := mul
  div first second := mul first (inv second)
  neg := neg
  le first second := isAtMost first second
  lt first second := ¬ isAtMost second first
  beq first second := first = second
  decidableLess first second := inferInstanceAs (Decidable (¬ isAtMost second first = true))
  decidableAtMost first second := inferInstanceAs (Decidable (isAtMost first second = true))
  ofInt value := finite value
  decimal numerator places := finite (numerator / 10 ^ places)
  ofRat := finite
  toRat?
    | finite value => some value
    | _ => none
  infinity := above
  magnitude
    | finite value => finite |value|
    | _ => above
  floor := mapFinite fun value => value.floor
  ceiling := mapFinite fun value => value.ceil
  nearest := mapFinite nearest
  power := power
  isNaN _ := false
  isFinite
    | finite _ => true
    | _ => false

/-- Fractions know no circles: where an angle is asked for, they answer with zero. -/
instance : Elementary Extended where
  squareRoot _ := 0
  sine _ := 0
  cosine _ := 0
  arcsine _ := 0
  halfTurn := 0

section Laws

variable (first second third : Extended)

/-- Being at most is the relation of the fractions between the infinities. -/
theorem le_iff_isAtMost :
    first ≤ second ↔ isAtMost first second = true :=
  Iff.rfl

/-- Adding is that of fractions between the infinities. -/
theorem add_eq_add :
    first + second = add first second :=
  rfl

/-- The slack is a fraction. -/
theorem slack_eq :
    (Scalar.slack : Extended) = finite (1 / 10 ^ 9) := by
  simp [Scalar.slack, Scalar.decimal]

theorem exists_fraction_of_isFinite
    {value : Extended}
    (isFinite : Scalar.isFinite value = true) :
    ∃ fraction, value = finite fraction := by
  cases value with
  | finite fraction => exact ⟨fraction, rfl⟩
  | below => cases isFinite
  | above => cases isFinite

theorem finite_le_finite_iff
    {first second : Rat} :
    finite first ≤ finite second ↔ first ≤ second := by
  simp [le_iff_isAtMost, isAtMost]

/-- What lies between two numbers that are finitely far from each other is a fraction. -/
theorem exists_fraction_between
    {lowest value highest : Extended}
    (isAbove : lowest ≤ value)
    (isBelow : value ≤ highest)
    (isFinite : Scalar.isFinite (highest - lowest) = true) :
    ∃ fraction, value = finite fraction := by
  revert isFinite isAbove isBelow
  change isAtMost _ _ = true → isAtMost _ _ = true → Scalar.isFinite (add _ (neg _)) = true → _
  cases lowest <;> cases value <;> cases highest <;> simp [isAtMost, add, neg, Scalar.isFinite]

instance : OrderedScalar Extended where
  le_refl value := by
    cases value <;> simp [le_iff_isAtMost, isAtMost]
  le_trans first second third := by
    cases first <;> cases second <;> cases third <;>
      simp [le_iff_isAtMost, isAtMost]
    exact le_trans
  le_total first second := by
    cases first <;> cases second <;> simp [le_iff_isAtMost, isAtMost]
    exact Rat.le_total
  lt_iff_not_le first second := Iff.rfl
  beq_iff_le first second := by
    change decide (first = second) = true ↔ _
    cases first <;> cases second <;> simp [le_iff_isAtMost, isAtMost]
    exact le_antisymm_iff

instance : SignedScalar Extended where
  isNaN_eq_false _ := rfl
  neg_le_neg_iff first second := by
    change isAtMost (neg second) (neg first) = true ↔ isAtMost first second = true
    cases first <;> cases second <;> simp [isAtMost, neg]
  zero_lt_one := by
    decide +kernel
  neg_one_lt_zero := by
    decide +kernel

instance : BoundedScalar Extended where
  isNaN_of_isFinite _ _ := rfl
  isFinite_ofInt _ := rfl
  isFinite_zero := rfl
  isFinite_one := rfl
  isFinite_add first second := by
    rw [add_eq_add]
    cases first <;> cases second <;> simp [Scalar.isFinite, add]
  isFinite_between lower value upper := by
    rw [le_iff_isAtMost, le_iff_isAtMost]
    cases lower <;> cases value <;> cases upper <;> simp [Scalar.isFinite, isAtMost]
  isFinite_floor value := by
    cases value <;> simp [Scalar.isFinite, Scalar.floor, mapFinite]
  isFinite_ceiling value := by
    cases value <;> simp [Scalar.isFinite, Scalar.ceiling, mapFinite]

instance : ExactScalar Extended where
  le_antisymm first second := by
    cases first <;> cases second <;> simp [le_iff_isAtMost, isAtMost]
    exact le_antisymm
  add_assoc first second third := by
    cases first <;> cases second <;> cases third <;> simp [add_eq_add, add]
    exact Rat.add_assoc ..
  add_comm first second := by
    cases first <;> cases second <;> simp [add_eq_add, add]
    exact Rat.add_comm ..
  zero_add value := by
    change add (finite 0) value = value
    cases value <;> simp [add]
  add_le_add_left first second third := by
    cases first <;> cases second <;> cases third <;>
      simp [le_iff_isAtMost, isAtMost, add_eq_add, add]
  slack_pos := by
    rw [slack_eq]
    decide +kernel
  lt_sub_slack_iff first second := by
    change ¬ isAtMost (add second (neg Scalar.slack)) first = true ↔
      ¬ isAtMost second (add first Scalar.slack) = true
    rw [slack_eq]
    cases first <;> cases second <;> simp [isAtMost, add, neg]

end Laws

/-!
## The axis of the reals
-/

/-- The real number that a fraction is, or the infinity. -/
noncomputable def toReal : Extended → EReal
  | below => ⊥
  | finite value => (value : ℝ)
  | above => ⊤

/-- Real numbers are ordered as the fractions are. -/
theorem toReal_le_toReal_iff
    (first second : Extended) :
    first.toReal ≤ second.toReal ↔ first ≤ second := by
  cases first <;> cases second <;> simp [toReal, le_iff_isAtMost, isAtMost]

/-- The places of exact numbers on the axis of the reals. -/
noncomputable def axis : Extended ↪o EReal :=
  .ofMapLEIff toReal toReal_le_toReal_iff

end Extended

end Optima
