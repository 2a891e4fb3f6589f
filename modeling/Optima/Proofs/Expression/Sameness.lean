import Optima.Proofs.Expression.Evaluation
import Optima.Proofs.Scalar.Rounding

namespace Optima

/-!
# Numbers that count as the same

Two numbers count as the same if they are equal, or if neither of them is a number.  They
need not be identical, for zero has two signs among doubles.  No expression tells such
numbers apart: it has values on both that count as the same, or on both it has none.
-/

/-- Numbers that are computed with alike where they count as the same.  A power tells the signs of
zero apart only where it asks for the inverse of zero. -/
class CongruentScalar (α : Type) [Scalar α] : Prop extends FractionalScalar α where
  same_add (first second other another : α) :
    Scalar.same first second = true → Scalar.same other another = true →
      Scalar.same (first + other) (second + another) = true
  same_sub (first second value : α) :
    Scalar.same first second = true → Scalar.same (first - value) (second - value) = true
  same_mul (first second other another : α) :
    Scalar.same first second = true → Scalar.same other another = true →
      Scalar.same (first * other) (second * another) = true
  same_magnitude (first second : α) :
    Scalar.same first second = true →
      Scalar.same (Scalar.magnitude first) (Scalar.magnitude second) = true
  same_nearest (first second : α) :
    Scalar.same first second = true →
      Scalar.same (Scalar.nearest first) (Scalar.nearest second) = true
  same_power (first second exponent : α) :
    Scalar.same first second = true →
      ¬ (Scalar.isFinite exponent = true ∧ (first == 0) = true ∧ exponent < 0) →
        Scalar.same (Scalar.power first exponent) (Scalar.power second exponent) = true

instance : CongruentScalar Extended := by
  have eq_of_same {first second : Extended} (isSame : Scalar.same first second = true) :
      first = second := by
    simpa [Scalar.same, Scalar.isNaN, BEq.beq] using isSame
  have same_of_eq {first second : Extended} (isEqual : first = second) :
      Scalar.same first second = true := by
    simp [Scalar.same, BEq.beq, isEqual]
  constructor
  · exact fun _ _ _ _ isSame isSameToo =>
      same_of_eq (congrArg₂ (· + ·) (eq_of_same isSame) (eq_of_same isSameToo))
  · exact fun _ _ value isSame => same_of_eq (congrArg (· - value) (eq_of_same isSame))
  · exact fun _ _ _ _ isSame isSameToo =>
      same_of_eq (congrArg₂ (· * ·) (eq_of_same isSame) (eq_of_same isSameToo))
  · exact fun _ _ isSame => same_of_eq (congrArg Scalar.magnitude (eq_of_same isSame))
  · exact fun _ _ isSame => same_of_eq (congrArg Scalar.nearest (eq_of_same isSame))
  · exact fun _ _ exponent isSame _ =>
      same_of_eq (congrArg (Scalar.power · exponent) (eq_of_same isSame))

namespace Scalar

variable {α : Type} [Scalar α] {first second third : α}

theorem same_iff :
    same first second = true ↔
      (first == second) = true ∨ isNaN first = true ∧ isNaN second = true := by
  simp [same]

/-- Every number counts as the same as itself. -/
theorem same_self
    [NumericScalar α]
    (value : α) :
    same value value = true := by
  cases isNaN : isNaN value with
  | true => exact same_iff.mpr (.inr ⟨isNaN, isNaN⟩)
  | false =>
      have isSelf := NumericScalar.le_self isNaN
      exact same_iff.mpr (.inl ((NumericScalar.beq_iff_le value value).mpr ⟨isSelf, isSelf⟩))

theorem same_comm
    [FractionalScalar α]
    (isSame : same first second = true) :
    same second first = true := by
  rcases same_iff.mp isSame with isEqual | ⟨isNaN, isNaNToo⟩
  · exact same_iff.mpr (.inl (beq_comm_of_beq isEqual))
  · exact same_iff.mpr (.inr ⟨isNaNToo, isNaN⟩)

section Comparing

variable [FractionalScalar α] (isSame : same first second = true)

include isSame

theorem le_left_of_same
    (atMost : first ≤ third) :
    second ≤ third := by
  rcases same_iff.mp isSame with isEqual | ⟨isNaN, -⟩
  · exact ComparableScalar.le_trans _ _ _
      ((NumericScalar.beq_iff_le first second).mp isEqual).2 atMost
  · cases isNaN.symm.trans (NumericScalar.isNaN_left atMost)

theorem le_right_of_same
    (atMost : third ≤ first) :
    third ≤ second := by
  rcases same_iff.mp isSame with isEqual | ⟨isNaN, -⟩
  · exact ComparableScalar.le_trans _ _ _ atMost
      ((NumericScalar.beq_iff_le first second).mp isEqual).1
  · cases isNaN.symm.trans (NumericScalar.isNaN_right atMost)

theorem le_left_congr :
    first ≤ third ↔ second ≤ third :=
  ⟨le_left_of_same isSame, le_left_of_same (same_comm isSame)⟩

theorem le_right_congr :
    third ≤ first ↔ third ≤ second :=
  ⟨le_right_of_same isSame, le_right_of_same (same_comm isSame)⟩

theorem lt_left_congr :
    first < third ↔ second < third := by
  rw [ComparableScalar.lt_iff_le_not_le, ComparableScalar.lt_iff_le_not_le, le_left_congr isSame,
    le_right_congr isSame]

theorem lt_right_congr :
    third < first ↔ third < second := by
  rw [ComparableScalar.lt_iff_le_not_le, ComparableScalar.lt_iff_le_not_le, le_left_congr isSame,
    le_right_congr isSame]

theorem beq_left_congr :
    (first == third) = (second == third) := by
  rw [Bool.eq_iff_iff, NumericScalar.beq_iff_le, NumericScalar.beq_iff_le, le_left_congr isSame,
    le_right_congr isSame]

theorem toRat?_congr :
    toRat? first = toRat? second := by
  have ofFirst (fraction : Rat) {one other : α} (isSame : same one other = true)
      (isFraction : toRat? one = some fraction) : toRat? other = some fraction := by
    rcases same_iff.mp isSame with isEqual | ⟨isNaN, -⟩
    · exact toRat?_eq_of_beq isEqual isFraction
    · have isFinite := (FractionalScalar.isFinite_iff one).mpr ⟨fraction, isFraction⟩
      cases isNaN.symm.trans (isNaN_of_isFinite isFinite)
  exact Option.ext fun fraction =>
    ⟨ofFirst fraction isSame, ofFirst fraction (same_comm isSame)⟩

theorem isFinite_congr :
    isFinite first = isFinite second := by
  rw [Bool.eq_iff_iff, FractionalScalar.isFinite_iff, FractionalScalar.isFinite_iff,
    toRat?_congr isSame]

end Comparing

end Scalar

section Alike

variable {α β γ δ : Type}

/-- Two computations end in the same way: with results that are related, rejected, or in the same
breakdown. -/
inductive Alike (related : β → γ → Prop) :
    Except (EvalFailure α) β → Except (EvalFailure α) γ → Prop
  | returned {first : β} {second : γ} :
    related first second → Alike related (.ok first) (.ok second)
  | rejected (first second : EvalError α) :
    Alike related (.error (.rejected first)) (.error (.rejected second))
  | broken (breakdown : Breakdown) :
    Alike related (.error (.broken breakdown)) (.error (.broken breakdown))

theorem Alike.bind
    {ζ : Type}
    {related : β → γ → Prop}
    {relatedToo : δ → ζ → Prop}
    {first : Except (EvalFailure α) β}
    {second : Except (EvalFailure α) γ}
    {next : β → Except (EvalFailure α) δ}
    {other : γ → Except (EvalFailure α) ζ}
    (alike : Alike related first second)
    (alikeToo :
      ∀ value image, related value image → Alike relatedToo (next value) (other image)) :
    Alike relatedToo (first >>= next) (second >>= other) := by
  cases alike with
  | returned isRelated => exact alikeToo _ _ isRelated
  | rejected error image => exact .rejected error image
  | broken breakdown => exact .broken breakdown

theorem Alike.map
    {ζ : Type}
    {related : β → γ → Prop}
    {relatedToo : δ → ζ → Prop}
    {first : Except (EvalFailure α) β}
    {second : Except (EvalFailure α) γ}
    {change : β → δ}
    {other : γ → ζ}
    (alike : Alike related first second)
    (carries : ∀ value image, related value image → relatedToo (change value) (other image)) :
    Alike relatedToo (first.map change) (second.map other) := by
  cases alike with
  | returned isRelated => exact .returned (carries _ _ isRelated)
  | rejected error image => exact .rejected error image
  | broken breakdown => exact .broken breakdown

end Alike

variable {α : Type} [Scalar α]

/-- Two computations end in the same way, with numbers that count as the same. -/
abbrev AlikeNumbers (first second : Except (EvalFailure α) α) : Prop :=
  Alike (fun value other => Scalar.same value other = true) first second

/-- Whatever is read of one assignment counts as the same in the other. -/
def Assignment.AreSame (first second : Assignment α) : Prop :=
  ∀ name, AlikeNumbers (first.read name) (second.read name)

namespace Expr

variable [CongruentScalar α] {first second : Assignment α}

theorem holds_congr
    {value other : α}
    (comparison : Comparison)
    (target tolerance : α)
    (isSame : Scalar.same value other = true) :
    comparison.holds value target tolerance = comparison.holds other target tolerance := by
  rw [Bool.eq_iff_iff]
  unfold Comparison.holds
  cases comparison <;> simp only [decide_eq_true_eq]
  · exact Scalar.le_left_congr
      (CongruentScalar.same_magnitude _ _ (CongruentScalar.same_sub _ _ target isSame))
  · exact Scalar.le_left_congr isSame
  · exact Scalar.le_right_congr isSame
  · exact Scalar.lt_left_congr isSame
  · exact Scalar.lt_right_congr isSame

theorem alike_raise
    {value other : α}
    (bare : Bool)
    (exponent : α)
    (isSame : Scalar.same value other = true) :
    AlikeNumbers ((raise bare value exponent).mapError .rejected)
      ((raise bare other exponent).mapError .rejected) := by
  have sameSign : decide (value < 0) = decide (other < 0) :=
    decide_eq_decide.mpr (Scalar.lt_left_congr isSame)
  unfold raise
  dsimp only
  rw [← Scalar.isFinite_congr isSame, ← Scalar.beq_left_congr isSame, ← sameSign]
  split
  · exact .rejected _ _
  · rename_i notInverse
    have samePower :
        Scalar.same (Scalar.power value exponent) (Scalar.power other exponent) = true := by
      refine CongruentScalar.same_power _ _ _ isSame ?_
      rintro ⟨isFinite, isZero, isNegative⟩
      -- A number that equals zero is finite.
      have isFiniteToo : Scalar.isFinite value = true := by
        rw [Scalar.isFinite_congr (Scalar.same_iff.mpr (.inl isZero))]
        exact Scalar.isWhole_zero.isFinite
      exact notInverse (by simp [isFinite, isFiniteToo, isZero, isNegative])
    split
    · split <;> split <;> exact .rejected _ _
    · rw [← Scalar.isFinite_congr samePower]
      split
      · exact .rejected _ _
      · exact .returned samePower

theorem alike_evaluateTerms
    (areSame : first.AreSame second)
    (terms : List (String × α))
    {total other : α}
    (isSame : Scalar.same total other = true) :
    AlikeNumbers (evaluateTerms first total terms) (evaluateTerms second other terms) := by
  induction terms generalizing total other with
  | nil =>
      exact .returned isSame
  | cons term rest inductionHypothesis =>
      refine (areSame term.1).bind fun value image isSameToo => inductionHypothesis ?_
      exact CongruentScalar.same_add _ _ _ _ isSame
        (CongruentScalar.same_mul _ _ _ _ (Scalar.same_self term.2) isSameToo)

mutual

/-- No expression tells assignments apart that count as the same. -/
theorem alike_evaluate
    (areSame : first.AreSame second)
    (expression : Expr α) :
    AlikeNumbers (expression.evaluate first) (expression.evaluate second) := by
  match expression with
  | .constant value => exact .returned (Scalar.same_self value)
  | .variable name => exact areSame name
  | .linear coefficients offset =>
      exact alike_evaluateTerms areSame coefficients.entries (Scalar.same_self offset)
  | .sum terms => exact alike_evaluateSum areSame terms (Scalar.same_self 0)
  | .product factors => exact alike_evaluateProduct areSame factors (Scalar.same_self 1)
  | .power base exponent =>
      exact (alike_evaluate areSame base).bind fun value image isSame =>
        alike_raise base.isEmptySum exponent isSame
  | .absolute operand =>
      exact (alike_evaluate areSame operand).bind fun value image isSame =>
        .returned (CongruentScalar.same_magnitude _ _ isSame)
  | .condition operand comparison target =>
      refine (alike_evaluate areSame operand).bind fun value image isSame => .returned ?_
      rw [holds_congr comparison target _ isSame]
      exact Scalar.same_self _

theorem alike_evaluateSum
    (areSame : first.AreSame second)
    (terms : List (Expr α))
    {total other : α}
    (isSame : Scalar.same total other = true) :
    AlikeNumbers (evaluateSum first total terms) (evaluateSum second other terms) := by
  cases terms with
  | nil => exact .returned isSame
  | cons expression rest =>
      exact (alike_evaluate areSame expression).bind fun value image isSameToo =>
        alike_evaluateSum areSame rest (CongruentScalar.same_add _ _ _ _ isSame isSameToo)

theorem alike_evaluateProduct
    (areSame : first.AreSame second)
    (factors : List (Expr α))
    {result other : α}
    (isSame : Scalar.same result other = true) :
    AlikeNumbers (evaluateProduct first result factors)
      (evaluateProduct second other factors) := by
  cases factors with
  | nil => exact .returned isSame
  | cons expression rest =>
      exact (alike_evaluate areSame expression).bind fun value image isSameToo =>
        alike_evaluateProduct areSame rest (CongruentScalar.same_mul _ _ _ _ isSame isSameToo)

end

end Expr

namespace Rule

/-- A rule does not tell assignments apart that count as the same; no expression does. -/
def IsCongruent : Rule α → Prop
  | .expression _ => True
  | .closure apply =>
    ∀ first second : Assignment α, first.AreSame second →
      AlikeNumbers (applyClosure apply first) (applyClosure apply second)

theorem alike_evaluate
    [CongruentScalar α]
    {rule : Rule α}
    {first second : Assignment α}
    (isCongruent : rule.IsCongruent)
    (areSame : first.AreSame second) :
    AlikeNumbers (rule.evaluate first) (rule.evaluate second) := by
  cases rule with
  | expression value => exact value.alike_evaluate areSame
  | closure apply => exact isCongruent first second areSame

end Rule

end Optima
