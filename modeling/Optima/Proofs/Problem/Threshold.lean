import Optima.Proofs.Expression.Form
import Optima.Proofs.Problem.Domain
import Optima.Proofs.Problem.Evaluation

namespace Optima

/-!
# Where a single variable switches a constraint

A constraint that reads one variable compares a multiple of it, with something added, with its
target.  Solved for the variable it is the same comparison with a threshold, turned round where
the factor is negative, and the part of an interval in which it holds keeps every value that
satisfies the constraint.  Here an equation and the comparisons that allow their target are
taken at their word: the tolerance is a margin of the strict comparisons only.
-/

/-- A comparison with a threshold holds, by a margin if it is strict. -/
def Comparison.Allows {α : Type} [Scalar α] (comparison : Comparison) (threshold margin value : α) :
    Prop :=
  match comparison with
  | .equal => value = threshold
  | .atMost => value ≤ threshold
  | .atLeast => threshold ≤ value
  | .below => value ≤ threshold - margin
  | .above => threshold + margin ≤ value

/-- The comparison that is left when both sides are divided by a number. -/
def Comparison.dividedBy {α : Type} [Scalar α] (comparison : Comparison) (factor : α) :
    Comparison :=
  if factor < 0 then comparison.mirrored else comparison

namespace Constraint

variable {α : Type} [Scalar α]

/-- The constraint with its tolerance as a margin only: an equation and a comparison that allows
its target give no leeway. -/
def exact (constraint : Constraint α) : Constraint α :=
  if constraint.isStrict then constraint else { constraint with tolerance := some 0 }

/-- The numbers that the expression of a constraint is written with are finite, and so is the
margin of a strict comparison. -/
structure IsFinite (constraint : Constraint α) (tolerance : α) : Prop where
  rule : ∀ expression, constraint.rule = .expression expression → expression.IsFinite
  margin :
    constraint.isStrict = true → Scalar.isFinite (constraint.toleranceOr tolerance) = true

end Constraint

variable {α : Type} [Scalar α] [SolvingScalar α]

namespace Comparison

variable {comparison : Comparison} {factor addend margin value target : α}

section Unknown

variable (isFiniteFactor : Scalar.isFinite factor = true) (notZero : Scalar.fraction factor ≠ 0)
  (isFiniteAddend : Scalar.isFinite addend = true) (isFiniteValue : Scalar.isFinite value = true)

include isFiniteFactor notZero isFiniteAddend isFiniteValue

/-- A comparison of a multiple of an unknown, with something added, that does not exclude its target
is one of the unknown with a threshold. -/
theorem allows_threshold_iff
    (notStrict : comparison ≠ .below ∧ comparison ≠ .above)
    (margin step : α) :
    (comparison.dividedBy factor).Allows ((target - addend) / factor) step value ↔
      comparison.Allows target margin (factor * value + addend) := by
  have atMost_iff := Scalar.affine_le_iff target isFiniteFactor isFiniteAddend isFiniteValue
  have atLeast_iff := Scalar.le_affine_iff target isFiniteFactor isFiniteAddend isFiniteValue
  unfold dividedBy
  by_cases isNegative : factor < 0
  · have atMost_iff := atMost_iff.2 isNegative
    have atLeast_iff := atLeast_iff.2 isNegative
    rw [if_pos isNegative]
    cases comparison with
    | equal =>
        change value = _ ↔ _ = target
        rw [le_antisymm_iff, le_antisymm_iff, atMost_iff, atLeast_iff, and_comm]
    | atMost => exact atMost_iff.symm
    | atLeast => exact atLeast_iff.symm
    | below => exact absurd rfl notStrict.1
    | above => exact absurd rfl notStrict.2
  · have isPositive := Scalar.pos_of_not_neg isFiniteFactor notZero isNegative
    have atMost_iff := atMost_iff.1 isPositive
    have atLeast_iff := atLeast_iff.1 isPositive
    rw [if_neg isNegative]
    cases comparison with
    | equal =>
        change value = _ ↔ _ = target
        rw [le_antisymm_iff, le_antisymm_iff, atMost_iff, atLeast_iff]
    | atMost => exact atMost_iff.symm
    | atLeast => exact atLeast_iff.symm
    | below => exact absurd rfl notStrict.1
    | above => exact absurd rfl notStrict.2

/-- A comparison of a multiple of an unknown, with something added, implies one of the unknown with
a threshold. -/
theorem allows_threshold
    (isFiniteMargin :
      comparison = .below ∨ comparison = .above → Scalar.isFinite margin = true)
    (allows : comparison.Allows target margin (factor * value + addend)) :
    (comparison.dividedBy factor).Allows ((target - addend) / factor)
      (margin / Scalar.magnitude factor) value := by
  cases comparison with
  | equal | atMost | atLeast =>
      exact (allows_threshold_iff isFiniteFactor notZero isFiniteAddend isFiniteValue
        ⟨by decide, by decide⟩ _ _).mpr allows
  | below =>
      have solved := Scalar.solve_below isFiniteFactor notZero (isFiniteMargin (.inl rfl))
        isFiniteAddend isFiniteValue allows
      unfold dividedBy
      split
      · rename_i isNegative
        exact solved.2 isNegative
      · rename_i notNegative
        exact solved.1 (Scalar.pos_of_not_neg isFiniteFactor notZero notNegative)
  | above =>
      have solved := Scalar.solve_above isFiniteFactor notZero (isFiniteMargin (.inr rfl))
        isFiniteAddend isFiniteValue allows
      unfold dividedBy
      split
      · rename_i isNegative
        exact solved.2 isNegative
      · rename_i notNegative
        exact solved.1 (Scalar.pos_of_not_neg isFiniteFactor notZero notNegative)

end Unknown

end Comparison

namespace Constraint

variable {constraint : Constraint α} {tolerance : α} {assignment : Assignment α}

/-- A violation of zero means that the value is not beyond what the constraint allows. -/
theorem excess_nonpos
    {value : α}
    (isZero : (constraint.magnitudeOf tolerance value == 0) = true) :
    constraint.excess (constraint.toleranceOr tolerance) value ≤ 0 := by
  unfold magnitudeOf at isZero
  dsimp only at isZero
  split at isZero
  · rename_i isOn
    simp only [Bool.and_eq_true] at isOn
    exact (Scalar.eq_of_beq isOn.1.1).le
  · have isLarger := Scalar.le_larger_right 0
      (constraint.excess (constraint.toleranceOr tolerance) value)
    rwa [Scalar.eq_of_beq isZero] at isLarger

omit [Scalar α] [SolvingScalar α] in
theorem isStrict_iff :
    constraint.isStrict = true ↔
      constraint.comparison = .below ∨ constraint.comparison = .above := by
  simp [isStrict]

/-- A value that is not beyond what a constraint without leeway allows is one that its comparison
allows. -/
theorem allows_of_excess_nonpos
    {value : α}
    (isFinite : Scalar.isFinite value = true)
    (notBeyond : constraint.exact.excess (constraint.exact.toleranceOr tolerance) value ≤ 0) :
    constraint.comparison.Allows constraint.target (constraint.toleranceOr tolerance) value := by
  unfold exact at notBeyond
  cases isComparison : constraint.comparison with
  | equal =>
      have isNear : Scalar.magnitude (value - constraint.target) - 0 ≤ 0 := by
        simpa [excess, isStrict, isComparison, toleranceOr] using notBeyond
      rw [Scalar.sub_zero_eq] at isNear
      exact SolvingScalar.eq_of_magnitude_sub_nonpos _ _ isFinite isNear
  | atMost =>
      have isBelow : value - (constraint.target + 0) ≤ 0 := by
        simpa [excess, isStrict, isComparison, toleranceOr] using notBeyond
      rw [add_zero] at isBelow
      exact SolvingScalar.le_of_sub_nonpos _ _ (.inl isFinite) isBelow
  | atLeast =>
      have isAbove : constraint.target - 0 - value ≤ 0 := by
        simpa [excess, isStrict, isComparison, toleranceOr] using notBeyond
      rw [Scalar.sub_zero_eq] at isAbove
      exact SolvingScalar.le_of_sub_nonpos _ _ (.inr isFinite) isAbove
  | below =>
      have isBelow : value - (constraint.target - constraint.toleranceOr tolerance) ≤ 0 := by
        simpa [excess, isStrict, isComparison] using notBeyond
      exact SolvingScalar.le_of_sub_nonpos _ _ (.inl isFinite) isBelow
  | above =>
      have isAbove : constraint.target + constraint.toleranceOr tolerance - value ≤ 0 := by
        simpa [excess, isStrict, isComparison] using notBeyond
      exact SolvingScalar.le_of_sub_nonpos _ _ (.inr isFinite) isAbove

omit [SolvingScalar α] in
theorem evaluate_exact
    (constraint : Constraint α) :
    constraint.exact.evaluate assignment = constraint.evaluate assignment := by
  unfold exact
  split <;> rfl

/-- Where a constraint without leeway holds, it has a value that its comparison allows. -/
theorem exists_allows_of_holdsOn
    (numbersFinite : assignment.IsFinite)
    (isFinite : constraint.IsFinite tolerance)
    {expression : Expr α}
    (isExpression : constraint.rule = .expression expression)
    (holds : constraint.exact.HoldsOn tolerance assignment) :
    ∃ value,
      expression.evaluate assignment = .ok value ∧ Scalar.isFinite value = true ∧
        constraint.comparison.Allows constraint.target (constraint.toleranceOr tolerance)
          value := by
  obtain ⟨magnitude, isMagnitude, isZero⟩ := holds
  unfold violation at isMagnitude
  rw [evaluate_exact] at isMagnitude
  have isRule : constraint.evaluate assignment = expression.evaluate assignment := by
    rw [evaluate, isExpression, Rule.evaluate]
  rw [isRule] at isMagnitude
  cases isValue : expression.evaluate assignment with
  | error failure =>
      rw [isValue] at isMagnitude
      cases isMagnitude
  | ok value =>
      rw [isValue] at isMagnitude
      cases isMagnitude
      have isFiniteValue :=
        Expr.isFinite_of_evaluate_eq_ok numbersFinite expression (isFinite.rule _ isExpression)
          isValue
      exact ⟨value, rfl, isFiniteValue, allows_of_excess_nonpos isFiniteValue (excess_nonpos isZero)⟩

/-- Coefficients of zero do not weigh. -/
theorem weigh_filter_notZero
    (entries : List (String × α))
    (place : String → Rat) :
    LinearForm.weigh (entries.filter fun entry => !(entry.2 == 0)) place =
      LinearForm.weigh entries place := by
  induction entries with
  | nil => rfl
  | cons entry rest inductionHypothesis =>
      rw [List.filter_cons, LinearForm.weigh_cons]
      cases isZero : entry.2 == 0 with
      | true => simp [Scalar.eq_of_beq isZero, inductionHypothesis]
      | false => simp [inductionHypothesis]

/-- A form with one coefficient that counts is a multiple of its name, with the constant added. -/
theorem affine_of_single
    {form : LinearForm α}
    {name : String}
    {coefficient number value : α}
    (isFiniteForm : form.IsFinite)
    (isSingle : (form.coefficients.entries.filter fun entry => !(entry.2 == 0)) =
      [(name, coefficient)])
    (isBound : assignment.get? name = some (.number number))
    (isFiniteNumber : Scalar.isFinite number = true)
    (isFiniteValue : Scalar.isFinite value = true)
    (isValue : form.fractionOn assignment.place = Scalar.fraction value) :
    Scalar.isFinite coefficient = true ∧ Scalar.fraction coefficient ≠ 0 ∧
      coefficient * number + form.constant = value := by
  have member : (name, coefficient) ∈ form.coefficients.entries.filter
      fun entry => !(entry.2 == 0) := by
    simp [isSingle]
  obtain ⟨member, notZero⟩ := List.mem_filter.mp member
  have isFiniteCoefficient : Scalar.isFinite coefficient = true :=
    isFiniteForm.coefficients _ (List.mem_map_of_mem member)
  refine ⟨isFiniteCoefficient, ?_, ?_⟩
  · intro isZero
    simp [(Scalar.beq_zero_iff_fraction_eq_zero isFiniteCoefficient).mpr isZero] at notZero
  · obtain ⟨isFiniteAffine, isAffine⟩ :=
      Scalar.fraction_affine isFiniteCoefficient isFiniteForm.constant isFiniteNumber
    apply Scalar.eq_of_fraction_eq isFiniteAffine isFiniteValue
    rw [isAffine, ← isValue, LinearForm.fractionOn, ← weigh_filter_notZero, isSingle]
    simp [Assignment.place_of_get? isBound, add_comm]

/-- What is found to be the only variable of a constraint that holds satisfies the comparison with
its threshold, and looking for it does not fail. -/
theorem exists_singleTerm?_allows
    (numbersFinite : assignment.IsFinite)
    (isFinite : constraint.IsFinite tolerance)
    (holds : constraint.exact.HoldsOn tolerance assignment) :
    ∃ term?,
      constraint.singleTerm? = .ok term? ∧
        ∀ term, term? = some term →
          ∀ number, assignment.get? term.name = some (.number number) →
            (constraint.comparison.dividedBy term.coefficient).Allows (constraint.threshold term)
              (constraint.toleranceOr tolerance / Scalar.magnitude term.coefficient) number := by
  unfold singleTerm?
  cases isRule : constraint.rule with
  | closure apply => exact ⟨none, rfl, nofun⟩
  | expression expression =>
      obtain ⟨value, isValue, isFiniteValue, allows⟩ :=
        exists_allows_of_holdsOn numbersFinite isFinite isRule holds
      obtain ⟨form?, isForm, means⟩ :=
        Expr.finds_linearForm? numbersFinite expression (isFinite.rule _ isRule) isValue
      simp only [Rule.linearForm?, isForm, bind, Except.bind]
      cases form? with
      | none => exact ⟨none, rfl, nofun⟩
      | some form =>
          obtain ⟨isFiniteForm, isFraction⟩ := means form rfl
          dsimp only
          split
          · rename_i name coefficient isSingle
            refine ⟨_, rfl, ?_⟩
            rintro _ ⟨⟩ number isBound
            have isFiniteNumber := numbersFinite name number isBound
            obtain ⟨isFiniteCoefficient, notZero, isAffine⟩ :=
              affine_of_single isFiniteForm isSingle isBound isFiniteNumber isFiniteValue
                isFraction
            rw [← isAffine] at allows
            exact Comparison.allows_threshold isFiniteCoefficient notZero isFiniteForm.constant
              isFiniteNumber (fun isStrict => isFinite.margin (isStrict_iff.mpr isStrict)) allows
          · exact ⟨none, rfl, nofun⟩

end Constraint

namespace Propagation

variable {constraint : Constraint α} {term : SingleTerm α} {tolerance number : α}
  {interval : α × α}

/-- The part of an interval in which a comparison holds keeps what the comparison allows. -/
theorem between_meet
    {comparison : Comparison}
    {threshold margin : α}
    (allows : comparison.Allows threshold margin number)
    (isAbove : interval.1 ≤ number)
    (isBelow : number ≤ interval.2) :
    (meet comparison threshold margin interval).1 ≤ number ∧
      number ≤ (meet comparison threshold margin interval).2 := by
  have larger_le {bound : α} (atMost : bound ≤ number) :
      Scalar.larger interval.1 bound ≤ number := by
    unfold Scalar.larger
    split
    · exact atMost
    · exact isAbove
  have le_smaller {bound : α} (atLeast : number ≤ bound) :
      number ≤ Scalar.smaller interval.2 bound := by
    unfold Scalar.smaller
    split
    · exact atLeast
    · exact isBelow
  cases comparison with
  | equal => exact ⟨larger_le allows.ge, le_smaller allows.le⟩
  | atMost => exact ⟨isAbove, le_smaller allows⟩
  | atLeast => exact ⟨larger_le allows, isBelow⟩
  | below => exact ⟨isAbove, le_smaller allows⟩
  | above => exact ⟨larger_le allows, isBelow⟩

/-- Between finite ends the whole numbers of an interval can be found, and none is lost. -/
theorem exists_wholeInterval_eq_ok
    (isWhole : Scalar.IsWhole number)
    (finiteEnds : HasFiniteEnds interval)
    (isAbove : interval.1 ≤ number)
    (isBelow : number ≤ interval.2) :
    ∃ whole,
      wholeInterval interval = .ok whole ∧ whole.1 ≤ number ∧ number ≤ whole.2 := by
  have isFiniteFirst :=
    (Scalar.fraction_sub finiteEnds.1 (Scalar.isFinite_slack (α := α))).1
  have isFiniteLast :=
    (Scalar.fraction_add finiteEnds.2 (Scalar.isFinite_slack (α := α))).1
  refine ⟨(Scalar.ceiling (interval.1 - Scalar.slack), Scalar.floor (interval.2 + Scalar.slack)),
    ?_, ?_, ?_⟩
  · simp [wholeInterval, Variable.exists_wholePart_eq_ok isFiniteFirst,
      Variable.exists_wholePart_eq_ok isFiniteLast, bind, Except.bind, pure, Except.pure]
  · apply Scalar.ceiling_le_of_isWhole isWhole isFiniteFirst
    exact (ArithmeticScalar.sub_le_self _ _ ExactScalar.slack_pos.le).trans isAbove
  · apply Scalar.le_floor_of_isWhole isWhole isFiniteLast
    exact isBelow.trans (le_add_of_nonneg_right ExactScalar.slack_pos.le)

/-- A bound leaves the numbers of an interval that satisfy it, and does not break down on them. -/
theorem exists_tightened_eq_ok
    {kind : VariableKind}
    (allows : (constraint.comparison.dividedBy term.coefficient).Allows (constraint.threshold term)
      (constraint.toleranceOr tolerance / Scalar.magnitude term.coefficient) number)
    (isAbove : interval.1 ≤ number)
    (isBelow : number ≤ interval.2)
    (isWhole : kind ≠ .continuous → Scalar.IsWhole number ∧ HasFiniteEnds interval) :
    ∃ met,
      tightened constraint term kind tolerance interval = .ok met ∧ met.1 ≤ number ∧
        number ≤ met.2 := by
  obtain ⟨isAboveMet, isBelowMet⟩ := between_meet allows isAbove isBelow
  unfold tightened
  dsimp only
  split
  · exact ⟨_, rfl, isAboveMet, isBelowMet⟩
  · rename_i notContinuous
    obtain ⟨isWhole, finiteEnds⟩ := isWhole notContinuous
    have isFiniteNumber := isWhole.isFinite
    refine exists_wholeInterval_eq_ok isWhole ⟨?_, ?_⟩ isAboveMet isBelowMet
    · exact BoundedScalar.isFinite_between _ _ _
        (le_meet _ _ _ (Scalar.isNaN_of_isFinite finiteEnds.1)) isAboveMet finiteEnds.1
        isFiniteNumber
    · exact BoundedScalar.isFinite_between _ _ _ isBelowMet
        (meet_le _ _ _ (Scalar.isNaN_of_isFinite finiteEnds.2)) isFiniteNumber finiteEnds.2

end Propagation

end Optima
