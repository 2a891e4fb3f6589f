import Mathlib
import Optima.Linear.Solve
import Optima.Proofs.Problem.Retention
import Optima.Proofs.Problem.Satisfaction
import Optima.Proofs.Scalar.Solving

namespace Optima

/-!
# Ranges of targets

A constraint with slack is told how far its target may go up and down.  Wherever an inequality is
satisfied, it remains so within its range, whichever part of the library gives the range: the
account of metrics, the one of an assignment and that of a linear program.  An equation should have
no range.  The last two give it none, but the first one tells it that its target may go down without
end.
-/

/-- Exact numbers that can be reflected at a finite one, and above none of which nothing finite
remains that is less by an infinity. -/
class TargetingScalar (α : Type) [Scalar α] : Prop extends
    SolvingScalar α, SignedScalar α, JudgingScalar α where
  sub_sub_self (first second : α) :
    Scalar.isFinite first = true → first - (first - second) = second
  sub_infinity_le (first second : α) :
    Scalar.isFinite first = true → first - Scalar.infinity ≤ second

instance : TargetingScalar Extended where
  sub_sub_self first second isFinite := by
    obtain ⟨fraction, rfl⟩ := Extended.exists_fraction_of_isFinite isFinite
    change Extended.add (.finite fraction)
      (.neg (.add (.finite fraction) (.neg second))) = second
    cases second <;> simp [Extended.add, Extended.neg]
  sub_infinity_le first second isFinite := by
    obtain ⟨fraction, rfl⟩ := Extended.exists_fraction_of_isFinite isFinite
    rfl

variable {α : Type} [Scalar α]

namespace Constraint

/-- A constraint with another target. -/
def withTarget (constraint : Constraint α) (target : α) : Constraint α :=
  { constraint with target := target }

/-- Any target within a range is met by a value. -/
def IsFreeWithin (constraint : Constraint α) (tolerance value increase decrease : α) : Prop :=
  ∀ target, constraint.target - decrease ≤ target → target ≤ constraint.target + increase →
    ((constraint.withTarget target).magnitudeOf tolerance value == 0) = true

variable {constraint : Constraint α} {tolerance value : α}

section Inequalities

variable [TargetingScalar α] (isFinite : Scalar.isFinite constraint.target = true)
  (notNegative : 0 ≤ constraint.toleranceOr tolerance)
  (isSatisfied : (constraint.magnitudeOf tolerance value == 0) = true)

include isFinite notNegative isSatisfied

/-- An upper bound that is satisfied remains so down to the value, and wherever it goes up. -/
theorem isFreeWithin_of_atMost
    (isAtMost : constraint.comparison = .atMost) :
    constraint.IsFreeWithin tolerance value Scalar.infinity
      (Scalar.larger (constraint.target - value) 0) := by
  intro target atLeast _
  rw [magnitudeOf_beq_zero_iff_isMet (by simp [isStrict, isAtMost]), isAtMost] at isSatisfied
  rw [magnitudeOf_beq_zero_iff_isMet (by simp [isStrict, withTarget, isAtMost]), withTarget,
    isAtMost]
  change value ≤ constraint.target + constraint.toleranceOr tolerance at isSatisfied
  change value ≤ target + constraint.toleranceOr tolerance
  unfold Scalar.larger at atLeast
  split at atLeast
  · calc value
        ≤ constraint.target + constraint.toleranceOr tolerance := isSatisfied
      _ ≤ target + constraint.toleranceOr tolerance := by
          rw [Scalar.sub_zero_eq] at atLeast
          exact add_le_add_left atLeast _
  · calc value
        = constraint.target - (constraint.target - value) :=
          (TargetingScalar.sub_sub_self _ _ isFinite).symm
      _ ≤ target := atLeast
      _ ≤ target + constraint.toleranceOr tolerance := le_add_of_nonneg_right notNegative

/-- A lower bound that is satisfied remains so up to the value, and wherever it goes down. -/
theorem isFreeWithin_of_atLeast
    (isAtLeast : constraint.comparison = .atLeast) :
    constraint.IsFreeWithin tolerance value (Scalar.larger (value - constraint.target) 0)
      Scalar.infinity := by
  intro target _ atMost
  rw [magnitudeOf_beq_zero_iff_isMet (by simp [isStrict, isAtLeast]), isAtLeast] at isSatisfied
  rw [magnitudeOf_beq_zero_iff_isMet (by simp [isStrict, withTarget, isAtLeast]), withTarget,
    isAtLeast]
  change constraint.target - constraint.toleranceOr tolerance ≤ value at isSatisfied
  change target - constraint.toleranceOr tolerance ≤ value
  unfold Scalar.larger at atMost
  split at atMost
  · calc target - constraint.toleranceOr tolerance
        ≤ constraint.target - constraint.toleranceOr tolerance := by
          rw [add_zero] at atMost
          rw [SolvingScalar.sub_eq_add_neg, SolvingScalar.sub_eq_add_neg]
          exact add_le_add_left atMost _
      _ ≤ value := isSatisfied
  · calc target - constraint.toleranceOr tolerance
        ≤ target := ArithmeticScalar.sub_le_self _ _ notNegative
      _ ≤ constraint.target + (value - constraint.target) := atMost
      _ = value - constraint.target + constraint.target := add_comm _ _
      _ ≤ value := (SolvingScalar.add_le_iff_le_sub _ _ _ isFinite).mpr le_rfl

end Inequalities

/-- An account gives neither range, or those of the slack of an inequality. -/
def IsToldOfSlack (constraint : Constraint α) (value : α) (account : ConstraintSensitivity α) :
    Prop :=
  (account.allowableIncrease = none ∧ account.allowableDecrease = none) ∨
    constraint.comparison ≠ .equal ∧ ∃ tolerance,
      account.allowableIncrease =
          some (constraint.slackRanges (constraint.slackOf value tolerance)).1 ∧
        account.allowableDecrease =
          some (constraint.slackRanges (constraint.slackOf value tolerance)).2

/-- An account names a constraint, and a value that satisfies the constraint goes on to do so while
the target stays within the ranges of the account. -/
def IsKeptWithin (tolerance : α) (assignment : Assignment α) (constraint : Constraint α)
    (account : ConstraintSensitivity α) : Prop :=
  account.identifier = constraint.identifier ∧
    ∃ value, constraint.evaluate assignment = .ok value ∧
      ∀ increase decrease,
        account.allowableIncrease = some increase → account.allowableDecrease = some decrease →
          Scalar.isFinite constraint.target = true → 0 ≤ constraint.toleranceOr tolerance →
            (constraint.magnitudeOf tolerance value == 0) = true →
              constraint.IsFreeWithin tolerance value increase decrease

/-- An account tells an equation that its target may not go up, but down without end, although the
target is missed from as soon as it is further from the value than the tolerance. -/
def IsLetDown (tolerance : α) (assignment : Assignment α) (constraint : Constraint α)
    (account : ConstraintSensitivity α) : Prop :=
  account.identifier = constraint.identifier ∧
    ∃ value, constraint.evaluate assignment = .ok value ∧
      ((constraint.magnitudeOf tolerance value == 0) = true →
        account.allowableIncrease = some 0 ∧ account.allowableDecrease = some Scalar.infinity ∧
          (Scalar.isFinite constraint.target = true → ∀ target ≤ constraint.target,
            constraint.target - Scalar.infinity ≤ target ∧ target ≤ constraint.target + 0 ∧
              (((constraint.withTarget target).magnitudeOf tolerance value == 0) = true ↔
                Scalar.magnitude (value - target) ≤ constraint.toleranceOr tolerance)))

theorem isToldOfSlack_withSlack
    (notEqual : constraint.comparison ≠ .equal)
    (value tolerance : α) :
    constraint.IsToldOfSlack value (constraint.withSlack (constraint.slackOf value tolerance)) :=
  .inr ⟨notEqual, tolerance, rfl, rfl⟩

/-- Within the range of its slack, an inequality that is satisfied remains so. -/
theorem isFreeWithin_of_isToldOfSlack
    [TargetingScalar α]
    {account : ConstraintSensitivity α}
    {increase decrease : α}
    (isTold : constraint.IsToldOfSlack value account)
    (isIncrease : account.allowableIncrease = some increase)
    (isDecrease : account.allowableDecrease = some decrease)
    (notStrict : constraint.isStrict = false)
    (isFinite : Scalar.isFinite constraint.target = true)
    (notNegative : 0 ≤ constraint.toleranceOr tolerance)
    (isSatisfied : (constraint.magnitudeOf tolerance value == 0) = true) :
    constraint.IsFreeWithin tolerance value increase decrease := by
  obtain ⟨isNone, -⟩ | ⟨notEqual, slackTolerance, isRange, isRangeToo⟩ := isTold
  · rw [isNone] at isIncrease
    cases isIncrease
  · obtain rfl := Option.some.inj (isRange.symm.trans isIncrease)
    obtain rfl := Option.some.inj (isRangeToo.symm.trans isDecrease)
    unfold slackRanges slackOf
    cases isComparison : constraint.comparison with
    | equal => exact absurd isComparison notEqual
    | atMost => exact isFreeWithin_of_atMost isFinite notNegative isSatisfied isComparison
    | atLeast => exact isFreeWithin_of_atLeast isFinite notNegative isSatisfied isComparison
    | below | above => simp [isStrict, isComparison] at notStrict

section Accounts

variable [TargetingScalar α] {assignment : Assignment α} {account : ConstraintSensitivity α}

/-- An account that gives ranges to inequalities only gives right ones. -/
theorem isKeptWithin_of_isToldOfSlack
    (tolerance : α)
    (isTold :
      account.identifier = constraint.identifier ∧
        ∃ value, constraint.evaluate assignment = .ok value ∧
          constraint.IsToldOfSlack value account) :
    (constraint.isStrict = false → constraint.IsKeptWithin tolerance assignment account) ∧
      (constraint.comparison = .equal →
        account.allowableIncrease = none ∧ account.allowableDecrease = none) := by
  obtain ⟨isNamed, value, isValue, isTold⟩ := isTold
  refine ⟨fun notStrict => ⟨isNamed, value, isValue, fun _ _ isIncrease isDecrease isFinite
    notNegative isSatisfied => ?_⟩, fun isEqual => ?_⟩
  · exact isFreeWithin_of_isToldOfSlack isTold isIncrease isDecrease notStrict isFinite notNegative
      isSatisfied
  · exact isTold.resolve_right fun isInequality => isInequality.1 isEqual

/-- The account of metrics lets a satisfied equation down. -/
theorem isLetDown_of_withSlack
    {value : α}
    (isEqual : constraint.comparison = .equal)
    (isValue : constraint.evaluate assignment = .ok value) :
    constraint.IsLetDown tolerance assignment
      (constraint.withSlack (constraint.slackOf value (constraint.toleranceOr tolerance))) := by
  have isMet_iff (target : α) :
      ((constraint.withTarget target).magnitudeOf tolerance value == 0) = true ↔
        Scalar.magnitude (value - target) ≤ constraint.toleranceOr tolerance := by
    rw [magnitudeOf_beq_zero_iff_isMet (by simp [isStrict, withTarget, isEqual]), withTarget,
      isEqual]
    rfl
  refine ⟨rfl, value, isValue, fun isSatisfied => ?_⟩
  have isMet := (isMet_iff constraint.target).mp isSatisfied
  have isSlack : constraint.slackOf value (constraint.toleranceOr tolerance) = 0 := by
    simp [slackOf, isEqual, isMet]
  have areRanges : constraint.slackRanges (0 : α) = (0, Scalar.infinity) := by
    simp [slackRanges, isEqual, Scalar.larger]
  rw [isSlack, withSlack, areRanges]
  refine ⟨rfl, rfl, fun isFinite target atMost => ⟨?_, ?_, isMet_iff target⟩⟩
  · exact TargetingScalar.sub_infinity_le _ _ isFinite
  · rwa [add_zero]

end Accounts

end Constraint

namespace Sensitivity

variable {problem : Problem α} {constraints : List (Constraint α)} {assignment : Assignment α}
  {tolerance : α} {accounts : List (ConstraintSensitivity α)}

/-- The account of metrics gives each constraint the ranges of its slack. -/
theorem forall₂_of_slacksOn_eq_ok
    (isTold : slacksOn tolerance assignment constraints = .ok accounts) :
    List.Forall₂ (fun constraint account =>
      ∃ value, constraint.evaluate assignment = .ok value ∧
        account =
          constraint.withSlack (constraint.slackOf value (constraint.toleranceOr tolerance)))
      constraints accounts := by
  induction constraints generalizing accounts with
  | nil =>
      cases isTold
      exact .nil
  | cons constraint rest inductionHypothesis =>
      obtain ⟨value, isValue, isTold⟩ := bind_eq_ok isTold
      obtain ⟨others, areOthers, isTold⟩ := bind_eq_ok isTold
      cases isTold
      exact .cons ⟨value, isValue, rfl⟩ (inductionHypothesis areOthers)

/-- The account of an assignment gives no equation a range. -/
theorem isToldOfSlack_of_ofConstraint_eq_ok
    {probing : Probing α}
    {costGradient : Table α}
    {constraint : Constraint α}
    {result : ConstraintSensitivity α × Option (Binding α)}
    (isTold : ofConstraint problem probing assignment costGradient constraint = .ok result) :
    result.1.identifier = constraint.identifier ∧
      ∃ value, constraint.evaluate assignment = .ok value ∧
        constraint.IsToldOfSlack value result.1 := by
  obtain ⟨value, isValue, isTold⟩ := bind_eq_ok isTold
  dsimp only at isTold
  split at isTold
  · rename_i notBinding
    cases isTold
    refine ⟨rfl, value, isValue, Constraint.isToldOfSlack_withSlack ?_ _ _⟩
    intro isEqual
    simp [isEqual] at notBinding
  · obtain ⟨gradient, -, isTold⟩ := bind_eq_ok isTold
    split at isTold <;> cases isTold <;> exact ⟨rfl, value, isValue, .inl ⟨rfl, rfl⟩⟩

theorem forall₂_of_ofConstraints_eq_ok
    {probing : Probing α}
    {costGradient : Table α}
    {bindings : List (Binding α)}
    (isTold :
      ofConstraints problem probing assignment costGradient constraints =
        .ok (accounts, bindings)) :
    List.Forall₂ (fun constraint account =>
      account.identifier = constraint.identifier ∧
        ∃ value, constraint.evaluate assignment = .ok value ∧
          constraint.IsToldOfSlack value account)
      constraints accounts := by
  induction constraints generalizing accounts bindings with
  | nil =>
      cases isTold
      exact .nil
  | cons constraint rest inductionHypothesis =>
      obtain ⟨first, isFirst, isTold⟩ := bind_eq_ok isTold
      obtain ⟨⟨others, otherBindings⟩, areOthers, isTold⟩ := bind_eq_ok isTold
      cases isTold
      exact .cons (isToldOfSlack_of_ofConstraint_eq_ok isFirst) (inductionHypothesis areOthers)

end Sensitivity

namespace LinearProgramming.Pricing

variable {pricing : Pricing α} {constraints : List (Constraint α)} {assignment : Assignment α}
  {accounts : List (ConstraintSensitivity α)}

/-- The account of a linear program gives no equation a range. -/
theorem isToldOfSlack_of_ofConstraint_eq_ok
    {constraint : Constraint α}
    {account : ConstraintSensitivity α}
    (isTold : pricing.ofConstraint assignment constraint = .ok account) :
    account.identifier = constraint.identifier ∧
      ∃ value, constraint.evaluate assignment = .ok value ∧
        constraint.IsToldOfSlack value account := by
  obtain ⟨value, isValue, isTold⟩ := bind_eq_ok isTold
  dsimp only at isTold
  split at isTold
  · rename_i isGuarded
    cases isTold
    refine ⟨rfl, value, isValue, .inr ⟨?_, _, rfl, rfl⟩⟩
    intro isEqual
    simp [isEqual] at isGuarded
  · cases isTold
    exact ⟨rfl, value, isValue, .inl ⟨rfl, rfl⟩⟩

theorem forall₂_of_ofConstraints_eq_ok
    (isTold : pricing.ofConstraints assignment constraints = .ok accounts) :
    List.Forall₂ (fun constraint account =>
      account.identifier = constraint.identifier ∧
        ∃ value, constraint.evaluate assignment = .ok value ∧
          constraint.IsToldOfSlack value account)
      constraints accounts := by
  induction constraints generalizing accounts with
  | nil =>
      cases isTold
      exact .nil
  | cons constraint rest inductionHypothesis =>
      obtain ⟨account, isAccount, isTold⟩ := bind_eq_ok isTold
      obtain ⟨others, areOthers, isTold⟩ := bind_eq_ok isTold
      cases isTold
      exact .cons (isToldOfSlack_of_ofConstraint_eq_ok isAccount) (inductionHypothesis areOthers)

end LinearProgramming.Pricing

namespace Sensitivity

/--
Within the ranges of the sensitivity section an inequality that is satisfied remains satisfied, be
they from the account of metrics, that of an assignment or that of a linear program.  An equation is
given no ranges by the last two.  The first one tells an equation that is satisfied that its target
may go down without end, where it is missed.
-/
theorem ranges_keep_satisfied
    [TargetingScalar α]
    (problem : Problem α)
    (tolerance : α)
    (assignment : Assignment α) :
    (∀ sensitivity, ofMetrics problem assignment tolerance = .ok sensitivity →
        List.Forall₂ (fun constraint account =>
          (constraint.comparison = .atMost ∨ constraint.comparison = .atLeast →
            constraint.IsKeptWithin tolerance assignment account) ∧
            (constraint.comparison = .equal → constraint.IsLetDown tolerance assignment account))
          problem.constraints sensitivity.constraints) ∧
      (∀ probing sensitivity, around problem probing assignment = .ok sensitivity →
        List.Forall₂ (fun constraint account =>
          (constraint.isStrict = false →
            constraint.IsKeptWithin probing.tolerance assignment account) ∧
            (constraint.comparison = .equal →
              account.allowableIncrease = none ∧ account.allowableDecrease = none))
          problem.constraints sensitivity.constraints) ∧
      ∀ program point elapsed solution,
        LinearProgramming.solutionAt problem program point tolerance elapsed = .ok solution →
          List.Forall₂ (fun constraint account =>
            (constraint.isStrict = false →
              constraint.IsKeptWithin tolerance
                ((point.values.map Scalar.ofRat : Table α).map .number) account) ∧
              (constraint.comparison = .equal →
                account.allowableIncrease = none ∧ account.allowableDecrease = none))
            problem.constraints solution.sensitivity.constraints := by
  refine ⟨fun sensitivity isTold => ?_, fun probing sensitivity isTold => ?_,
    fun program point elapsed solution isTold => ?_⟩
  · obtain ⟨_, -, isTold⟩ := bind_eq_ok isTold
    obtain ⟨accounts, areAccounts, isTold⟩ := bind_eq_ok isTold
    cases isTold
    refine (forall₂_of_slacksOn_eq_ok areAccounts).imp ?_
    rintro constraint _ ⟨value, isValue, rfl⟩
    refine ⟨fun isInequality => ?_,
      fun isEqual => Constraint.isLetDown_of_withSlack isEqual isValue⟩
    have ⟨notEqual, notStrict⟩ : constraint.comparison ≠ .equal ∧ constraint.isStrict = false := by
      rcases isInequality with isComparison | isComparison <;>
        simp [Constraint.isStrict, isComparison]
    exact (Constraint.isKeptWithin_of_isToldOfSlack tolerance
      ⟨rfl, value, isValue, Constraint.isToldOfSlack_withSlack notEqual value _⟩).1 notStrict
  · obtain ⟨_, -, isTold⟩ := bind_eq_ok isTold
    obtain ⟨costGradient, -, isTold⟩ := bind_eq_ok isTold
    obtain ⟨⟨accounts, bindings⟩, areAccounts, isTold⟩ := bind_eq_ok isTold
    obtain ⟨_, -, isTold⟩ := bind_eq_ok isTold
    cases isTold
    exact (forall₂_of_ofConstraints_eq_ok areAccounts).imp fun _ _ =>
      Constraint.isKeptWithin_of_isToldOfSlack probing.tolerance
  · obtain ⟨_, -, isTold⟩ := bind_eq_ok isTold
    obtain ⟨_, -, isTold⟩ := bind_eq_ok isTold
    obtain ⟨_, -, isTold⟩ := bind_eq_ok isTold
    obtain ⟨accounts, areAccounts, isTold⟩ := bind_eq_ok isTold
    cases isTold
    exact (LinearProgramming.Pricing.forall₂_of_ofConstraints_eq_ok
      (settled_eq_ok areAccounts)).imp fun _ _ =>
        Constraint.isKeptWithin_of_isToldOfSlack tolerance

section Samples

open Extended Propagation

/-- An upper and a lower bound, both with slack where `x` is three. -/
def slackProblem : Problem Extended :=
  boundedProblem .continuous [boundOn "most" 2 .atMost 7, boundOn "least" 1 .atLeast 1]

/-- An equation that holds where `x` is five. -/
def fiveProblem : Problem Extended :=
  boundedProblem .continuous [boundOn "five" 1 .equal 5]

/-- The bounds of a problem can be moved by their slack, whoever tells it. -/
theorem ranges_of_slackProblem :
    (∃ sensitivity, ofMetrics slackProblem (assigned 3) 0 = .ok sensitivity ∧
      List.Forall₂ (fun constraint account => constraint.IsKeptWithin 0 (assigned 3) account)
        slackProblem.constraints sensitivity.constraints) ∧
      (∃ sensitivity, around slackProblem ⟨0, (0, finite 100), usualStep⟩ (assigned 3) =
          .ok sensitivity ∧
        List.Forall₂ (fun constraint account => constraint.IsKeptWithin 0 (assigned 3) account)
          slackProblem.constraints sensitivity.constraints) ∧
      ∃ solution, LinearProgramming.solutionAt slackProblem ⟨{}, ⟨{}, 0⟩, []⟩
          ⟨.ofList [("x", 3)], [], 0⟩ 0 0 = .ok solution ∧
        List.Forall₂ (fun constraint account => constraint.IsKeptWithin 0
            (((Table.ofList [("x", (3 : Rat))]).map Scalar.ofRat : Table Extended).map .number)
            account)
          slackProblem.constraints solution.sensitivity.constraints := by
  have ⟨ofMetrics_keeps, around_keeps, solutionAt_keeps⟩ :=
    ranges_keep_satisfied slackProblem 0 (assigned 3)
  have areInequalities : ∀ constraint ∈ slackProblem.constraints,
      (constraint.comparison = .atMost ∨ constraint.comparison = .atLeast) ∧
        constraint.isStrict = false := by
    simp [slackProblem, boundedProblem, boundOn, Constraint.isStrict]
  refine ⟨?_, ?_, ?_⟩
  · have told : (ofMetrics slackProblem (assigned 3) 0).toBool = true := by
      decide +kernel
    obtain ⟨sensitivity, isTold⟩ := exists_eq_ok_of_toBool told
    exact ⟨sensitivity, isTold, forall₂_imp_of_mem (ofMetrics_keeps _ isTold)
      fun constraint member _ areKept => areKept.1 (areInequalities constraint member).1⟩
  · have told : (around slackProblem ⟨0, (0, finite 100), usualStep⟩ (assigned 3)).toBool
        = true := by
      decide +kernel
    obtain ⟨sensitivity, isTold⟩ := exists_eq_ok_of_toBool told
    exact ⟨sensitivity, isTold, forall₂_imp_of_mem (around_keeps _ _ isTold)
      fun constraint member _ areKept => areKept.1 (areInequalities constraint member).2⟩
  · have told : (LinearProgramming.solutionAt slackProblem ⟨{}, ⟨{}, 0⟩, []⟩
        ⟨.ofList [("x", 3)], [], 0⟩ 0 0).toBool = true := by
      decide +kernel
    obtain ⟨solution, isTold⟩ := exists_eq_ok_of_toBool told
    exact ⟨solution, isTold, forall₂_imp_of_mem (solutionAt_keeps _ _ _ _ isTold)
      fun constraint member _ areKept => areKept.1 (areInequalities constraint member).2⟩

/-- The target of an equation that is satisfied may be lowered to four, but four is missed. -/
theorem equation_is_let_down :
    (∃ sensitivity, ofMetrics fiveProblem (assigned 5) 0 = .ok sensitivity ∧
        sensitivity.constraints.map (fun account =>
          (account.allowableIncrease, account.allowableDecrease)) = [(some 0, some above)]) ∧
      finite 5 - above ≤ finite 4 ∧ finite 4 ≤ finite 5 + 0 ∧
        ((boundOn "five" 1 .equal 5).isSatisfied 0 (assigned 5)).toOption = some true ∧
          (((boundOn "five" 1 .equal 5).withTarget (finite 4)).isSatisfied 0
            (assigned 5)).toOption = some false :=
  ⟨exists_eq_ok_of_map_toOption (by decide +kernel), by decide +kernel, by decide +kernel,
    by decide +kernel, by decide +kernel⟩

end Samples

end Sensitivity

end Optima
