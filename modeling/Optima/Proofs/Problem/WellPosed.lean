import Mathlib.Data.List.Nodup
import Optima.Problem.Any
import Optima.Proofs.Expression.Evaluation
import Optima.Proofs.Problem.Evaluation

namespace Optima

/-!
# Problems that can be searched

What a search relies on in a problem: that its parts fit together, and that its rules are tame.
-/

section Fitting

/-!
## Well-posed problems

A search over the variables of a problem relies on its parts to fit together.  They do in
every problem that is found to have no structural issue.
-/

variable {α : Type}

/-- The parts of a problem fit together: names are distinct, variables are sound, there is an
objective, and constraints read variables only. -/
structure Problem.WellPosed [Scalar α] (problem : Problem α) : Prop where
  distinct : problem.variableNames.Nodup
  faultless : ∀ decision ∈ problem.decisions, decision.fault? = none
  someObjective : problem.objectives ≠ []
  references :
    ∀ constraint ∈ problem.constraints, ∀ referenced,
      constraint.rule.names? = some referenced →
        ∀ name ∈ referenced, name ∈ problem.variableNames

namespace Validation

/-- Names without a repetition are distinct. -/
theorem nodup_of_repetitions_eq_nil
    {noun : String}
    {names : List String}
    (noneRepeated : (repetitions noun names : List (StructuralIssue α)) = []) :
    names.Nodup := by
  rw [repetitions, List.map_eq_nil_iff, repeatedNames, List.filter_eq_nil_iff] at noneRepeated
  rw [List.nodup_iff_count_le_one]
  intro name
  by_cases member : name ∈ names
  · have notTwice := noneRepeated name (List.mem_eraseDups.mpr member)
    simpa using notTwice
  · simp [List.count_eq_zero.mpr member]

/-- A rule without an unknown reference reads known names only. -/
theorem mem_of_unknownReferences_eq_nil
    {noun item : String}
    {rule : Rule α}
    {known referenced : List String}
    (noneUnknown : unknownReferences noun item rule known = [])
    (areNames : rule.names? = some referenced) :
    ∀ name ∈ referenced, name ∈ known := by
  intro name member
  rw [unknownReferences, areNames] at noneUnknown
  have noneLeft := List.map_eq_nil_iff.mp noneUnknown
  by_contra isUnknown
  have isLeft : name ∈ referenced.filter fun name => !known.contains name := by
    simp [member, isUnknown]
  have inSorted := (List.mergeSort_perm _ fun a b => decide (a ≤ b)).mem_iff.mpr isLeft
  rw [noneLeft] at inSorted
  simp at inSorted

/-- A problem of sound variables that is found to have no issue is well posed. -/
theorem wellPosed_of_issues_eq_nil
    [Scalar α]
    {limits : ValidationLimits}
    {problem : Problem α}
    (faultless : ∀ decision ∈ problem.decisions, decision.fault? = none)
    (noIssue : issues limits (.generic problem) = .ok []) :
    problem.WellPosed := by
  obtain ⟨domains, -, noIssue⟩ := bind_eq_ok noIssue
  have noIssue := Except.ok.inj noIssue
  simp only [List.append_eq_nil_iff, List.flatMap_eq_nil_iff] at noIssue
  obtain ⟨⟨⟨⟨⟨someObjective, ⟨namesDistinct, -⟩, -⟩, -⟩, -⟩, -, known⟩, -⟩ := noIssue
  refine ⟨nodup_of_repetitions_eq_nil namesDistinct, faultless, ?_, ?_⟩
  · intro noObjective
    simp [AnyProblem.base, noObjective] at someObjective
  · intro constraint member referenced areNames name inReferenced
    have isKnown :=
      mem_of_unknownReferences_eq_nil (known constraint member) areNames name inReferenced
    exact List.mem_eraseDups.mp isKnown

end Validation

end Fitting

/-!
## Problems whose rules are tame

Tame rules fail only in ways that a search contains, and so does all that is computed
from them.  Whether a constraint holds depends on the names that it may read, and prices
around an assignment exist wherever the rules themselves have values.
-/

variable {α : Type}

/-- Objectives and constraints are expressions, or closures that behave like such. -/
structure Problem.IsTame (problem : Problem α) : Prop where
  objectives : ∀ objective ∈ problem.objectives, objective.rule.IsTame
  constraints : ∀ constraint ∈ problem.constraints, constraint.rule.IsTame

variable [Scalar α] {assignment : Assignment α} {tolerance : α}

namespace Constraint

variable {constraint : Constraint α}

theorem contained_violation
    (isTame : constraint.rule.IsTame)
    (isNumeric : assignment.IsNumeric)
    (tolerance : α) :
    Contained (constraint.violation tolerance assignment) :=
  (Rule.contained_evaluate isTame isNumeric).map _

/-- Whether a constraint holds depends on the values of the names that it may read. -/
theorem holdsOn_congr
    {other : Assignment α}
    (isExtensional : constraint.rule.IsExtensional)
    (agree : ∀ name, constraint.rule.Reads name → assignment.get? name = other.get? name) :
    constraint.HoldsOn tolerance assignment ↔ constraint.HoldsOn tolerance other := by
  have sameValue : constraint.evaluate assignment = constraint.evaluate other :=
    Rule.evaluate_congr isExtensional agree
  simp only [HoldsOn, violation, sameValue]

end Constraint

namespace Constraints

variable {constraints : List (Constraint α)}

theorem contained_feasible
    (areTame : ∀ constraint ∈ constraints, constraint.rule.IsTame)
    (isNumeric : assignment.IsNumeric) :
    Contained (feasible tolerance assignment constraints) := by
  induction constraints with
  | nil =>
      exact contained_ok true
  | cons constraint rest inductionHypothesis =>
      have restContained := inductionHypothesis fun other member =>
        areTame other (List.mem_cons_of_mem constraint member)
      have isContained :=
        (Constraint.contained_violation (areTame constraint (by simp)) isNumeric tolerance).map
          (· == 0)
      refine isContained.bind fun isSatisfied _ => ?_
      cases isSatisfied with
      | true => exact restContained
      | false => exact contained_ok false

theorem contained_totalFrom
    (areTame : ∀ constraint ∈ constraints, constraint.rule.IsTame)
    (isNumeric : assignment.IsNumeric)
    (total : α) :
    Contained (totalFrom tolerance assignment total constraints) := by
  induction constraints generalizing total with
  | nil =>
      exact contained_ok total
  | cons constraint rest inductionHypothesis =>
      have isContained :=
        Constraint.contained_violation (areTame constraint (by simp)) isNumeric tolerance
      exact isContained.bind fun magnitude _ =>
        inductionHypothesis
          (fun other member => areTame other (List.mem_cons_of_mem constraint member))
          (total + magnitude)

end Constraints

namespace Objectives

variable {objectives : List (Objective α)}

theorem contained_valuesInto
    (areTame : ∀ objective ∈ objectives, objective.rule.IsTame)
    (isNumeric : assignment.IsNumeric)
    (known : Table α) :
    Contained (valuesInto assignment known objectives) := by
  induction objectives generalizing known with
  | nil =>
      exact contained_ok known
  | cons objective rest inductionHypothesis =>
      have isContained := Rule.contained_evaluate (areTame objective (by simp)) isNumeric
      exact isContained.bind fun value _ =>
        inductionHypothesis
          (fun other member => areTame other (List.mem_cons_of_mem objective member))
          (known.insert objective.name value)

theorem contained_values
    (areTame : ∀ objective ∈ objectives, objective.rule.IsTame)
    (isNumeric : assignment.IsNumeric) :
    Contained (values objectives assignment) :=
  contained_valuesInto areTame isNumeric {}

theorem contained_costOf
    (areTame : ∀ objective ∈ objectives, objective.rule.IsTame)
    (isNumeric : assignment.IsNumeric) :
    Contained (costOf objectives assignment) :=
  (contained_values areTame isNumeric).map _

end Objectives

namespace Sensitivity

variable {function : Assignment α → Except (EvalFailure α) α} {defaultBounds : α × α}
  {decisions : List (Variable α)}

/-- A variable has an interval and is bound to a number, so that it can be probed. -/
structure CanProbe (assignment : Assignment α) (defaultBounds : α × α) (decision : Variable α) :
    Prop where
  interval : ∃ interval, decision.bounds defaultBounds = .ok interval
  value : ∃ number, assignment.get? decision.name = some (.number number)

theorem exists_slope_eq_ok
    (contained : ∀ other : Assignment α, other.IsNumeric → Contained (function other))
    (isNumeric : assignment.IsNumeric)
    (step : α)
    {decision : Variable α}
    (canProbe : CanProbe assignment defaultBounds decision) :
    ∃ value, slope function assignment defaultBounds step decision = .ok value := by
  obtain ⟨interval, isInterval⟩ := canProbe.interval
  obtain ⟨number, isNumber⟩ := canProbe.value
  have outcomes (end_ : α) :
      (∃ value, function (assignment.insert decision.name (.number end_)) = .ok value) ∨
        ∃ error,
          function (assignment.insert decision.name (.number end_)) =
            .error (.rejected error) := by
    have isContained := contained _ (isNumeric.insert decision.name end_)
    cases isOutcome : function (assignment.insert decision.name (.number end_)) with
    | ok value => exact Or.inl ⟨value, rfl⟩
    | error failure =>
        cases failure with
        | rejected error => exact Or.inr ⟨error, rfl⟩
        | broken breakdown => exact absurd isOutcome (isContained breakdown)
  unfold slope
  split
  · exact ⟨0, rfl⟩
  · simp only [isInterval, numberAt, isNumber, bind, Except.bind]
    split
    · exact ⟨0, rfl⟩
    · rcases outcomes (probe decision step number interval).1 with
        ⟨above, isAbove⟩ | ⟨error, isError⟩
      · rcases outcomes (probe decision step number interval).2 with
          ⟨below, isBelow⟩ | ⟨error, isError⟩
        · exact ⟨_, by rw [isAbove]; dsimp only; rw [isBelow]; rfl⟩
        · exact ⟨0, by rw [isAbove]; dsimp only; rw [isError]; rfl⟩
      · exact ⟨0, by rw [isError]; rfl⟩

theorem exists_gradientInto_eq_ok
    (contained : ∀ other : Assignment α, other.IsNumeric → Contained (function other))
    (isNumeric : assignment.IsNumeric)
    (step : α)
    (canProbe : ∀ decision ∈ decisions, CanProbe assignment defaultBounds decision)
    (slopes : Table α) :
    ∃ gradient,
      gradientInto function assignment defaultBounds step slopes decisions = .ok gradient := by
  induction decisions generalizing slopes with
  | nil =>
      exact ⟨slopes, rfl⟩
  | cons decision rest inductionHypothesis =>
      obtain ⟨value, isValue⟩ :=
        exists_slope_eq_ok contained isNumeric step (canProbe decision (by simp))
      obtain ⟨gradient, isGradient⟩ :=
        inductionHypothesis
          (fun other member => canProbe other (List.mem_cons_of_mem decision member))
          (slopes.insert decision.name value)
      exact ⟨gradient, by simp only [gradientInto, isValue, isGradient, bind, Except.bind]⟩

variable {problem : Problem α} {probing : Probing α}

theorem exists_ofConstraint_eq_ok
    {constraint : Constraint α}
    (isTame : constraint.rule.IsTame)
    (valued : ∃ value, constraint.evaluate assignment = .ok value)
    (isNumeric : assignment.IsNumeric)
    (canProbe : ∀ decision ∈ problem.decisions,
      CanProbe assignment probing.defaultBounds decision)
    (costGradient : Table α) :
    ∃ account, ofConstraint problem probing assignment costGradient constraint = .ok account := by
  obtain ⟨value, isValue⟩ := valued
  have differentiable :
      ∃ gradient,
        gradientInto (fun other => constraint.evaluate other) assignment probing.defaultBounds
          probing.step {} problem.decisions = .ok gradient :=
    exists_gradientInto_eq_ok (fun _ otherNumeric => Rule.contained_evaluate isTame otherNumeric)
      isNumeric probing.step canProbe {}
  obtain ⟨gradient, isGradient⟩ := differentiable
  unfold ofConstraint
  simp only [isValue, isGradient, Except.mapError, bind, Except.bind, pure, Except.pure]
  split
  · exact ⟨_, rfl⟩
  · split <;> exact ⟨_, rfl⟩

theorem exists_ofConstraints_eq_ok
    {constraints : List (Constraint α)}
    (areTame : ∀ constraint ∈ constraints, constraint.rule.IsTame)
    (valued : ∀ constraint ∈ constraints, ∃ value, constraint.evaluate assignment = .ok value)
    (isNumeric : assignment.IsNumeric)
    (canProbe : ∀ decision ∈ problem.decisions,
      CanProbe assignment probing.defaultBounds decision)
    (costGradient : Table α) :
    ∃ accounts,
      ofConstraints problem probing assignment costGradient constraints = .ok accounts := by
  induction constraints with
  | nil =>
      exact ⟨([], []), rfl⟩
  | cons constraint rest inductionHypothesis =>
      obtain ⟨account, isAccount⟩ :=
        exists_ofConstraint_eq_ok (areTame constraint (by simp)) (valued constraint (by simp))
          isNumeric canProbe costGradient
      obtain ⟨accounts, areAccounts⟩ :=
        inductionHypothesis
          (fun other member => areTame other (List.mem_cons_of_mem constraint member))
          (fun other member => valued other (List.mem_cons_of_mem constraint member))
      simp only [ofConstraints, isAccount, areAccounts, bind, Except.bind, pure, Except.pure]
      exact ⟨_, rfl⟩

theorem exists_ofVariables_eq_ok
    (canProbe : ∀ decision ∈ decisions, CanProbe assignment probing.defaultBounds decision)
    (costGradient : Table α)
    (bindings : List (Binding α)) :
    ∃ accounts,
      ofVariables probing assignment costGradient bindings decisions = .ok accounts := by
  induction decisions with
  | nil =>
      exact ⟨[], rfl⟩
  | cons decision rest inductionHypothesis =>
      obtain ⟨interval, isInterval⟩ := (canProbe decision (by simp)).interval
      obtain ⟨number, isNumber⟩ := (canProbe decision (by simp)).value
      obtain ⟨accounts, areAccounts⟩ :=
        inductionHypothesis fun other member =>
          canProbe other (List.mem_cons_of_mem decision member)
      have isAccount :
          ∃ account, ofVariable probing assignment costGradient bindings decision =
            .ok account := by
        unfold ofVariable
        split
        · exact ⟨_, rfl⟩
        · simp only [isInterval, numberAt, isNumber, bind, Except.bind]
          exact ⟨_, rfl⟩
      obtain ⟨account, isAccount⟩ := isAccount
      simp only [ofVariables, isAccount, areAccounts, bind, Except.bind, pure, Except.pure]
      exact ⟨_, rfl⟩

/-- There are prices around an assignment on which tame rules have values. -/
theorem exists_around_eq_ok
    (isTame : problem.IsTame)
    (valued : problem.IsValuedOn assignment)
    (isNumeric : assignment.IsNumeric)
    (canProbe : ∀ decision ∈ problem.decisions,
      CanProbe assignment probing.defaultBounds decision) :
    ∃ sensitivity, around problem probing assignment = .ok sensitivity := by
  obtain ⟨values, areValues⟩ := Objectives.exists_values_eq_ok valued.objectives
  obtain ⟨costGradient, isCostGradient⟩ :=
    exists_gradientInto_eq_ok
      (fun other otherNumeric => Objectives.contained_costOf isTame.objectives otherNumeric)
      isNumeric probing.step canProbe {}
  obtain ⟨⟨constraints, bindings⟩, areConstraints⟩ :=
    exists_ofConstraints_eq_ok isTame.constraints valued.constraints isNumeric canProbe
      costGradient
  obtain ⟨decisions, areDecisions⟩ :=
    exists_ofVariables_eq_ok canProbe costGradient bindings
  simp only [around, areValues, isCostGradient, areConstraints, areDecisions, Except.mapError,
    bind, Except.bind, pure, Except.pure]
  exact ⟨_, rfl⟩

end Sensitivity

end Optima
