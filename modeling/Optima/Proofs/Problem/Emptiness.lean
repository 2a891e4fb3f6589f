import Mathlib
import Optima.Problem.Any
import Optima.Proofs.Problem.Obstruction
import Optima.Proofs.Problem.WellPosed
import Optima.Search.Candidates

namespace Optima

/-!
# Which intervals of a search are empty

A variable that lacks a bound gets its interval from the range that its search takes by default.
Validation looks at the interval that a whole variable has by the usual range, and nothing looks at
the range that the search takes.  So a problem without a structural issue may be searched with empty
intervals: with those, and only with those, that the default range leaves no number in.  Constraints
never empty an interval.
-/

variable {α : Type} [Scalar α]

/-!
## A variable's own interval
-/

namespace Variable

/-- The interval of a variable does not depend on a default range. -/
def HasOwnEnds (decision : Variable α) : Prop :=
  decision.kind = .binary ∨ decision.kind = .categorical ∨
    decision.lower ≠ none ∧ decision.upper ≠ none

omit [Scalar α] in
/-- A variable without ends of its own is a real or a whole one that lacks a bound. -/
theorem hasOwnEnds_or_isOpen
    (decision : Variable α) :
    decision.HasOwnEnds ∨
      (decision.kind = .integer ∨ decision.kind = .continuous) ∧
        (decision.lower = none ∨ decision.upper = none) := by
  unfold HasOwnEnds
  cases decision.kind <;> simp <;> tauto

theorem openBounds_eq_of_ne_none
    {decision : Variable α}
    (hasLower : decision.lower ≠ none)
    (hasUpper : decision.upper ≠ none)
    (defaultBounds : α × α) :
    ∃ lower upper, decision.lower = some lower ∧ decision.upper = some upper ∧
      decision.openBounds defaultBounds = (lower, upper) := by
  obtain ⟨lower, isLower⟩ := Option.ne_none_iff_exists'.mp hasLower
  obtain ⟨upper, isUpper⟩ := Option.ne_none_iff_exists'.mp hasUpper
  exact ⟨lower, upper, isLower, isUpper, by rw [openBounds, isLower, isUpper]⟩

section Own

variable [SolvingScalar α] {decision : Variable α} {defaultBounds domain : α × α}
  (faultless : decision.fault? = none)

include faultless

/-- Bounds that a variable has itself are not in the wrong order. -/
theorem le_of_own_bounds
    (notCategorical : decision.kind ≠ .categorical)
    {lower upper : α}
    (isLower : decision.lower = some lower)
    (isUpper : decision.upper = some upper) :
    lower ≤ upper := by
  apply OrderedScalar.le_of_not_lt
  intro isReversed
  simp only [fault?, if_neg notCategorical, numericFault?, isLower, isUpper, if_pos isReversed,
    Option.some_or] at faultless
  split at faultless <;> cases faultless

/-- The interval of a binary variable is not empty. -/
theorem bounds_le_of_binary
    (isBinary : decision.kind = .binary) :
    decision.lower.getD 0 ≤ decision.upper.getD 1 := by
  have ofBound (bound : α) (isBound : bound ∈ decision.lower.toList ++ decision.upper.toList) :=
    isWhole_of_isBinaryBound (isBinaryBound_of_fault?_eq_none isBinary faultless isBound)
  cases isLower : decision.lower with
  | none =>
      cases isUpper : decision.upper with
      | none =>
          exact (Scalar.le_iff_of_toRat? FractionalScalar.toRat?_zero
            FractionalScalar.toRat?_one).mpr zero_le_one
      | some upper => exact (ofBound upper (by simp [isUpper])).2.1
  | some lower =>
      cases isUpper : decision.upper with
      | none => exact (ofBound lower (by simp [isLower])).2.2
      | some upper => exact le_of_own_bounds faultless (by simp [isBinary]) isLower isUpper

/-- The interval of a categorical variable is not empty. -/
theorem bounds_le_of_categorical
    (isCategorical : decision.kind = .categorical) :
    0 ≤ (Scalar.ofInt (decision.categoryNames.length - 1 : Int) : α) := by
  have someCategory : 0 < decision.categoryNames.length :=
    List.length_pos_iff.mpr (nodup_categoryNames faultless isCategorical).1
  have isZero : Scalar.toRat? (0 : α) = some ((0 : Int) : Rat) := by
    rw [FractionalScalar.toRat?_zero, Int.cast_zero]
  calc (0 : α)
      = Scalar.ofInt 0 := (Scalar.eq_of_beq (FractionalScalar.ofInt_beq _ _ isZero)).symm
    _ ≤ Scalar.ofInt (decision.categoryNames.length - 1 : Int) :=
        FractionalScalar.ofInt_mono _ _ (by omega)

omit faultless in
/-- The interval of a real or whole variable is not empty if there is a number, whole if need be,
between the ends that it is rounded from. -/
theorem bounds_le_iff_exists_isGene
    (isNumeric : decision.kind = .integer ∨ decision.kind = .continuous)
    (isDomain : decision.bounds defaultBounds = .ok domain) :
    domain.1 ≤ domain.2 ↔
      ∃ value, decision.IsGene (decision.openBounds defaultBounds) value := by
  unfold bounds at isDomain
  rcases isNumeric with isInteger | isContinuous
  · rw [isInteger] at isDomain
    obtain ⟨first, isFirst, isDomain⟩ := bind_eq_ok isDomain
    obtain ⟨last, isLast, isDomain⟩ := bind_eq_ok isDomain
    cases isDomain
    obtain ⟨isFinite, rfl⟩ := of_wholePart_eq_ok isFirst
    obtain ⟨isFiniteToo, rfl⟩ := of_wholePart_eq_ok isLast
    constructor
    · intro inOrder
      obtain ⟨isWhole, isAbove⟩ := Scalar.isWhole_ceiling isFinite
      exact ⟨_, isAbove, inOrder.trans (Scalar.isWhole_floor isFiniteToo).2, fun _ => isWhole⟩
    · rintro ⟨value, isAbove, isBelow, isWhole⟩
      have isWhole := isWhole (isDiscrete_iff.mpr (by simp [isInteger]))
      exact (Scalar.ceiling_le_of_isWhole isWhole isFinite isAbove).trans
        (Scalar.le_floor_of_isWhole isWhole isFiniteToo isBelow)
  · rw [isContinuous] at isDomain
    cases isDomain
    constructor
    · exact fun inOrder => ⟨_, le_rfl, inOrder, fun isDiscrete =>
        absurd isContinuous (isDiscrete_iff.mp isDiscrete)⟩
    · rintro ⟨value, isAbove, isBelow, -⟩
      exact isAbove.trans isBelow

end Own

/-!
## The default range
-/

section Default

variable [SolvingScalar α] {decision : Variable α} {defaultBounds domain : α × α} {step : α}

/-- An interval that lacks a bound is as wide as the default range. -/
theorem openBounds_add_le
    (isOpen : decision.lower = none ∨ decision.upper = none)
    (isFiniteLower : Scalar.isFinite defaultBounds.1 = true)
    (isFiniteUpper : Scalar.isFinite defaultBounds.2 = true)
    (isFiniteStep : Scalar.isFinite step = true)
    (isWide : defaultBounds.1 + step ≤ defaultBounds.2) :
    (decision.openBounds defaultBounds).1 + step ≤ (decision.openBounds defaultBounds).2 := by
  set span := defaultBounds.2 - defaultBounds.1 with isSpan
  have isFiniteSpan : Scalar.isFinite span = true :=
    (Scalar.fraction_sub isFiniteUpper isFiniteLower).1
  have atMost : step ≤ span := by
    rw [isSpan, ← SolvingScalar.add_le_iff_le_sub _ _ _ isFiniteLower, add_comm]
    exact isWide
  cases isLower : decision.lower with
  | none =>
      cases isUpper : decision.upper with
      | none =>
          obtain ⟨isFiniteHalf, isTwice⟩ := Scalar.half_add_half isFiniteSpan
          simp only [openBounds, isLower, isUpper, ← isSpan]
          split
          · exact Scalar.sub_add_le_add isFiniteStep isFiniteHalf (isTwice.symm ▸ atMost) _
          · exact isWide
      | some upper =>
          simp only [openBounds, isLower, isUpper, ← isSpan]
          exact Scalar.sub_add_le_self isFiniteStep isFiniteSpan atMost upper
  | some lower =>
      cases isUpper : decision.upper with
      | none =>
          simp only [openBounds, isLower, isUpper, ← isSpan]
          exact ExactScalar.add_le_add_left _ _ _ atMost
      | some upper => simp [isLower, isUpper] at isOpen

/-- A default range leaves a number in each interval that lacks a bound if it is in order, and a
whole number if it is at least one wide. -/
theorem exists_isGene_of_isWide
    (isNumeric : decision.kind = .integer ∨ decision.kind = .continuous)
    (isOpen : decision.lower = none ∨ decision.upper = none)
    (isFiniteLower : Scalar.isFinite defaultBounds.1 = true)
    (isFiniteUpper : Scalar.isFinite defaultBounds.2 = true)
    (isDomain : decision.bounds defaultBounds = .ok domain)
    (isWide : defaultBounds.1 + (if decision.isDiscrete then 1 else 0) ≤ defaultBounds.2) :
    ∃ value, decision.IsGene (decision.openBounds defaultBounds) value := by
  rcases isNumeric with isInteger | isContinuous
  · have isDiscrete : decision.isDiscrete = true := isDiscrete_iff.mpr (by simp [isInteger])
    rw [if_pos isDiscrete] at isWide
    obtain ⟨isFinite, -⟩ : HasFiniteEnds (decision.openBounds defaultBounds) := by
      by_contra notFinite
      exact not_fails_iff.mpr ⟨domain, isDomain⟩ (fails_bounds_iff.mpr ⟨isInteger, notFinite⟩)
    obtain ⟨isWhole, isAbove⟩ := Scalar.isWhole_ceiling isFinite
    refine ⟨_, isAbove, (Scalar.ceiling_le_add_one isFinite).trans ?_, fun _ => isWhole⟩
    exact openBounds_add_le isOpen isFiniteLower isFiniteUpper Scalar.isFinite_one isWide
  · have notDiscrete : ¬ decision.isDiscrete = true :=
      fun isDiscrete => isDiscrete_iff.mp isDiscrete isContinuous
    rw [if_neg notDiscrete] at isWide
    have inOrder := openBounds_add_le isOpen isFiniteLower isFiniteUpper Scalar.isFinite_zero isWide
    rw [add_zero] at inOrder
    exact ⟨_, le_rfl, inOrder, fun isDiscrete => absurd isDiscrete notDiscrete⟩

end Default

end Variable

/-!
## What bounds among the constraints leave
-/

/-- Two intervals of a variable are both empty or both not. -/
structure Variable.KeepsRoom (decision : Variable α) (domain interval : α × α) : Prop where
  areWhole :
    decision.isDiscrete = true → Scalar.IsWhole interval.1 ∧ Scalar.IsWhole interval.2
  le_iff : interval.1 ≤ interval.2 ↔ domain.1 ≤ domain.2

namespace Propagation

/-- Each name has an interval, which is empty just where the own interval of the variable is that it
stands for. -/
def KeepRoom (defaultBounds : α × α) (decisions : List (Variable α)) (bounds : Table (α × α)) :
    Prop :=
  ∀ name decision, bearer? decisions name = some decision →
    ∃ domain interval, decision.bounds defaultBounds = .ok domain ∧
      bounds.get? name = some interval ∧ decision.KeepsRoom domain interval

section Running

variable [SolvingScalar α] {tolerance : α} {defaultBounds : α × α} {problem : Problem α}
  {decisions : List (Variable α)} {constraint : Constraint α} {constraints : List (Constraint α)}
  {state after : Table (α × α) × Table (Conflict α)} {reduction : Reduction α}

/-- One constraint empties no interval, and fills none. -/
theorem keepRoom_step
    (keepRoom : KeepRoom defaultBounds decisions state.1)
    (outcome : step (kindsOf decisions) tolerance state constraint = .ok after) :
    KeepRoom defaultBounds decisions after.1 := by
  rcases cases_of_step_eq_ok outcome with
    ⟨rfl, -⟩ | ⟨term, kind, interval, met, targets, isMet, ⟨-, conflict, rfl⟩ | ⟨notReversed, rfl⟩⟩
  · exact keepRoom
  · exact keepRoom
  · intro name decision isBearer
    rw [Table.get?_insert]
    obtain ⟨domain, found, isDomain, isFound, keepsRoom⟩ := keepRoom name decision isBearer
    by_cases isName : name = term.name
    · obtain rfl := isName
      obtain rfl := Option.some.inj (targets.isInterval.symm.trans isFound)
      have isKind := targets.isKind
      rw [get?_kindsOf, isBearer] at isKind
      obtain rfl := Option.some.inj isKind
      have areWhole := areWhole_of_tightened_eq_ok isMet
      have inOrder := OrderedScalar.le_of_not_lt notReversed
      -- What is left of an interval was in it before.
      have wasLeft := ((isGene_tightened_iff keepsRoom.areWhole isMet met.1).mp
        ⟨le_rfl, inOrder, fun isDiscrete => (areWhole isDiscrete).1⟩).1
      exact ⟨domain, met, isDomain, if_pos rfl, areWhole, iff_of_true inOrder
        (keepsRoom.le_iff.mp (wasLeft.lower_le.trans wasLeft.le_upper))⟩
    · exact ⟨domain, found, isDomain, by rw [if_neg isName, isFound], keepsRoom⟩

/-- Propagation ends with an empty interval just where it starts with one. -/
theorem keepRoom_of_reduce_eq_ok
    (faultless : ∀ decision ∈ problem.decisions, decision.fault? = none)
    (outcome : reduce problem defaultBounds tolerance = .ok reduction) :
    KeepRoom defaultBounds problem.decisions reduction.bounds := by
  obtain ⟨start, started, outcome⟩ := bind_eq_ok outcome
  obtain ⟨⟨bounds, conflicts⟩, stepped, outcome⟩ := bind_eq_ok outcome
  cases outcome
  refine holds_of_steps_eq_ok (fun state => KeepRoom defaultBounds problem.decisions state.1)
    keepRoom_step (fun name decision isBearer => ?_) stepped
  obtain ⟨domain, isDomain, isInterval⟩ :=
    (get?_of_startBounds_eq_ok (mapError_eq_ok started) name).1 decision isBearer
  have faultless := faultless decision (of_bearer?_eq_some isBearer).1
  refine ⟨domain, domain, isDomain, isInterval, fun isDiscrete => ?_, Iff.rfl⟩
  exact (Variable.isTightened_bounds faultless isDomain).isWhole_of_hasFiniteEnds isDiscrete
    (Variable.hasFiniteEnds_bounds faultless isDiscrete isDomain)

end Running

end Propagation

/-!
## Problems without an issue
-/

namespace Validation

variable [OrderedScalar α] {limits : ValidationLimits} {problem : Problem α}
  {decisions : List (Variable α)} {decision : Variable α}

/-- Where no domain is reported as empty, whole variables have an interval by the usual range, and
it is not empty. -/
theorem le_of_emptyDomains_eq_nil
    (noneEmpty : emptyDomains decisions = .ok [])
    (member : decision ∈ decisions)
    (isInteger : decision.kind = .integer) :
    ∃ domain, decision.bounds Variable.usualBounds = .ok domain ∧ domain.1 ≤ domain.2 := by
  induction decisions with
  | nil =>
      cases member
  | cons first rest inductionHypothesis =>
      unfold emptyDomains at noneEmpty
      split at noneEmpty
      · obtain ⟨domain, isDomain, noneEmpty⟩ := bind_eq_ok noneEmpty
        obtain ⟨others, isOthers, noneEmpty⟩ := bind_eq_ok noneEmpty
        have noneEmpty := Except.ok.inj noneEmpty
        split at noneEmpty
        · cases noneEmpty
        · rename_i notReversed
          subst noneEmpty
          rcases List.mem_cons.mp member with rfl | inRest
          · exact ⟨domain, isDomain, OrderedScalar.le_of_not_lt notReversed⟩
          · exact inductionHypothesis isOthers inRest
      · rename_i notInteger
        rcases List.mem_cons.mp member with rfl | inRest
        · exact absurd isInteger notInteger
        · exact inductionHypothesis noneEmpty inRest

omit [OrderedScalar α] in
theorem emptyDomains_eq_nil_of_issues_eq_nil
    (noIssue : issues limits (.generic problem) = .ok []) :
    emptyDomains problem.decisions = .ok [] := by
  obtain ⟨domains, isDomains, noIssue⟩ := bind_eq_ok noIssue
  have noIssue := Except.ok.inj noIssue
  simp only [List.append_eq_nil_iff] at noIssue
  obtain ⟨⟨⟨-, rfl⟩, -⟩, -⟩ := noIssue
  exact isDomains

omit [OrderedScalar α] in
/-- In a problem without an issue the interval of a variable that has its own ends is not empty. -/
theorem bounds_le_of_hasOwnEnds
    [SolvingScalar α]
    {defaultBounds domain : α × α}
    (noIssue : issues limits (.generic problem) = .ok [])
    (member : decision ∈ problem.decisions)
    (faultless : decision.fault? = none)
    (hasOwnEnds : decision.HasOwnEnds)
    (isDomain : decision.bounds defaultBounds = .ok domain) :
    domain.1 ≤ domain.2 := by
  cases isKind : decision.kind with
  | binary =>
      rw [Variable.bounds, isKind] at isDomain
      cases isDomain
      exact Variable.bounds_le_of_binary faultless isKind
  | categorical =>
      rw [Variable.bounds, isKind] at isDomain
      cases isDomain
      exact Variable.bounds_le_of_categorical faultless isKind
  | continuous =>
      obtain ⟨hasLower, hasUpper⟩ : decision.lower ≠ none ∧ decision.upper ≠ none := by
        simpa [Variable.HasOwnEnds, isKind] using hasOwnEnds
      obtain ⟨lower, upper, isLower, isUpper, isOpen⟩ :=
        Variable.openBounds_eq_of_ne_none hasLower hasUpper defaultBounds
      rw [Variable.bounds, isKind] at isDomain
      obtain rfl : (lower, upper) = domain := isOpen.symm.trans (Except.ok.inj isDomain)
      exact Variable.le_of_own_bounds faultless (by simp [isKind]) isLower isUpper
  | integer =>
      obtain ⟨hasLower, hasUpper⟩ : decision.lower ≠ none ∧ decision.upper ≠ none := by
        simpa [Variable.HasOwnEnds, isKind] using hasOwnEnds
      obtain ⟨usual, isUsual, inOrder⟩ := le_of_emptyDomains_eq_nil
        (emptyDomains_eq_nil_of_issues_eq_nil noIssue) member isKind
      obtain ⟨lower, upper, isLower, isUpper, -⟩ :=
        Variable.openBounds_eq_of_ne_none hasLower hasUpper defaultBounds
      have sameDomain : decision.bounds defaultBounds = decision.bounds Variable.usualBounds := by
        simp only [Variable.bounds, Variable.openBounds, isKind, isLower, isUpper]
      obtain rfl := Except.ok.inj (isUsual.symm.trans (sameDomain.symm.trans isDomain))
      exact inOrder

end Validation

namespace Candidates

variable {limits : ValidationLimits} {problem : Problem α} {defaultBounds : α × α}

theorem fails_ofProblem_iff
    {tolerance : α} :
    Fails (ofProblem problem defaultBounds tolerance) ↔
      Fails (Propagation.reduce problem defaultBounds tolerance) :=
  fails_bind_ok_iff fun reduction => (⟨problem, tolerance, reduction⟩ : Candidates α)

/-- A problem without an issue can be searched unless a whole variable is left with an infinite end
or a constraint obstructs propagation.  The search is then given no empty interval but those of
variables that lack a bound, where the default range leaves no number, whole if need be.  A range
that is in order, and at least one wide for whole variables, leaves one. -/
theorem lower_le_upper_iff
    [SolvingScalar α]
    (parameters : SharedParameters α)
    (faultless : ∀ decision ∈ problem.decisions, decision.fault? = none)
    (noIssue : Validation.issues limits (.generic problem) = .ok []) :
    (Fails (ofProblem problem parameters.defaultBounds parameters.tolerance) ↔
        (∃ decision ∈ problem.decisions, decision.kind = .integer ∧
          ¬ HasFiniteEnds (decision.openBounds parameters.defaultBounds)) ∨
          ∃ constraint ∈ problem.constraints,
            Propagation.Obstructs parameters.tolerance problem.decisions constraint) ∧
      ∀ candidates,
        ofProblem problem parameters.defaultBounds parameters.tolerance = .ok candidates →
          ∀ decision ∈ problem.decisions, ∃ interval,
            candidates.reduction.boundsOf? decision.name = some interval ∧
              (interval.1 ≤ interval.2 ↔
                decision.HasOwnEnds ∨
                  ∃ value, decision.IsGene (decision.openBounds parameters.defaultBounds) value) ∧
              (Scalar.isFinite parameters.defaultBounds.1 = true →
                Scalar.isFinite parameters.defaultBounds.2 = true →
                  parameters.defaultBounds.1 + (if decision.isDiscrete then 1 else 0) ≤
                      parameters.defaultBounds.2 →
                    interval.1 ≤ interval.2) := by
  constructor
  · rw [fails_ofProblem_iff, Propagation.fails_reduce_iff faultless]
    simp only [Variable.fails_bounds_iff]
  · intro candidates outcome decision member
    obtain ⟨reduction, isReduction, outcome⟩ := bind_eq_ok outcome
    cases outcome
    have distinct := (Validation.wellPosed_of_issues_eq_nil faultless noIssue).distinct
    obtain ⟨domain, interval, isDomain, isInterval, keepsRoom⟩ :=
      Propagation.keepRoom_of_reduce_eq_ok faultless isReduction decision.name decision
        (Propagation.bearer?_eq_some_of_nodup distinct member)
    have faultless := faultless decision member
    rcases decision.hasOwnEnds_or_isOpen with hasOwnEnds | ⟨isNumeric, isOpen⟩
    · have inOrder := keepsRoom.le_iff.mpr
        (Validation.bounds_le_of_hasOwnEnds noIssue member faultless hasOwnEnds isDomain)
      exact ⟨interval, isInterval, iff_of_true inOrder (.inl hasOwnEnds), fun _ _ _ => inOrder⟩
    · have inOrder_iff := keepsRoom.le_iff.trans
        (Variable.bounds_le_iff_exists_isGene isNumeric isDomain)
      refine ⟨interval, isInterval, ⟨fun inOrder => .inr (inOrder_iff.mp inOrder), ?_⟩,
        fun isFiniteLower isFiniteUpper isWide => inOrder_iff.mpr ?_⟩
      · rintro (hasOwnEnds | isLeft)
        · exact keepsRoom.le_iff.mpr
            (Validation.bounds_le_of_hasOwnEnds noIssue member faultless hasOwnEnds isDomain)
        · exact inOrder_iff.mpr isLeft
      · exact Variable.exists_isGene_of_isWide isNumeric isOpen isFiniteLower isFiniteUpper isDomain
          isWide

section Samples

open Extended

/-- The problem of finding the least `x`, which has no bounds of its own. -/
def leastProblem (kind : VariableKind) : Problem Extended where
  identifier := "least"
  name := "least"
  kind := .geneticAlgorithm
  description := ""
  objectives := [{
    rule := .expression (.variable "x")
    identifier := "value"
    name := "value"
    direction := .minimize
    weight := 1
    priority := 0
    description := "" }]
  constraints := []
  decisions := [{
    identifier := "x"
    name := "x"
    kind := kind
    lower := none
    upper := none
    initial := none
    categories := none
    description := "" }]
  parameters := none
  status := .pending

/-- The usual parameters with another default range. -/
def ranged (lower upper : Rat) : SharedParameters Extended :=
  { SharedParameters.usual 1000 with defaultBounds := (finite lower, finite upper) }

theorem faultless_leastProblem
    {kind : VariableKind}
    (notCategorical : kind ≠ .categorical) :
    ∀ decision ∈ (leastProblem kind).decisions, decision.fault? = none := by
  intro decision member
  obtain rfl := List.mem_singleton.mp member
  cases kind with
  | continuous | integer | binary => rfl
  | categorical => exact absurd rfl notCategorical

theorem issues_leastProblem
    (kind : VariableKind) :
    Validation.issues .usual (.generic (leastProblem kind)) = .ok [] := by
  have told :
      (Validation.issues .usual (.generic (leastProblem kind))).toOption.map List.isEmpty =
        some true := by
    cases kind <;> decide +kernel
  obtain ⟨issues, isOutcome, noIssue⟩ := exists_eq_ok_of_map_toOption told
  rw [isOutcome, List.isEmpty_iff.mp noIssue]

/-- The usual range leaves numbers for a whole variable without bounds. -/
theorem lower_le_upper_leastProblem :
    ∃ candidates interval,
      ofProblem (leastProblem .integer) (ranged 0 100).defaultBounds (ranged 0 100).tolerance =
          .ok candidates ∧
        candidates.reduction.boundsOf? "x" = some interval ∧ interval.1 ≤ interval.2 := by
  obtain ⟨fails_iff, ofSearch⟩ :=
    lower_le_upper_iff (ranged 0 100) (faultless_leastProblem (by decide))
      (issues_leastProblem .integer)
  have notFails :
      ¬ Fails (ofProblem (leastProblem .integer) (ranged 0 100).defaultBounds
        (ranged 0 100).tolerance) := by
    rw [fails_iff]
    rintro (⟨decision, member, -, isInfinite⟩ | ⟨constraint, member, -⟩)
    · obtain rfl := List.mem_singleton.mp member
      exact isInfinite ⟨rfl, rfl⟩
    · cases member
  obtain ⟨candidates, isOutcome⟩ := not_fails_iff.mp notFails
  obtain ⟨interval, isInterval, -, ofWide⟩ :=
    ofSearch candidates isOutcome _ (List.mem_singleton.mpr rfl)
  exact ⟨candidates, interval, isOutcome, isInterval, ofWide rfl rfl (by decide +kernel)⟩

/-- Problems without an issue are searched with empty intervals: a whole variable where the default
range lies between two whole numbers, and a real one where the default range is reversed. -/
theorem empty_intervals_without_issue :
    ((∀ decision ∈ (leastProblem .integer).decisions, decision.fault? = none) ∧
        Validation.issues .usual (.generic (leastProblem .integer)) = .ok [] ∧
        ∃ candidates,
          ofProblem (leastProblem .integer) (ranged (1 / 5) (4 / 5)).defaultBounds
              (ranged (1 / 5) (4 / 5)).tolerance = .ok candidates ∧
            candidates.reduction.boundsOf? "x" = some (finite 1, finite 0) ∧
              ¬ finite 1 ≤ finite 0) ∧
      (∀ decision ∈ (leastProblem .continuous).decisions, decision.fault? = none) ∧
        Validation.issues .usual (.generic (leastProblem .continuous)) = .ok [] ∧
        ∃ candidates,
          ofProblem (leastProblem .continuous) (ranged 100 0).defaultBounds
              (ranged 100 0).tolerance = .ok candidates ∧
            candidates.reduction.boundsOf? "x" = some (finite 100, finite 0) ∧
              ¬ finite 100 ≤ finite 0 := by
  refine ⟨⟨faultless_leastProblem (by decide), issues_leastProblem _, ?_⟩,
    faultless_leastProblem (by decide), issues_leastProblem _, ?_⟩
  · have told :
        (ofProblem (leastProblem .integer) (ranged (1 / 5) (4 / 5)).defaultBounds
          (ranged (1 / 5) (4 / 5)).tolerance).toOption.map (·.reduction.boundsOf? "x") =
            some (some (finite 1, finite 0)) := by
      decide +kernel
    obtain ⟨candidates, isOutcome, isInterval⟩ := exists_eq_ok_of_map_toOption told
    exact ⟨candidates, isOutcome, isInterval, by decide +kernel⟩
  · have told :
        (ofProblem (leastProblem .continuous) (ranged 100 0).defaultBounds
          (ranged 100 0).tolerance).toOption.map (·.reduction.boundsOf? "x") =
            some (some (finite 100, finite 0)) := by
      decide +kernel
    obtain ⟨candidates, isOutcome, isInterval⟩ := exists_eq_ok_of_map_toOption told
    exact ⟨candidates, isOutcome, isInterval, by decide +kernel⟩

end Samples

end Candidates

end Optima
