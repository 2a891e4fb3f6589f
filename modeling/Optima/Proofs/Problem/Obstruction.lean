import Optima.Proofs.Problem.Narrowing

namespace Optima

/-!
# Where propagation fails

The ends of an interval that is searched for whole numbers are rounded, and only finite numbers can
be.  What other bounds have left of such an interval is finite, so it is for a bound alone to say
whether the interval that it leaves can be rounded.  Therefore propagation fails just where a
variable has no interval to start with, or where one of the constraints obstructs it; in which order
the constraints are listed does not matter.
-/

variable {α : Type} [Scalar α]

namespace Variable

variable [BoundedScalar α] {decision : Variable α} {defaultBounds : α × α}

theorem wholePart_eq_ok_iff
    {round : α → α}
    {value whole : α} :
    wholePart round value = .ok whole ↔ Scalar.isFinite value = true ∧ whole = round value := by
  refine ⟨of_wholePart_eq_ok, ?_⟩
  rintro ⟨isFinite, rfl⟩
  exact exists_wholePart_eq_ok isFinite round

/-- Only a whole variable may have no interval, where one cannot be rounded to whole numbers. -/
theorem fails_bounds_iff :
    Fails (decision.bounds defaultBounds) ↔
      decision.kind = .integer ∧ ¬ HasFiniteEnds (decision.openBounds defaultBounds) := by
  unfold bounds
  cases isKind : decision.kind with
  | integer =>
      rw [← not_iff_not, not_fails_iff, and_iff_right rfl, not_not]
      constructor
      · rintro ⟨interval, outcome⟩
        obtain ⟨first, isFirst, outcome⟩ := bind_eq_ok outcome
        obtain ⟨last, isLast, -⟩ := bind_eq_ok outcome
        exact ⟨(wholePart_eq_ok_iff.mp isFirst).1, (wholePart_eq_ok_iff.mp isLast).1⟩
      · rintro ⟨isFinite, isFiniteToo⟩
        simp [exists_wholePart_eq_ok isFinite, exists_wholePart_eq_ok isFiniteToo, bind,
          Except.bind, pure, Except.pure]
  | continuous | binary | categorical => simp [Fails]

end Variable

/-- The cuts of a bound leave finite numbers above and below them. -/
structure Constraint.HasFiniteCuts (constraint : Constraint α) (term : SingleTerm α)
    (tolerance : α) : Prop where
  lower : ∀ cut, constraint.lowerCut? term tolerance = some cut →
    ∃ value, Scalar.isFinite value = true ∧ cut ≤ value
  upper : ∀ cut, constraint.upperCut? term tolerance = some cut →
    ∃ value, Scalar.isFinite value = true ∧ value ≤ cut

namespace Propagation

/-- A bound that propagation fails on: its form cannot be found, or what it leaves of a variable's
interval cannot be rounded to whole numbers. -/
def Obstructs (tolerance : α) (decisions : List (Variable α)) (constraint : Constraint α) : Prop :=
  constraint.kind = .bound ∧
    (Fails constraint.singleTerm? ∨
      ∃ term decision, constraint.singleTerm? = .ok (some term) ∧
        bearer? decisions term.name = some decision ∧ decision.isDiscrete = true ∧
          decision.kind ≠ .categorical ∧ ¬ constraint.HasFiniteCuts term tolerance)

/-- Each name that a variable bears has an interval, with finite ends where the variable is
discrete. -/
def Covers (decisions : List (Variable α)) (bounds : Table (α × α)) : Prop :=
  ∀ name decision, bearer? decisions name = some decision →
    ∃ interval, bounds.get? name = some interval ∧
      (decision.isDiscrete = true → HasFiniteEnds interval)

section Cutting

variable [SolvingScalar α] {lower upper : α} {cut? : Option α} {constraint : Constraint α}
  {term : SingleTerm α} {kind : VariableKind} {tolerance : α} {interval : α × α}

/-- A finite end is raised to a finite number by a cut that is below a finite number. -/
theorem isFinite_raised_iff
    (isFinite : Scalar.isFinite lower = true) :
    Scalar.isFinite (raised lower cut?) = true ↔
      ∀ cut, cut? = some cut → ∃ value, Scalar.isFinite value = true ∧ cut ≤ value := by
  constructor
  · exact fun isRaised cut isCut => ⟨_, isRaised, (raised_le_iff.mp le_rfl).2 cut isCut⟩
  · intro cutsBelow
    cases cut? with
    | none => exact isFinite
    | some cut =>
        obtain ⟨value, isFiniteToo, isBelow⟩ := cutsBelow cut rfl
        obtain ⟨bound, isBound, atMost, atMostToo⟩ :
            ∃ bound, Scalar.isFinite bound = true ∧ lower ≤ bound ∧ value ≤ bound := by
          rcases OrderedScalar.le_total lower value with inOrder | isReversed
          · exact ⟨value, isFiniteToo, inOrder, le_rfl⟩
          · exact ⟨lower, isFinite, le_rfl, isReversed⟩
        refine BoundedScalar.isFinite_between lower _ bound (raised_le_iff.mp le_rfl).1 ?_ isFinite
          isBound
        rw [raised_le_iff]
        refine ⟨atMost, ?_⟩
        rintro _ ⟨⟩
        exact isBelow.trans atMostToo

/-- A finite end is lowered to a finite number by a cut that is above a finite number. -/
theorem isFinite_lowered_iff
    (isFinite : Scalar.isFinite upper = true) :
    Scalar.isFinite (lowered upper cut?) = true ↔
      ∀ cut, cut? = some cut → ∃ value, Scalar.isFinite value = true ∧ value ≤ cut := by
  constructor
  · exact fun isLowered cut isCut => ⟨_, isLowered, (le_lowered_iff.mp le_rfl).2 cut isCut⟩
  · intro cutsAbove
    cases cut? with
    | none => exact isFinite
    | some cut =>
        obtain ⟨value, isFiniteToo, isAbove⟩ := cutsAbove cut rfl
        obtain ⟨bound, isBound, atLeast, atLeastToo⟩ :
            ∃ bound, Scalar.isFinite bound = true ∧ bound ≤ upper ∧ bound ≤ value := by
          rcases OrderedScalar.le_total upper value with inOrder | isReversed
          · exact ⟨upper, isFinite, le_rfl, inOrder⟩
          · exact ⟨value, isFiniteToo, isReversed, le_rfl⟩
        refine BoundedScalar.isFinite_between bound _ upper ?_ (le_lowered_iff.mp le_rfl).1 isBound
          isFinite
        rw [le_lowered_iff]
        refine ⟨atLeast, ?_⟩
        rintro _ ⟨⟩
        exact atLeastToo.trans isAbove

theorem fails_wholeInterval_iff :
    Fails (wholeInterval interval) ↔ ¬ HasFiniteEnds interval := by
  rw [← not_iff_not, not_fails_iff, not_not]
  refine Iff.trans ?_ (and_congr (Scalar.isFinite_sub_iff Scalar.isFinite_slack)
    (Scalar.isFinite_add_iff Scalar.isFinite_slack))
  constructor
  · rintro ⟨whole, outcome⟩
    obtain ⟨isFinite, isFiniteToo, -⟩ := of_wholeInterval_eq_ok outcome
    exact ⟨isFinite, isFiniteToo⟩
  · rintro ⟨isFinite, isFiniteToo⟩
    simp [wholeInterval, Variable.exists_wholePart_eq_ok isFinite,
      Variable.exists_wholePart_eq_ok isFiniteToo, bind, Except.bind, pure, Except.pure]

/-- Whether a bound can be applied to an interval of whole numbers is told by its cuts. -/
theorem fails_tightened_iff
    (hasFiniteEnds : kind ≠ .continuous → HasFiniteEnds interval) :
    Fails (tightened constraint term kind tolerance interval) ↔
      kind ≠ .continuous ∧ ¬ constraint.HasFiniteCuts term tolerance := by
  rw [tightened_eq]
  by_cases isContinuous : kind = .continuous
  · simp [isContinuous, Fails]
  · obtain ⟨isFinite, isFiniteToo⟩ := hasFiniteEnds isContinuous
    rw [if_neg isContinuous, fails_wholeInterval_iff, and_iff_right isContinuous, HasFiniteEnds,
      isFinite_raised_iff isFinite, isFinite_lowered_iff isFiniteToo]
    refine not_congr ⟨fun areBetween => ⟨areBetween.1, areBetween.2⟩, ?_⟩
    exact fun hasFiniteCuts => ⟨hasFiniteCuts.lower, hasFiniteCuts.upper⟩

end Cutting

section Running

variable [SolvingScalar α] {tolerance : α} {defaultBounds : α × α} {constraint : Constraint α}
  {constraints : List (Constraint α)} {decisions : List (Variable α)} {problem : Problem α}
  {state after : Table (α × α) × Table (Conflict α)}

/-- A step fails just where its constraint obstructs propagation. -/
theorem fails_step_iff_obstructs
    (covers : Covers decisions state.1) :
    Fails (step (kindsOf decisions) tolerance state constraint) ↔
      Obstructs tolerance decisions constraint := by
  rw [fails_step_iff, Obstructs, and_or_left]
  refine or_congr_right ⟨?_, ?_⟩
  · rintro ⟨term, kind, interval, targets, tightenedFails⟩
    have isKind := targets.isKind
    rw [get?_kindsOf, Option.map_eq_some_iff] at isKind
    obtain ⟨decision, isBearer, rfl⟩ := isKind
    obtain ⟨found, isFound, hasFiniteEnds⟩ := covers term.name decision isBearer
    obtain rfl := Option.some.inj (targets.isInterval.symm.trans isFound)
    rw [fails_tightened_iff fun notContinuous =>
      hasFiniteEnds (Variable.isDiscrete_iff.mpr notContinuous)] at tightenedFails
    obtain ⟨notContinuous, infiniteCuts⟩ := tightenedFails
    exact ⟨targets.isBound, term, decision, targets.isTerm, isBearer,
      Variable.isDiscrete_iff.mpr notContinuous, targets.notCategorical, infiniteCuts⟩
  · rintro ⟨isBound, term, decision, isTerm, isBearer, isDiscrete, notCategorical, infiniteCuts⟩
    obtain ⟨interval, isInterval, hasFiniteEnds⟩ := covers term.name decision isBearer
    refine ⟨term, decision.kind, interval, ⟨isBound, isTerm, isInterval, ?_, notCategorical⟩, ?_⟩
    · rw [get?_kindsOf, isBearer]
      rfl
    · rw [fails_tightened_iff fun _ => hasFiniteEnds isDiscrete]
      exact ⟨Variable.isDiscrete_iff.mp isDiscrete, infiniteCuts⟩

/-- A step keeps the intervals of whole numbers finite. -/
theorem covers_step
    (covers : Covers decisions state.1)
    (outcome : step (kindsOf decisions) tolerance state constraint = .ok after) :
    Covers decisions after.1 := by
  rcases cases_of_step_eq_ok outcome with
    ⟨rfl, -⟩ | ⟨term, kind, interval, met, targets, isMet, ⟨-, conflict, rfl⟩ | ⟨-, rfl⟩⟩
  · exact covers
  · exact covers
  · intro name decision isBearer
    rw [Table.get?_insert]
    by_cases isName : name = term.name
    · obtain rfl := isName
      have isKind := targets.isKind
      rw [get?_kindsOf, isBearer] at isKind
      obtain rfl := Option.some.inj isKind
      refine ⟨met, if_pos rfl, fun isDiscrete => ?_⟩
      rw [tightened, if_neg (Variable.isDiscrete_iff.mp isDiscrete)] at isMet
      exact hasFiniteEnds_wholeInterval isMet
    · rw [if_neg isName]
      exact covers name decision isBearer

/-- Steps fail, one after the other, just where one of the constraints obstructs propagation. -/
theorem fails_steps_iff
    (covers : Covers decisions state.1) :
    Fails (steps (kindsOf decisions) tolerance state constraints) ↔
      ∃ constraint ∈ constraints, Obstructs tolerance decisions constraint := by
  induction constraints generalizing state with
  | nil =>
      simp [steps, Fails]
  | cons constraint rest inductionHypothesis =>
      rw [List.exists_mem_cons_iff, steps]
      by_cases obstructs : Obstructs tolerance decisions constraint
      · have firstFails := (fails_step_iff_obstructs covers).mpr obstructs
        exact iff_of_true (firstFails.bind _) (.inl obstructs)
      · obtain ⟨next, stepped⟩ :=
          not_fails_iff.mp fun fails => obstructs ((fails_step_iff_obstructs covers).mp fails)
        rw [or_iff_right obstructs, stepped]
        exact inductionHypothesis (covers_step covers stepped)

omit [SolvingScalar α] in
/-- The intervals of variables cannot be set up just where one of them has none. -/
theorem fails_startBounds_iff
    {known : Table (α × α)} :
    Fails (startBounds defaultBounds known decisions) ↔
      ∃ decision ∈ decisions, Fails (decision.bounds defaultBounds) := by
  induction decisions generalizing known with
  | nil =>
      simp [startBounds, Fails]
  | cons decision rest inductionHypothesis =>
      rw [List.exists_mem_cons_iff, startBounds]
      by_cases firstFails : Fails (decision.bounds defaultBounds)
      · exact iff_of_true (firstFails.bind _) (.inl firstFails)
      · obtain ⟨interval, isInterval⟩ := not_fails_iff.mp firstFails
        rw [or_iff_right firstFails, isInterval]
        exact inductionHypothesis

/-- The intervals that variables start with are finite where numbers are whole. -/
theorem covers_start
    (faultless : ∀ decision ∈ decisions, decision.fault? = none)
    {start : Table (α × α)}
    (started : startBounds defaultBounds {} decisions = .ok start) :
    Covers decisions start := by
  intro name decision isBearer
  obtain ⟨domain, isDomain, isInterval⟩ :=
    (get?_of_startBounds_eq_ok started name).1 decision isBearer
  exact ⟨domain, isInterval, fun isDiscrete =>
    Variable.hasFiniteEnds_bounds (faultless decision (of_bearer?_eq_some isBearer).1) isDiscrete
      isDomain⟩

/-- Propagation fails just where a variable has no interval, or a constraint obstructs it. -/
theorem fails_reduce_iff
    (faultless : ∀ decision ∈ problem.decisions, decision.fault? = none) :
    Fails (reduce problem defaultBounds tolerance) ↔
      (∃ decision ∈ problem.decisions, Fails (decision.bounds defaultBounds)) ∨
        ∃ constraint ∈ problem.constraints, Obstructs tolerance problem.decisions constraint := by
  rw [← fails_startBounds_iff]
  unfold reduce
  cases started : startBounds defaultBounds {} problem.decisions with
  | error breakdown =>
      exact iff_of_true ⟨_, rfl⟩ (.inl ⟨breakdown, rfl⟩)
  | ok start =>
      have covers : Covers problem.decisions (start, (∅ : Table (Conflict α))).1 :=
        covers_start faultless started
      rw [or_iff_right (by simp [Fails]), ← fails_steps_iff covers]
      exact fails_bind_ok_iff fun (after : Table (α × α) × Table (Conflict α)) =>
        (⟨after.1, fixedValues after.1, after.2⟩ : Reduction α)

end Running

end Propagation

end Optima
