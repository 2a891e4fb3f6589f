import Mathlib
import Optima.Proofs.Expression.Analysis
import Optima.Proofs.Problem.Threshold

namespace Optima

/-!
# How far propagation narrows intervals

A bound on a single variable cuts off what lies below one number, or above one, or both.  Where
the variable is discrete, the slack is allowed for and the rest is rounded to whole numbers.  What
one bound leaves does not depend on what the others left.  So propagation that meets no conflict
ends with just those numbers of each variable's own interval that every bound leaves, and one that
meets a conflict has found a variable of which nothing is left.
-/

variable {α : Type} [Scalar α]

/-!
## The variable of a name

Several variables may bear one name.  The last of them gives the name its interval and its kind.
-/

namespace Propagation

/-- The variable that a name stands for. -/
def bearer? (decisions : List (Variable α)) (name : String) : Option (Variable α) :=
  decisions.reverse.find? fun decision => decision.name == name

/-- The kinds of variables by name. -/
def kindsOf (decisions : List (Variable α)) : Table VariableKind :=
  Table.ofList (decisions.map fun decision => (decision.name, decision.kind))

section Bearer

variable {decisions : List (Variable α)} {name : String} {decision : Variable α}
  {defaultBounds : α × α}

omit [Scalar α] in
theorem bearer?_cons
    (decision : Variable α)
    (rest : List (Variable α))
    (name : String) :
    bearer? (decision :: rest) name =
      (bearer? rest name).or (if decision.name = name then some decision else none) := by
  rw [bearer?, List.reverse_cons, List.find?_append, ← bearer?]
  congr 1
  by_cases isName : decision.name = name
  · simp [isName]
  · simp [isName]

omit [Scalar α] in
theorem of_bearer?_eq_some
    (isBearer : bearer? decisions name = some decision) :
    decision ∈ decisions ∧ decision.name = name :=
  ⟨List.mem_reverse.mp (List.mem_of_find?_eq_some isBearer),
    by simpa using List.find?_some isBearer⟩

omit [Scalar α] in
theorem exists_bearer?_eq_some
    (member : decision ∈ decisions) :
    ∃ bearer, bearer? decisions decision.name = some bearer := by
  cases isBearer : bearer? decisions decision.name with
  | some bearer => exact ⟨bearer, rfl⟩
  | none =>
      have isOther := List.find?_eq_none.mp isBearer decision (List.mem_reverse.mpr member)
      simp at isOther

omit [Scalar α] in
/-- Where names are distinct, each of them stands for the only variable that bears it. -/
theorem bearer?_eq_some_of_nodup
    (distinct : (decisions.map (·.name)).Nodup)
    (member : decision ∈ decisions) :
    bearer? decisions decision.name = some decision := by
  obtain ⟨bearer, isBearer⟩ := exists_bearer?_eq_some member
  obtain ⟨isMember, sameName⟩ := of_bearer?_eq_some isBearer
  rw [isBearer, List.inj_on_of_nodup_map distinct isMember member sameName]

/-- A name starts with the interval of the variable that it stands for. -/
theorem get?_of_startBounds_eq_ok
    {known bounds : Table (α × α)}
    (outcome : startBounds defaultBounds known decisions = .ok bounds)
    (name : String) :
    (∀ decision, bearer? decisions name = some decision →
      ∃ interval, decision.bounds defaultBounds = .ok interval ∧
        bounds.get? name = some interval) ∧
      (bearer? decisions name = none → bounds.get? name = known.get? name) := by
  induction decisions generalizing known with
  | nil =>
      cases outcome
      exact ⟨nofun, fun _ => rfl⟩
  | cons first rest inductionHypothesis =>
      obtain ⟨interval, isInterval, outcome⟩ := bind_eq_ok outcome
      obtain ⟨ofRest, ofKnown⟩ := inductionHypothesis outcome
      rw [bearer?_cons]
      cases isBearer : bearer? rest name with
      | some bearer =>
          refine ⟨?_, by simp⟩
          rintro decision isThis
          cases isThis
          exact ofRest bearer isBearer
      | none =>
          have isKnown := ofKnown isBearer
          rw [Table.get?_insert] at isKnown
          rw [Option.none_or]
          by_cases isName : first.name = name
          · rw [if_pos isName.symm] at isKnown
            rw [if_pos isName]
            refine ⟨?_, by simp⟩
            rintro decision isThis
            cases isThis
            exact ⟨interval, isInterval, isKnown⟩
          · rw [if_neg (Ne.symm isName)] at isKnown
            rw [if_neg isName]
            exact ⟨nofun, fun _ => isKnown⟩

omit [Scalar α] in
theorem get?_insertAll_kinds
    (known : Table VariableKind)
    (decisions : List (Variable α))
    (name : String) :
    (known.insertAll (decisions.map fun decision => (decision.name, decision.kind))).get? name =
      ((bearer? decisions name).map (·.kind)).or (known.get? name) := by
  induction decisions generalizing known with
  | nil =>
      rfl
  | cons first rest inductionHypothesis =>
      have isRest := inductionHypothesis (known.insert first.name first.kind)
      rw [Table.get?_insert] at isRest
      rw [List.map_cons, Table.insertAll, List.foldl_cons, ← Table.insertAll, isRest, bearer?_cons]
      cases bearer? rest name with
      | some bearer => rfl
      | none =>
          by_cases isName : first.name = name
          · simp [isName]
          · simp [isName, Ne.symm isName]

omit [Scalar α] in
/-- A name has the kind of the variable that it stands for. -/
theorem get?_kindsOf
    (decisions : List (Variable α))
    (name : String) :
    (kindsOf decisions).get? name = (bearer? decisions name).map (·.kind) := by
  rw [kindsOf, Table.ofList, get?_insertAll_kinds]
  exact Option.or_none

end Bearer

end Propagation

/-!
## What a bound cuts off
-/

namespace Comparison

/-- The number that a comparison lets nothing through below. -/
def lowerCut? (comparison : Comparison) (threshold margin : α) : Option α :=
  match comparison with
  | .equal | .atLeast => some threshold
  | .above => some (threshold + margin)
  | .atMost | .below => none

/-- The number that a comparison lets nothing through above. -/
def upperCut? (comparison : Comparison) (threshold margin : α) : Option α :=
  match comparison with
  | .equal | .atMost => some threshold
  | .below => some (threshold - margin)
  | .atLeast | .above => none

end Comparison

/-- How far beyond a cut a variable is let through. -/
def VariableKind.leeway (kind : VariableKind) : α :=
  if kind = .continuous then 0 else Scalar.slack

namespace Constraint

variable (constraint : Constraint α) (term : SingleTerm α) (tolerance : α)

/-- The number that a bound lets nothing of its variable through below. -/
def lowerCut? : Option α :=
  (constraint.comparison.dividedBy term.coefficient).lowerCut? (constraint.threshold term)
    (constraint.toleranceOr tolerance / Scalar.magnitude term.coefficient)

/-- The number that a bound lets nothing of its variable through above. -/
def upperCut? : Option α :=
  (constraint.comparison.dividedBy term.coefficient).upperCut? (constraint.threshold term)
    (constraint.toleranceOr tolerance / Scalar.magnitude term.coefficient)

/-- A bound leaves a number of a variable of some kind. -/
structure Leaves (kind : VariableKind) (value : α) : Prop where
  lower : ∀ cut, constraint.lowerCut? term tolerance = some cut → cut ≤ value + kind.leeway
  upper : ∀ cut, constraint.upperCut? term tolerance = some cut → value ≤ cut + kind.leeway

/-- A constraint leaves a number of a variable, or it is no bound on this variable. -/
def Passes (decision : Variable α) (value : α) : Prop :=
  constraint.kind = .bound → decision.kind ≠ .categorical →
    ∀ term, constraint.singleTerm? = .ok (some term) → term.name = decision.name →
      constraint.Leaves term tolerance decision.kind value

end Constraint

namespace Propagation

/-- The lower end of an interval, raised to a cut. -/
def raised (lower : α) (cut? : Option α) : α :=
  cut?.elim lower (Scalar.larger lower)

/-- The upper end of an interval, lowered to a cut. -/
def lowered (upper : α) (cut? : Option α) : α :=
  cut?.elim upper (Scalar.smaller upper)

theorem meet_eq
    (comparison : Comparison)
    (threshold margin : α)
    (interval : α × α) :
    meet comparison threshold margin interval =
      (raised interval.1 (comparison.lowerCut? threshold margin),
        lowered interval.2 (comparison.upperCut? threshold margin)) := by
  cases comparison <;> rfl

section Ends

variable [OrderedScalar α] {lower upper value : α} {cut? : Option α}

theorem raised_le_iff :
    raised lower cut? ≤ value ↔ lower ≤ value ∧ ∀ cut, cut? = some cut → cut ≤ value := by
  cases cut? with
  | none => simp [raised]
  | some cut => simp [raised, Scalar.larger_le_iff]

theorem le_lowered_iff :
    value ≤ lowered upper cut? ↔ value ≤ upper ∧ ∀ cut, cut? = some cut → value ≤ cut := by
  cases cut? with
  | none => simp [lowered]
  | some cut => simp [lowered, Scalar.le_smaller_iff]

end Ends

/-- The interval that a bound leaves, in terms of its cuts. -/
theorem tightened_eq
    (constraint : Constraint α)
    (term : SingleTerm α)
    (kind : VariableKind)
    (tolerance : α)
    (interval : α × α) :
    tightened constraint term kind tolerance interval =
      if kind = .continuous then
        .ok (raised interval.1 (constraint.lowerCut? term tolerance),
          lowered interval.2 (constraint.upperCut? term tolerance))
      else
        wholeInterval (raised interval.1 (constraint.lowerCut? term tolerance),
          lowered interval.2 (constraint.upperCut? term tolerance)) := by
  unfold tightened
  dsimp only
  rw [meet_eq]
  rfl

theorem of_wholeInterval_eq_ok
    {interval whole : α × α}
    (outcome : wholeInterval interval = .ok whole) :
    Scalar.isFinite (interval.1 - Scalar.slack) = true ∧
      Scalar.isFinite (interval.2 + Scalar.slack) = true ∧
        whole = (Scalar.ceiling (interval.1 - Scalar.slack),
          Scalar.floor (interval.2 + Scalar.slack)) := by
  obtain ⟨first, isFirst, outcome⟩ := bind_eq_ok outcome
  obtain ⟨last, isLast, outcome⟩ := bind_eq_ok outcome
  cases outcome
  obtain ⟨isFinite, rfl⟩ := Variable.of_wholePart_eq_ok isFirst
  obtain ⟨isFiniteToo, rfl⟩ := Variable.of_wholePart_eq_ok isLast
  exact ⟨isFinite, isFiniteToo, rfl⟩

section Cutting

variable [SolvingScalar α] {constraint : Constraint α} {term : SingleTerm α} {tolerance : α}
  {decision : Variable α} {interval met : α × α} {cut? : Option α} {value : α}

/-- Rounding up after a cut does not depend on what was below the cut. -/
theorem ceiling_raised_le_iff
    {lower : α}
    (isWholeLower : Scalar.IsWhole lower)
    (isWhole : Scalar.IsWhole value)
    (isFinite : Scalar.isFinite (raised lower cut? - Scalar.slack) = true) :
    Scalar.ceiling (raised lower cut? - Scalar.slack) ≤ value ↔
      lower ≤ value ∧ ∀ cut, cut? = some cut → cut ≤ value + Scalar.slack := by
  have isRaised := (raised_le_iff.mp (le_refl (raised lower cut?))).1
  constructor
  · intro atMost
    have isAbove := (Scalar.isWhole_ceiling isFinite).2.trans atMost
    rw [← SolvingScalar.le_add_iff_sub_le _ _ _ Scalar.isFinite_slack] at isAbove
    exact ⟨(Scalar.le_ceiling_sub_slack isWholeLower isRaised isFinite).trans atMost,
      (raised_le_iff.mp isAbove).2⟩
  · rintro ⟨atMost, cutsBelow⟩
    have isAbove : raised lower cut? ≤ value + Scalar.slack :=
      raised_le_iff.mpr ⟨atMost.trans (Scalar.le_add_slack value), cutsBelow⟩
    rw [SolvingScalar.le_add_iff_sub_le _ _ _ Scalar.isFinite_slack] at isAbove
    exact Scalar.ceiling_le_of_isWhole isWhole isFinite isAbove

/-- Rounding down after a cut does not depend on what was above the cut. -/
theorem le_floor_lowered_iff
    {upper : α}
    (isWholeUpper : Scalar.IsWhole upper)
    (isWhole : Scalar.IsWhole value)
    (isFinite : Scalar.isFinite (lowered upper cut? + Scalar.slack) = true) :
    value ≤ Scalar.floor (lowered upper cut? + Scalar.slack) ↔
      value ≤ upper ∧ ∀ cut, cut? = some cut → value ≤ cut + Scalar.slack := by
  obtain ⟨isLowered, areAbove⟩ := le_lowered_iff.mp (le_refl (lowered upper cut?))
  constructor
  · intro atLeast
    refine ⟨atLeast.trans (Scalar.floor_add_slack_le isWholeUpper isLowered isFinite),
      fun cut isCut => ?_⟩
    exact (atLeast.trans (Scalar.isWhole_floor isFinite).2).trans
      (FractionalScalar.add_slack_le_add_slack _ _ (areAbove cut isCut))
  · rintro ⟨atLeast, cutsAbove⟩
    refine Scalar.le_floor_of_isWhole isWhole isFinite ?_
    unfold lowered
    cases cut? with
    | none => exact atLeast.trans (Scalar.le_add_slack upper)
    | some cut =>
        have isBelow := cutsAbove cut rfl
        change value ≤ Scalar.smaller upper cut + Scalar.slack
        unfold Scalar.smaller
        split
        · exact isBelow
        · exact atLeast.trans (Scalar.le_add_slack upper)

omit [SolvingScalar α] in
/-- A bound leaves whole numbers at the ends of a discrete variable's interval. -/
theorem areWhole_of_tightened_eq_ok
    [FractionalScalar α]
    (outcome : tightened constraint term decision.kind tolerance interval = .ok met)
    (isDiscrete : decision.isDiscrete = true) :
    Scalar.IsWhole met.1 ∧ Scalar.IsWhole met.2 := by
  rw [tightened_eq, if_neg (Variable.isDiscrete_iff.mp isDiscrete)] at outcome
  obtain ⟨isFinite, isFiniteToo, rfl⟩ := of_wholeInterval_eq_ok outcome
  exact ⟨(Scalar.isWhole_ceiling isFinite).1, (Scalar.isWhole_floor isFiniteToo).1⟩

/-- What a bound leaves of an interval is what it leaves, and what was in the interval before. -/
theorem isGene_tightened_iff
    (areWhole :
      decision.isDiscrete = true → Scalar.IsWhole interval.1 ∧ Scalar.IsWhole interval.2)
    (outcome : tightened constraint term decision.kind tolerance interval = .ok met)
    (value : α) :
    decision.IsGene met value ↔
      decision.IsGene interval value ∧ constraint.Leaves term tolerance decision.kind value := by
  rw [tightened_eq] at outcome
  by_cases isContinuous : decision.kind = .continuous
  · rw [if_pos isContinuous] at outcome
    cases outcome
    have noLeeway : (decision.kind.leeway : α) = 0 := if_pos isContinuous
    constructor
    · rintro ⟨isAbove, isBelow, isWhole⟩
      rw [raised_le_iff] at isAbove
      rw [le_lowered_iff] at isBelow
      refine ⟨⟨isAbove.1, isBelow.1, isWhole⟩, fun cut isCut => ?_, fun cut isCut => ?_⟩
      · rw [noLeeway, add_zero]
        exact isAbove.2 cut isCut
      · rw [noLeeway, add_zero]
        exact isBelow.2 cut isCut
    · rintro ⟨⟨isAbove, isBelow, isWhole⟩, cutsBelow, cutsAbove⟩
      simp only [noLeeway, add_zero] at cutsBelow cutsAbove
      exact ⟨raised_le_iff.mpr ⟨isAbove, cutsBelow⟩, le_lowered_iff.mpr ⟨isBelow, cutsAbove⟩,
        isWhole⟩
  · rw [if_neg isContinuous] at outcome
    have isDiscrete := Variable.isDiscrete_iff.mpr isContinuous
    have isLeeway : (decision.kind.leeway : α) = Scalar.slack := if_neg isContinuous
    obtain ⟨isWholeLower, isWholeUpper⟩ := areWhole isDiscrete
    obtain ⟨isFinite, isFiniteToo, rfl⟩ := of_wholeInterval_eq_ok outcome
    constructor
    · rintro ⟨isAbove, isBelow, isWhole⟩
      rw [ceiling_raised_le_iff isWholeLower (isWhole isDiscrete) isFinite] at isAbove
      rw [le_floor_lowered_iff isWholeUpper (isWhole isDiscrete) isFiniteToo] at isBelow
      refine ⟨⟨isAbove.1, isBelow.1, isWhole⟩, fun cut isCut => ?_, fun cut isCut => ?_⟩
      · rw [isLeeway]
        exact isAbove.2 cut isCut
      · rw [isLeeway]
        exact isBelow.2 cut isCut
    · rintro ⟨⟨isAbove, isBelow, isWhole⟩, cutsBelow, cutsAbove⟩
      simp only [isLeeway] at cutsBelow cutsAbove
      exact ⟨(ceiling_raised_le_iff isWholeLower (isWhole isDiscrete) isFinite).mpr
          ⟨isAbove, cutsBelow⟩,
        (le_floor_lowered_iff isWholeUpper (isWhole isDiscrete) isFiniteToo).mpr
          ⟨isBelow, cutsAbove⟩, isWhole⟩

end Cutting

/-!
## One bound

A constraint that targets an interval has it tightened.  Any other constraint changes nothing.
-/

/-- A constraint is a bound on a single variable, which has an interval and is not categorical. -/
structure Targets (kinds : Table VariableKind) (bounds : Table (α × α)) (constraint : Constraint α)
    (term : SingleTerm α) (kind : VariableKind) (interval : α × α) : Prop where
  isBound : constraint.kind = .bound
  isTerm : constraint.singleTerm? = .ok (some term)
  isInterval : bounds.get? term.name = some interval
  isKind : kinds.get? term.name = some kind
  notCategorical : kind ≠ .categorical

section Stepping

variable {kinds : Table VariableKind} {tolerance : α} {constraint : Constraint α}
  {term : SingleTerm α} {kind : VariableKind} {interval : α × α}
  {state after : Table (α × α) × Table (Conflict α)}

theorem step_of_targets
    (targets : Targets kinds state.1 constraint term kind interval) :
    step kinds tolerance state constraint =
      match tightened constraint term kind tolerance interval with
      | .error breakdown => .error (.broken breakdown)
      | .ok met =>
        if met.2 < met.1 then
          .ok (state.1, state.2.insert constraint.identifier
            ⟨met.1 - met.2, kind != .continuous⟩)
        else .ok (state.1.insert term.name met, state.2) := by
  obtain ⟨isBound, isTerm, isInterval, isKind, notCategorical⟩ := targets
  simp only [step, isBound, isTerm, isInterval, isKind, notCategorical, bne_self_eq_false,
    Bool.false_eq_true, ↓reduceIte, bind, Except.bind, pure, Except.pure]
  cases tightened constraint term kind tolerance interval <;> rfl

/-- A constraint whose form can be found changes nothing unless it targets an interval. -/
theorem step_of_not_targets
    (notFails : ¬ (constraint.kind = .bound ∧ Fails constraint.singleTerm?))
    (notTargets : ∀ term kind interval, ¬ Targets kinds state.1 constraint term kind interval) :
    step kinds tolerance state constraint = .ok state := by
  unfold step
  by_cases isBound : constraint.kind = .bound
  · obtain ⟨term?, isTerm⟩ := not_fails_iff.mp fun fails => notFails ⟨isBound, fails⟩
    simp only [isBound, isTerm, bne_self_eq_false, Bool.false_eq_true, ↓reduceIte, bind,
      Except.bind, pure, Except.pure]
    cases term? with
    | none => rfl
    | some term =>
        dsimp only
        split
        · rename_i interval kind isInterval isKind
          split
          · rfl
          · rename_i notCategorical
            exact absurd ⟨isBound, isTerm, isInterval, isKind, notCategorical⟩
              (notTargets term kind interval)
        · rfl
  · simp [isBound, pure, Except.pure]

/-- A step fails where the form of a bound cannot be found or an interval cannot be rounded. -/
theorem fails_step_iff :
    Fails (step kinds tolerance state constraint) ↔
      (constraint.kind = .bound ∧ Fails constraint.singleTerm?) ∨
        ∃ term kind interval, Targets kinds state.1 constraint term kind interval ∧
          Fails (tightened constraint term kind tolerance interval) := by
  by_cases formFails : constraint.kind = .bound ∧ Fails constraint.singleTerm?
  · refine iff_of_true ?_ (.inl formFails)
    obtain ⟨isBound, fails⟩ := formFails
    unfold step
    rw [if_neg (by simp [isBound])]
    exact fails.bind _
  · rw [or_iff_right formFails]
    by_cases isTarget : ∃ term kind interval, Targets kinds state.1 constraint term kind interval
    · obtain ⟨term, kind, interval, targets⟩ := isTarget
      rw [step_of_targets targets]
      constructor
      · intro fails
        refine ⟨term, kind, interval, targets, ?_⟩
        split at fails
        · rename_i breakdown isError
          exact ⟨breakdown, isError⟩
        · obtain ⟨failure, isFailure⟩ := fails
          split at isFailure <;> cases isFailure
      · rintro ⟨otherTerm, otherKind, otherInterval, other, breakdown, isError⟩
        obtain rfl : term = otherTerm := by
          simpa using targets.isTerm.symm.trans other.isTerm
        obtain rfl := Option.some.inj (targets.isKind.symm.trans other.isKind)
        obtain rfl := Option.some.inj (targets.isInterval.symm.trans other.isInterval)
        rw [isError]
        exact ⟨_, rfl⟩
    · have notTargets :
          ∀ term kind interval, ¬ Targets kinds state.1 constraint term kind interval :=
        fun term kind interval targets => isTarget ⟨term, kind, interval, targets⟩
      rw [step_of_not_targets formFails notTargets]
      constructor
      · rintro ⟨_, isFailure⟩
        cases isFailure
      · rintro ⟨term, kind, interval, targets, -⟩
        exact absurd targets (notTargets term kind interval)

/-- A step that does not fail changes nothing, or reports a conflict, or narrows an interval. -/
theorem cases_of_step_eq_ok
    (outcome : step kinds tolerance state constraint = .ok after) :
    (after = state ∧
        ∀ term kind interval, ¬ Targets kinds state.1 constraint term kind interval) ∨
      ∃ term kind interval met, Targets kinds state.1 constraint term kind interval ∧
        tightened constraint term kind tolerance interval = .ok met ∧
          ((met.2 < met.1 ∧ ∃ conflict,
              after = (state.1, state.2.insert constraint.identifier conflict)) ∨
            ¬ met.2 < met.1 ∧ after = (state.1.insert term.name met, state.2)) := by
  by_cases isTarget : ∃ term kind interval, Targets kinds state.1 constraint term kind interval
  · obtain ⟨term, kind, interval, targets⟩ := isTarget
    rw [step_of_targets targets] at outcome
    split at outcome
    · cases outcome
    · rename_i met isMet
      refine .inr ⟨term, kind, interval, met, targets, isMet, ?_⟩
      split at outcome
      · rename_i isReversed
        exact .inl ⟨isReversed, _, (Except.ok.inj outcome).symm⟩
      · rename_i inOrder
        exact .inr ⟨inOrder, (Except.ok.inj outcome).symm⟩
  · have notTargets :
        ∀ term kind interval, ¬ Targets kinds state.1 constraint term kind interval :=
      fun term kind interval targets => isTarget ⟨term, kind, interval, targets⟩
    have notFails : ¬ (constraint.kind = .bound ∧ Fails constraint.singleTerm?) := by
      exact fun fails => not_fails_iff.mpr ⟨after, outcome⟩ (fails_step_iff.mpr (.inl fails))
    rw [step_of_not_targets notFails notTargets] at outcome
    exact .inl ⟨(Except.ok.inj outcome).symm, notTargets⟩

/-- What one constraint after the other keeps is kept by all of them. -/
theorem holds_of_steps_eq_ok
    {constraints : List (Constraint α)}
    (holds : Table (α × α) × Table (Conflict α) → Prop)
    (kept : ∀ {state after constraint}, holds state →
      step kinds tolerance state constraint = .ok after → holds after)
    (atStart : holds state)
    (outcome : steps kinds tolerance state constraints = .ok after) :
    holds after := by
  induction constraints generalizing state with
  | nil =>
      cases outcome
      exact atStart
  | cons constraint rest inductionHypothesis =>
      obtain ⟨next, stepped, outcome⟩ := bind_eq_ok outcome
      exact inductionHypothesis (kept atStart stepped) outcome

end Stepping

/-!
## One bound after the other
-/

/-- An interval of a variable is not empty, ends in whole numbers where the variable is discrete,
and contains just those numbers of another interval that some constraints leave. -/
structure IsNarrowed (tolerance : α) (passed : List (Constraint α)) (decision : Variable α)
    (domain interval : α × α) : Prop where
  inOrder : interval.1 ≤ interval.2
  areWhole :
    decision.isDiscrete = true → Scalar.IsWhole interval.1 ∧ Scalar.IsWhole interval.2
  isGene_iff : ∀ value,
    decision.IsGene interval value ↔
      decision.IsGene domain value ∧
        ∀ constraint ∈ passed, constraint.Passes tolerance decision value

/-- Each name has an interval, narrowed from the own interval of the variable that it stands for. -/
def Narrowed (tolerance : α) (defaultBounds : α × α) (decisions : List (Variable α))
    (passed : List (Constraint α)) (bounds : Table (α × α)) : Prop :=
  ∀ name decision, bearer? decisions name = some decision →
    ∃ domain interval, decision.bounds defaultBounds = .ok domain ∧
      bounds.get? name = some interval ∧ IsNarrowed tolerance passed decision domain interval

/-- Constraints leave nothing of a variable's own interval. -/
def Impossible (tolerance : α) (defaultBounds : α × α) (decisions : List (Variable α))
    (constraints : List (Constraint α)) : Prop :=
  ∃ name decision domain, bearer? decisions name = some decision ∧
    decision.bounds defaultBounds = .ok domain ∧
      ∀ value, decision.IsGene domain value →
        ∃ constraint ∈ constraints, ¬ constraint.Passes tolerance decision value

section Running

variable [SolvingScalar α] {tolerance : α} {defaultBounds domain interval : α × α}
  {decisions : List (Variable α)} {decision : Variable α}
  {passed constraints : List (Constraint α)} {constraint : Constraint α}
  {state after : Table (α × α) × Table (Conflict α)}

namespace IsNarrowed

omit [SolvingScalar α] in
/-- Of constraints that are no bounds on a variable its interval does not depend. -/
theorem append
    (isNarrowed : IsNarrowed tolerance passed decision domain interval)
    (passes : ∀ value, constraint.Passes tolerance decision value) :
    IsNarrowed tolerance (passed ++ [constraint]) decision domain interval where
  inOrder := isNarrowed.inOrder
  areWhole := isNarrowed.areWhole
  isGene_iff value := by
    rw [isNarrowed.isGene_iff, List.forall_mem_append, List.forall_mem_singleton]
    exact and_congr_right' (and_iff_left (passes value)).symm

theorem isGene_lower
    (isNarrowed : IsNarrowed tolerance passed decision domain interval) :
    decision.IsGene interval interval.1 :=
  ⟨le_rfl, isNarrowed.inOrder, fun isDiscrete => (isNarrowed.areWhole isDiscrete).1⟩

theorem isGene_upper
    (isNarrowed : IsNarrowed tolerance passed decision domain interval) :
    decision.IsGene interval interval.2 :=
  ⟨isNarrowed.inOrder, le_rfl, fun isDiscrete => (isNarrowed.areWhole isDiscrete).2⟩

/-- A narrowed interval lies within the one that it was narrowed from. -/
theorem within
    (isNarrowed : IsNarrowed tolerance passed decision domain interval) :
    domain.1 ≤ interval.1 ∧ interval.2 ≤ domain.2 :=
  ⟨((isNarrowed.isGene_iff _).mp isNarrowed.isGene_lower).1.lower_le,
    ((isNarrowed.isGene_iff _).mp isNarrowed.isGene_upper).1.le_upper⟩

/-- The same constraints narrow an interval to the same one. -/
theorem unique
    {other : α × α}
    (isNarrowed : IsNarrowed tolerance passed decision domain interval)
    (isNarrowedToo : IsNarrowed tolerance constraints decision domain other)
    (sameConstraints : ∀ constraint, constraint ∈ passed ↔ constraint ∈ constraints) :
    interval = other := by
  have sameGenes (value : α) : decision.IsGene interval value ↔ decision.IsGene other value := by
    rw [isNarrowed.isGene_iff, isNarrowedToo.isGene_iff]
    simp only [sameConstraints]
  refine Prod.ext (ExactScalar.le_antisymm _ _ ?_ ?_) (ExactScalar.le_antisymm _ _ ?_ ?_)
  · exact ((sameGenes _).mpr isNarrowedToo.isGene_lower).lower_le
  · exact ((sameGenes _).mp isNarrowed.isGene_lower).lower_le
  · exact ((sameGenes _).mp isNarrowed.isGene_upper).le_upper
  · exact ((sameGenes _).mpr isNarrowedToo.isGene_upper).le_upper

end IsNarrowed

/-- Intervals that are narrowed by constraints have numbers that all of these leave. -/
theorem Narrowed.not_impossible
    {bounds : Table (α × α)}
    (narrowed : Narrowed tolerance defaultBounds decisions passed bounds) :
    ¬ Impossible tolerance defaultBounds decisions passed := by
  rintro ⟨name, decision, domain, isBearer, isDomain, noneLeft⟩
  obtain ⟨domain, interval, isDomainToo, -, isNarrowed⟩ := narrowed name decision isBearer
  obtain rfl := Except.ok.inj (isDomain.symm.trans isDomainToo)
  obtain ⟨isGene, allPass⟩ := (isNarrowed.isGene_iff _).mp isNarrowed.isGene_lower
  obtain ⟨constraint, member, notPasses⟩ := noneLeft _ isGene
  exact notPasses (allPass constraint member)

omit [SolvingScalar α] in
/-- The bound that targets an interval is the only one that counts for its variable. -/
theorem passes_iff_of_targets
    {kinds : Table VariableKind}
    {bounds : Table (α × α)}
    {term : SingleTerm α}
    (targets : Targets kinds bounds constraint term decision.kind interval)
    (sameName : decision.name = term.name)
    (value : α) :
    constraint.Passes tolerance decision value ↔
      constraint.Leaves term tolerance decision.kind value := by
  constructor
  · exact fun passes =>
      passes targets.isBound targets.notCategorical term targets.isTerm sameName.symm
  · intro leaves _ _ other isOther _
    obtain rfl : term = other := by
      simpa using targets.isTerm.symm.trans isOther
    exact leaves

/-- One more bound narrows one interval, or shows that nothing is left of it. -/
theorem narrowed_step
    (narrowed : Narrowed tolerance defaultBounds decisions passed state.1)
    (outcome : step (kindsOf decisions) tolerance state constraint = .ok after) :
    (after.2 = state.2 ∧
        Narrowed tolerance defaultBounds decisions (passed ++ [constraint]) after.1) ∨
      (after.2.entries ≠ [] ∧
        Impossible tolerance defaultBounds decisions (passed ++ [constraint])) := by
  rcases cases_of_step_eq_ok outcome with
    ⟨rfl, notTargets⟩ | ⟨term, kind, interval, met, targets, isMet, outcome⟩
  · refine .inl ⟨rfl, fun name decision isBearer => ?_⟩
    obtain ⟨domain, interval, isDomain, isInterval, isNarrowed⟩ := narrowed name decision isBearer
    obtain ⟨-, rfl⟩ := of_bearer?_eq_some isBearer
    refine ⟨domain, interval, isDomain, isInterval, isNarrowed.append fun value => ?_⟩
    intro isBound notCategorical term isTerm sameName
    refine absurd ⟨isBound, isTerm, sameName ▸ isInterval, ?_, notCategorical⟩
      (notTargets term decision.kind interval)
    rw [get?_kindsOf, sameName, isBearer]
    rfl
  · have isKind := targets.isKind
    rw [get?_kindsOf, Option.map_eq_some_iff] at isKind
    obtain ⟨decision, isBearer, rfl⟩ := isKind
    obtain ⟨domain, found, isDomain, isFound, isNarrowed⟩ := narrowed term.name decision isBearer
    obtain rfl := Option.some.inj (targets.isInterval.symm.trans isFound)
    obtain ⟨-, sameName⟩ := of_bearer?_eq_some isBearer
    have isGeneMet_iff (value : α) :
        decision.IsGene met value ↔
          decision.IsGene domain value ∧
            ∀ other ∈ passed ++ [constraint], other.Passes tolerance decision value := by
      rw [isGene_tightened_iff isNarrowed.areWhole isMet, isNarrowed.isGene_iff,
        List.forall_mem_append, List.forall_mem_singleton, and_assoc,
        passes_iff_of_targets targets sameName]
    rcases outcome with ⟨isReversed, conflict, rfl⟩ | ⟨notReversed, rfl⟩
    · refine .inr ⟨Table.entries_insert_ne_nil _ _ _, term.name, decision, domain, isBearer,
        isDomain, fun value isGene => ?_⟩
      by_contra noneFails
      push Not at noneFails
      have isLeft := (isGeneMet_iff value).mpr ⟨isGene, noneFails⟩
      exact (isLeft.lower_le.trans isLeft.le_upper).not_gt isReversed
    · refine .inl ⟨rfl, fun name other isOther => ?_⟩
      rw [Table.get?_insert]
      by_cases isName : name = term.name
      · obtain rfl := isName
        obtain rfl := Option.some.inj (isBearer.symm.trans isOther)
        exact ⟨domain, met, isDomain, if_pos rfl, OrderedScalar.le_of_not_lt notReversed,
          areWhole_of_tightened_eq_ok isMet, isGeneMet_iff⟩
      · obtain ⟨otherDomain, otherInterval, isDomainToo, isIntervalToo, isNarrowedToo⟩ :=
          narrowed name other isOther
        obtain ⟨-, isNameToo⟩ := of_bearer?_eq_some isOther
        refine ⟨otherDomain, otherInterval, isDomainToo, by rw [if_neg isName, isIntervalToo],
          isNarrowedToo.append fun value _ _ otherTerm isTerm nameOfTerm => ?_⟩
        obtain rfl : term = otherTerm := by
          simpa using targets.isTerm.symm.trans isTerm
        exact absurd (isNameToo.symm.trans nameOfTerm.symm) isName

omit [SolvingScalar α] in
/-- What nothing passes is not passed with more constraints either. -/
theorem Impossible.append
    (impossible : Impossible tolerance defaultBounds decisions passed)
    (constraints : List (Constraint α)) :
    Impossible tolerance defaultBounds decisions (passed ++ constraints) := by
  obtain ⟨name, decision, domain, isBearer, isDomain, noneLeft⟩ := impossible
  refine ⟨name, decision, domain, isBearer, isDomain, fun value isGene => ?_⟩
  obtain ⟨constraint, member, notPasses⟩ := noneLeft value isGene
  exact ⟨constraint, List.mem_append_left _ member, notPasses⟩

omit [SolvingScalar α] in
/-- A conflict that is reported stays so. -/
theorem conflicts_ne_nil_of_steps_eq_ok
    {kinds : Table VariableKind}
    (isConflict : state.2.entries ≠ [])
    (outcome : steps kinds tolerance state constraints = .ok after) :
    after.2.entries ≠ [] := by
  refine holds_of_steps_eq_ok (fun state => state.2.entries ≠ []) ?_ isConflict outcome
  intro state after constraint isConflict stepped
  rcases cases_of_step_eq_ok stepped with
    ⟨rfl, -⟩ | ⟨_, _, _, _, -, -, ⟨-, conflict, rfl⟩ | ⟨-, rfl⟩⟩
  · exact isConflict
  · exact Table.entries_insert_ne_nil _ _ _
  · exact isConflict

/-- Bounds narrow all intervals, or they report a conflict and leave nothing of one of them. -/
theorem narrowed_steps
    (narrowed : Narrowed tolerance defaultBounds decisions passed state.1)
    (noConflict : state.2.entries = [])
    (outcome : steps (kindsOf decisions) tolerance state constraints = .ok after) :
    (after.2.entries = [] ∧
        Narrowed tolerance defaultBounds decisions (passed ++ constraints) after.1) ∨
      (after.2.entries ≠ [] ∧
        Impossible tolerance defaultBounds decisions (passed ++ constraints)) := by
  induction constraints generalizing state passed with
  | nil =>
      cases outcome
      rw [List.append_nil]
      exact .inl ⟨noConflict, narrowed⟩
  | cons constraint rest inductionHypothesis =>
      obtain ⟨next, stepped, outcome⟩ := bind_eq_ok outcome
      rw [List.append_cons]
      rcases narrowed_step narrowed stepped with
        ⟨sameConflicts, narrowedNext⟩ | ⟨isConflict, impossible⟩
      · exact inductionHypothesis narrowedNext (sameConflicts ▸ noConflict) outcome
      · exact .inr ⟨conflicts_ne_nil_of_steps_eq_ok isConflict outcome, impossible.append rest⟩

/-- Before any bound, a variable has its own interval. -/
theorem isNarrowed_nil
    (faultless : decision.fault? = none)
    (isDomain : decision.bounds defaultBounds = .ok domain)
    (inOrder : domain.1 ≤ domain.2) :
    IsNarrowed tolerance [] decision domain domain where
  inOrder := inOrder
  areWhole isDiscrete :=
    (Variable.isTightened_bounds faultless isDomain).isWhole_of_hasFiniteEnds isDiscrete
      (Variable.hasFiniteEnds_bounds faultless isDiscrete isDomain)
  isGene_iff value := by
    simp

/-- Propagation narrows the interval of each variable to what all constraints leave of it, or it
reports a conflict and there is a variable of which they leave nothing. -/
theorem narrowed_of_reduce_eq_ok
    {problem : Problem α}
    {reduction : Reduction α}
    (faultless : ∀ decision ∈ problem.decisions, decision.fault? = none)
    (inOrder :
      ∀ decision ∈ problem.decisions, ∀ domain, decision.bounds defaultBounds = .ok domain →
        domain.1 ≤ domain.2)
    (outcome : reduce problem defaultBounds tolerance = .ok reduction) :
    (reduction.isConsistent = true ∧
        Narrowed tolerance defaultBounds problem.decisions problem.constraints reduction.bounds) ∨
      (reduction.isConsistent = false ∧
        Impossible tolerance defaultBounds problem.decisions problem.constraints) := by
  obtain ⟨start, started, outcome⟩ := bind_eq_ok outcome
  obtain ⟨⟨bounds, conflicts⟩, stepped, outcome⟩ := bind_eq_ok outcome
  cases outcome
  have started := mapError_eq_ok started
  have narrowed : Narrowed tolerance defaultBounds problem.decisions [] start := by
    intro name decision isBearer
    obtain ⟨domain, isDomain, isInterval⟩ :=
      (get?_of_startBounds_eq_ok started name).1 decision isBearer
    obtain ⟨member, -⟩ := of_bearer?_eq_some isBearer
    exact ⟨domain, domain, isDomain, isInterval,
      isNarrowed_nil (faultless decision member) isDomain (inOrder decision member domain isDomain)⟩
  rcases narrowed_steps narrowed rfl stepped with ⟨noConflict, narrowed⟩ | ⟨isConflict, impossible⟩
  · exact .inl ⟨List.isEmpty_iff.mpr noConflict, narrowed⟩
  · exact .inr ⟨by simpa [Reduction.isConsistent] using isConflict, impossible⟩

end Running

end Propagation

end Optima
