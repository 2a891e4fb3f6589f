import Optima.Proofs.Problem.Obstruction
import Optima.Proofs.Problem.Retention

namespace Optima

/-!
# Propagation does not depend on the order of bounds

Whether propagation fails is told by each constraint for itself.  Where it does not fail, the
intervals that it ends with are told by what all bounds leave, and a conflict by a variable of which
they leave nothing.  So the order in which the constraints are listed does not matter.
-/

variable {α : Type} [Scalar α]

/-- An interval of a variable is not empty, lies within another one, and ends in whole numbers
where the variable is discrete. -/
structure Variable.IsSubinterval (decision : Variable α) (domain interval : α × α) : Prop where
  lower_le : domain.1 ≤ interval.1
  inOrder : interval.1 ≤ interval.2
  le_upper : interval.2 ≤ domain.2
  areWhole :
    decision.isDiscrete = true → Scalar.IsWhole interval.1 ∧ Scalar.IsWhole interval.2

namespace Propagation

section Ending

variable {tolerance : α} {defaultBounds : α × α} {problem other : Problem α}
  {decisions : List (Variable α)} {constraints others : List (Constraint α)}
  {first second : Reduction α}

/-- Intervals are entered under distinct names. -/
theorem nodup_names_of_startBounds_eq_ok
    {known bounds : Table (α × α)}
    (distinct : known.names.Nodup)
    (outcome : startBounds defaultBounds known decisions = .ok bounds) :
    bounds.names.Nodup := by
  induction decisions generalizing known with
  | nil =>
      cases outcome
      exact distinct
  | cons decision rest inductionHypothesis =>
      obtain ⟨interval, -, outcome⟩ := bind_eq_ok outcome
      exact inductionHypothesis (Table.nodup_names_insert distinct _ _) outcome

theorem fixed_of_reduce_eq_ok
    (outcome : reduce problem defaultBounds tolerance = .ok first) :
    first.fixed = fixedValues first.bounds := by
  obtain ⟨start, -, outcome⟩ := bind_eq_ok outcome
  obtain ⟨⟨bounds, conflicts⟩, -, outcome⟩ := bind_eq_ok outcome
  cases outcome
  rfl

/-- Constraints leave nothing of a variable's interval in whatever order they are listed. -/
theorem Impossible.congr
    (impossible : Impossible tolerance defaultBounds decisions constraints)
    (sameConstraints : ∀ constraint, constraint ∈ constraints ↔ constraint ∈ others) :
    Impossible tolerance defaultBounds decisions others := by
  simpa only [Impossible, sameConstraints] using impossible

/-- Bounds enter no other names. -/
theorem names_of_steps_eq_ok
    {kinds : Table VariableKind}
    {state after : Table (α × α) × Table (Conflict α)}
    (outcome : steps kinds tolerance state constraints = .ok after) :
    after.1.names = state.1.names := by
  refine holds_of_steps_eq_ok (fun reached => reached.1.names = state.1.names) ?_ rfl outcome
  intro before next constraint isSame stepped
  rcases of_step_eq_ok stepped with isUnchanged | ⟨term, _, _, met, isInterval, -, -, -, isMet⟩
  · rw [isUnchanged, isSame]
  · rw [isMet, Table.names_insert_of_get?_eq_some isInterval, isSame]

/-- Propagation ends with one interval for each name that a variable bears. -/
theorem names_of_reduce_eq_ok
    (outcome : reduce problem defaultBounds tolerance = .ok first) :
    ∃ start, startBounds defaultBounds {} problem.decisions = .ok start ∧
      first.bounds.names = start.names ∧ start.names.Nodup ∧
        ∀ name ∈ start.names, ∃ decision, bearer? problem.decisions name = some decision := by
  obtain ⟨start, started, outcome⟩ := bind_eq_ok outcome
  obtain ⟨⟨bounds, conflicts⟩, stepped, outcome⟩ := bind_eq_ok outcome
  cases outcome
  have started := mapError_eq_ok started
  have noNames : (Table.empty : Table (α × α)).names.Nodup := List.nodup_nil
  refine ⟨start, started, names_of_steps_eq_ok stepped,
    nodup_names_of_startBounds_eq_ok noNames started, fun name isNamed => ?_⟩
  rw [← Option.ne_none_iff_exists']
  intro noBearer
  exact (Table.mem_names_iff start name).mp isNamed
    ((get?_of_startBounds_eq_ok started name).2 noBearer)

variable [SolvingScalar α]

/-- The same constraints narrow the intervals of the same names to the same ones. -/
theorem eq_of_narrowed
    {bounds boundsToo : Table (α × α)}
    (sameNames : bounds.names = boundsToo.names)
    (distinct : bounds.names.Nodup)
    (areBorne : ∀ name ∈ bounds.names, ∃ decision, bearer? decisions name = some decision)
    (narrowed : Narrowed tolerance defaultBounds decisions constraints bounds)
    (narrowedToo : Narrowed tolerance defaultBounds decisions others boundsToo)
    (sameConstraints : ∀ constraint, constraint ∈ constraints ↔ constraint ∈ others) :
    bounds = boundsToo := by
  have sameEntries : bounds.entries = boundsToo.entries := by
    refine entries_eq_of_lookup_eq sameNames distinct fun name isNamed => ?_
    obtain ⟨decision, isBearer⟩ := areBorne name isNamed
    obtain ⟨domain, interval, isDomain, isInterval, isNarrowed⟩ := narrowed name decision isBearer
    obtain ⟨domain, other, isDomainToo, isOther, isNarrowedToo⟩ :=
      narrowedToo name decision isBearer
    obtain rfl := Except.ok.inj (isDomain.symm.trans isDomainToo)
    obtain rfl := isNarrowed.unique isNarrowedToo sameConstraints
    exact isInterval.trans isOther.symm
  cases bounds
  cases boundsToo
  exact congrArg Table.mk sameEntries

/-- Without a conflict each interval is a part of the one that its variable had before. -/
theorem isSubinterval_of_reduce_eq_ok
    (faultless : ∀ decision ∈ problem.decisions, decision.fault? = none)
    (inOrder :
      ∀ decision ∈ problem.decisions, ∀ domain, decision.bounds defaultBounds = .ok domain →
        domain.1 ≤ domain.2)
    (outcome : reduce problem defaultBounds tolerance = .ok first)
    (isConsistent : first.isConsistent = true)
    {name : String}
    {interval : α × α}
    (isInterval : first.bounds.get? name = some interval) :
    ∃ decision domain, bearer? problem.decisions name = some decision ∧
      decision.bounds defaultBounds = .ok domain ∧ decision.IsSubinterval domain interval := by
  obtain ⟨-, narrowed⟩ := (narrowed_of_reduce_eq_ok faultless inOrder outcome).resolve_right
    (by simp [isConsistent])
  obtain ⟨start, -, isNames, -, areBorne⟩ := names_of_reduce_eq_ok outcome
  have isNamed : name ∈ first.bounds.names := (Table.mem_names_iff _ _).mpr (by simp [isInterval])
  obtain ⟨decision, isBearer⟩ := areBorne name (isNames ▸ isNamed)
  obtain ⟨domain, found, isDomain, isFound, isNarrowed⟩ := narrowed name decision isBearer
  obtain rfl := Option.some.inj (isInterval.symm.trans isFound)
  exact ⟨decision, domain, isBearer, isDomain, isNarrowed.within.1, isNarrowed.inOrder,
    isNarrowed.within.2, isNarrowed.areWhole⟩

section Same

variable
  (faultless : ∀ decision ∈ problem.decisions, decision.fault? = none)
  (sameDecisions : other.decisions = problem.decisions)
  (sameConstraints :
    ∀ constraint, constraint ∈ other.constraints ↔ constraint ∈ problem.constraints)

include faultless sameDecisions sameConstraints

/-- On the same constraints propagation fails in every order, or in none. -/
theorem fails_reduce_congr :
    Fails (reduce other defaultBounds tolerance) ↔
      Fails (reduce problem defaultBounds tolerance) := by
  rw [fails_reduce_iff faultless, fails_reduce_iff (sameDecisions ▸ faultless), sameDecisions]
  simp only [sameConstraints]

variable
  (inOrder :
    ∀ decision ∈ problem.decisions, ∀ domain, decision.bounds defaultBounds = .ok domain →
      domain.1 ≤ domain.2)
  (isFirst : reduce problem defaultBounds tolerance = .ok first)
  (isSecond : reduce other defaultBounds tolerance = .ok second)

include inOrder isFirst isSecond

/-- Without a conflict in one order, propagation ends without a conflict and with the same intervals
in every order. -/
theorem bounds_eq_of_isConsistent
    (isConsistent : first.isConsistent = true) :
    second.isConsistent = true ∧ second.bounds = first.bounds := by
  have narrowed := (narrowed_of_reduce_eq_ok faultless inOrder isFirst).resolve_right
    (by simp [isConsistent])
  rcases narrowed_of_reduce_eq_ok (sameDecisions ▸ faultless) (sameDecisions ▸ inOrder)
    isSecond with ⟨isConsistentToo, narrowedToo⟩ | ⟨-, impossible⟩
  · obtain ⟨start, started, isNames, distinct, areBorne⟩ := names_of_reduce_eq_ok isFirst
    obtain ⟨start, startedToo, isNamesToo, -⟩ := names_of_reduce_eq_ok isSecond
    rw [sameDecisions] at narrowedToo startedToo
    obtain rfl := Except.ok.inj (started.symm.trans startedToo)
    refine ⟨isConsistentToo, (eq_of_narrowed ?_ ?_ ?_ narrowed.2 narrowedToo
      fun constraint => (sameConstraints constraint).symm).symm⟩
    · exact isNames.trans isNamesToo.symm
    · exact isNames ▸ distinct
    · exact isNames ▸ areBorne
  · rw [sameDecisions] at impossible
    exact absurd (impossible.congr sameConstraints) narrowed.2.not_impossible

end Same

/-- In whatever order constraints are listed, propagation fails where a variable has no interval or
one of them obstructs it, reports a conflict or does not, and where it reports none it ends with the
same intervals and the same fixed values.  Each interval is then a part of the one that its variable
had before. -/
theorem reduce_perm
    (faultless : ∀ decision ∈ problem.decisions, decision.fault? = none)
    (inOrder :
      ∀ decision ∈ problem.decisions, ∀ domain, decision.bounds defaultBounds = .ok domain →
        domain.1 ≤ domain.2)
    (reordered : constraints.Perm problem.constraints) :
    (Fails (reduce problem defaultBounds tolerance) ↔
        (∃ decision ∈ problem.decisions, Fails (decision.bounds defaultBounds)) ∨
          ∃ constraint ∈ problem.constraints, Obstructs tolerance problem.decisions constraint) ∧
      (Fails (reduce { problem with constraints := constraints } defaultBounds tolerance) ↔
        Fails (reduce problem defaultBounds tolerance)) ∧
      ∀ first second,
        reduce problem defaultBounds tolerance = .ok first →
        reduce { problem with constraints := constraints } defaultBounds tolerance = .ok second →
          first.isConsistent = second.isConsistent ∧
            (first.isConsistent = true →
              first.bounds = second.bounds ∧ first.fixed = second.fixed ∧
                (∀ decision ∈ problem.decisions,
                  ∃ interval, first.bounds.get? decision.name = some interval) ∧
                ∀ name interval, first.bounds.get? name = some interval →
                  ∃ decision domain, bearer? problem.decisions name = some decision ∧
                    decision.bounds defaultBounds = .ok domain ∧
                      decision.IsSubinterval domain interval) := by
  set relisted : Problem α := { problem with constraints := constraints }
  have sameDecisions : relisted.decisions = problem.decisions := rfl
  have sameConstraints (constraint : Constraint α) :
      constraint ∈ relisted.constraints ↔ constraint ∈ problem.constraints :=
    reordered.mem_iff
  refine ⟨fails_reduce_iff faultless,
    fails_reduce_congr faultless sameDecisions sameConstraints, ?_⟩
  intro first second isFirst isSecond
  have ofFirst :=
    bounds_eq_of_isConsistent faultless sameDecisions sameConstraints inOrder isFirst isSecond
  have ofSecond :=
    bounds_eq_of_isConsistent (sameDecisions ▸ faultless) sameDecisions.symm
      (fun constraint => (sameConstraints constraint).symm) (sameDecisions ▸ inOrder)
      isSecond isFirst
  refine ⟨Bool.eq_iff_iff.mpr ⟨fun isConsistent => (ofFirst isConsistent).1,
    fun isConsistent => (ofSecond isConsistent).1⟩, fun isConsistent => ?_⟩
  have sameBounds : first.bounds = second.bounds := (ofFirst isConsistent).2.symm
  refine ⟨sameBounds, ?_, fun decision member => ?_, fun name interval isInterval => ?_⟩
  · rw [fixed_of_reduce_eq_ok isFirst, fixed_of_reduce_eq_ok isSecond, sameBounds]
  · exact (exists_interval_of_reduce_eq_ok isFirst member).2
  · exact isSubinterval_of_reduce_eq_ok faultless inOrder isFirst isConsistent isInterval

end Ending

section Samples

open Extended

/-- Bounds with factors of both signs, a strict one among them. -/
def mixedBounds : List (Constraint Extended) :=
  [boundOn "above" (-2) .below (-3), boundOn "below" 3 .atMost 10,
    boundOn "least" (1 / 2) .atLeast (1 / 4)]

/-- The same bounds leave two and three from the last to the first as well. -/
theorem reduce_reverse_mixedBounds :
    ∃ first second,
      reduce (boundedProblem .integer mixedBounds) (0, finite 100) (finite (1 / 2)) = .ok first ∧
        reduce (boundedProblem .integer mixedBounds.reverse) (0, finite 100) (finite (1 / 2)) =
            .ok second ∧
          first.bounds.get? "x" = some (finite 2, finite 3) ∧ first.isConsistent = true ∧
            second.isConsistent = true ∧ first.bounds = second.bounds ∧
              first.fixed = second.fixed := by
  have told :
      (reduce (boundedProblem .integer mixedBounds) (0, finite 100) (finite (1 / 2))).toOption.map
          (fun reduction => (reduction.bounds.get? "x", reduction.isConsistent)) =
        some (some (finite 2, finite 3), true) := by
    decide +kernel
  obtain ⟨first, isFirst, told⟩ := exists_eq_ok_of_map_toOption told
  obtain ⟨isInterval, isConsistent⟩ := Prod.mk.inj told
  have faultless :
      ∀ decision ∈ (boundedProblem .integer mixedBounds).decisions, decision.fault? = none := by
    intro decision member
    obtain rfl := List.mem_singleton.mp member
    rfl
  have inOrder :
      ∀ decision ∈ (boundedProblem .integer mixedBounds).decisions, ∀ domain,
        decision.bounds (0, finite 100) = .ok domain → domain.1 ≤ domain.2 := by
    intro decision member domain isDomain
    obtain rfl := List.mem_singleton.mp member
    have isOwn : (upToTen .integer).bounds (0, finite 100) = .ok (finite 0, finite 10) := rfl
    obtain rfl := Except.ok.inj (isOwn.symm.trans isDomain)
    decide +kernel
  obtain ⟨-, sameFailure, sameEnd⟩ := reduce_perm faultless inOrder (List.reverse_perm mixedBounds)
  have notFails : ¬ Fails (reduce { boundedProblem .integer mixedBounds with
      constraints := mixedBounds.reverse } (0, finite 100) (finite (1 / 2))) :=
    fun fails => not_fails_iff.mpr ⟨first, isFirst⟩ (sameFailure.mp fails)
  obtain ⟨second, isSecond⟩ := not_fails_iff.mp notFails
  obtain ⟨sameConsistency, sameOutcome⟩ := sameEnd first second isFirst isSecond
  obtain ⟨sameBounds, sameFixed, -⟩ := sameOutcome isConsistent
  exact ⟨first, second, isFirst, isSecond, isInterval, isConsistent,
    sameConsistency ▸ isConsistent, sameBounds, sameFixed⟩

end Samples

end Propagation

end Optima
