import Optima.Proofs.Problem.Threshold

namespace Optima

/-!
# Propagation loses no solution

Every bound that propagation applies leaves an interval with the numbers that satisfy it, and
the whole numbers among them where the variable is discrete.  So an assignment that starts in
the intervals of the variables and satisfies every bound stays in them, whatever the order of
the bounds, and no bound contradicts the others.

The tolerance of a constraint is not leeway here.  A number that misses the target of an equation
or of a comparison that allows its target is tolerated by the evaluation of constraints, but it
is cut off by propagation.
-/

/-- Every variable is assigned a number that it can be given in the interval of its name. -/
def Assignment.LiesIn {α : Type} [Scalar α] (assignment : Assignment α)
    (decisions : List (Variable α)) (bounds : Table (α × α)) : Prop :=
  ∀ decision ∈ decisions, ∃ interval number,
    bounds.get? decision.name = some interval ∧
      assignment.get? decision.name = some (.number number) ∧ decision.IsGene interval number

/-- Every variable is assigned a number that it can be given in its own interval. -/
def Assignment.LiesInDomains {α : Type} [Scalar α] (assignment : Assignment α)
    (decisions : List (Variable α)) (defaultBounds : α × α) : Prop :=
  ∀ decision ∈ decisions, ∃ interval number,
    decision.bounds defaultBounds = .ok interval ∧
      assignment.get? decision.name = some (.number number) ∧ decision.IsGene interval number

namespace Propagation

variable {α : Type} [Scalar α] {problem : Problem α} {decisions : List (Variable α)}
  {kinds : Table VariableKind} {defaultBounds : α × α} {tolerance : α} {assignment : Assignment α}

/-- An interval of a name contains its number and can be rounded where numbers are whole. -/
structure Holds (kinds : Table VariableKind) (assignment : Assignment α) (name : String)
    (interval : α × α) (decision : Variable α) : Prop where
  hasKind : kinds.get? name = some decision.kind
  takes : ∃ number, assignment.get? name = some (.number number) ∧ decision.IsGene interval number
  finiteEnds : decision.isDiscrete = true → HasFiniteEnds interval

/-- Every interval of a table contains the number of its name. -/
def Keep (kinds : Table VariableKind) (assignment : Assignment α) (bounds : Table (α × α)) : Prop :=
  ∀ name interval, bounds.get? name = some interval →
    ∃ decision, Holds kinds assignment name interval decision

/-- Entering an interval, and maybe the kind of its name, keeps what the other names have. -/
theorem Keep.insert
    {later : Table VariableKind}
    {bounds : Table (α × α)}
    (keep : Keep kinds assignment bounds)
    {name : String}
    (sameKinds : ∀ other, other ≠ name → later.get? other = kinds.get? other)
    {interval : α × α}
    {decision : Variable α}
    (holds : Holds later assignment name interval decision) :
    Keep later assignment (bounds.insert name interval) := by
  intro other found isFound
  rw [Table.get?_insert] at isFound
  by_cases sameName : other = name
  · rw [if_pos sameName] at isFound
    cases isFound
    exact ⟨decision, sameName ▸ holds⟩
  · rw [if_neg sameName] at isFound
    obtain ⟨decision, hasKind, takes, finiteEnds⟩ := keep other found isFound
    exact ⟨decision, (sameKinds other sameName).trans hasKind, takes, finiteEnds⟩

variable [SolvingScalar α]

/-- Intervals of variables can be set up where each variable has one, and they contain the numbers
of an assignment that lies in all of them. -/
theorem exists_startBounds_eq_ok
    (faultless : ∀ decision ∈ decisions, decision.fault? = none)
    (liesIn : assignment.LiesInDomains decisions defaultBounds)
    {known : Table (α × α)}
    (keep : Keep kinds assignment known) :
    ∃ start,
      startBounds defaultBounds known decisions = .ok start ∧
        Keep (kinds.insertAll (decisions.map fun decision => (decision.name, decision.kind)))
          assignment start := by
  induction decisions generalizing known kinds with
  | nil => exact ⟨known, rfl, keep⟩
  | cons decision rest inductionHypothesis =>
      obtain ⟨isFaultless, restFaultless⟩ := List.forall_mem_cons.mp faultless
      obtain ⟨⟨interval, number, isInterval, isNumber, isGene⟩, restLiesIn⟩ :=
        List.forall_mem_cons.mp liesIn
      have holds :
          Holds (kinds.insert decision.name decision.kind) assignment decision.name interval
            decision := by
        refine ⟨?_, ⟨number, isNumber, isGene⟩, ?_⟩
        · rw [Table.get?_insert, if_pos rfl]
        · exact fun isDiscrete =>
            Variable.hasFiniteEnds_bounds isFaultless isDiscrete isInterval
      have keepNext := keep.insert (fun other isOther => by
        rw [Table.get?_insert, if_neg isOther]) holds
      obtain ⟨start, isStart, keepStart⟩ :=
        inductionHypothesis restFaultless restLiesIn keepNext
      exact ⟨start, by simpa [startBounds, isInterval, bind, Except.bind] using isStart, keepStart⟩

/-- A bound that an assignment satisfies can be applied, contradicts no interval that contains the
number of its name, and leaves one that does. -/
theorem exists_step_eq_ok
    {constraint : Constraint α}
    (numbersFinite : assignment.IsFinite)
    (isFinite : constraint.kind = .bound → constraint.IsFinite tolerance)
    (holds : constraint.kind = .bound → constraint.exact.HoldsOn tolerance assignment)
    {before : Table (α × α) × Table (Conflict α)}
    (keep : Keep kinds assignment before.1) :
    ∃ after,
      step kinds tolerance before constraint = .ok after ∧ after.2 = before.2 ∧
        Keep kinds assignment after.1 := by
  unfold step
  by_cases isBound : constraint.kind = .bound
  · rw [if_neg (by simp [isBound])]
    obtain ⟨term?, isTerm, allows⟩ :=
      Constraint.exists_singleTerm?_allows numbersFinite (isFinite isBound) (holds isBound)
    simp only [isTerm, bind, Except.bind]
    cases term? with
    | none => exact ⟨before, rfl, rfl, keep⟩
    | some term =>
        dsimp only
        split
        · rename_i interval kind isInterval isKind
          by_cases isCategorical : kind = .categorical
          · rw [if_pos isCategorical]
            exact ⟨before, rfl, rfl, keep⟩
          · obtain ⟨decision, hasKind, ⟨number, isNumber, isGene⟩, finiteEnds⟩ :=
              keep term.name interval isInterval
            obtain rfl : decision.kind = kind := Option.some.inj (hasKind.symm.trans isKind)
            obtain ⟨met, isMet, isAbove, isBelow⟩ :=
              exists_tightened_eq_ok (allows term rfl number isNumber) isGene.lower_le
                isGene.le_upper fun notContinuous =>
                  ⟨isGene.isWhole (Variable.isDiscrete_iff.mpr notContinuous),
                    finiteEnds (Variable.isDiscrete_iff.mpr notContinuous)⟩
            have inOrder : ¬ met.2 < met.1 := (isAbove.trans isBelow).not_gt
            have holdsMet : Holds kinds assignment term.name met decision := by
              refine ⟨hasKind, ⟨number, isNumber, isAbove, isBelow, isGene.isWhole⟩, ?_⟩
              intro isDiscrete
              rw [tightened, if_neg (Variable.isDiscrete_iff.mp isDiscrete)] at isMet
              exact hasFiniteEnds_wholeInterval isMet
            refine ⟨(before.1.insert term.name met, before.2), ?_, rfl,
              keep.insert (fun _ _ => rfl) holdsMet⟩
            simp [isCategorical, isMet, inOrder, pure, Except.pure]
        · exact ⟨before, rfl, rfl, keep⟩
  · rw [if_pos (by simp [isBound])]
    exact ⟨before, rfl, rfl, keep⟩

/-- Bounds that an assignment satisfies can be applied one after the other, and none of them
contradicts those before. -/
theorem exists_steps_eq_ok
    {constraints : List (Constraint α)}
    (numbersFinite : assignment.IsFinite)
    (areFinite :
      ∀ constraint ∈ constraints, constraint.kind = .bound → constraint.IsFinite tolerance)
    (allHold :
      ∀ constraint ∈ constraints, constraint.kind = .bound →
        constraint.exact.HoldsOn tolerance assignment)
    {before : Table (α × α) × Table (Conflict α)}
    (keep : Keep kinds assignment before.1) :
    ∃ after,
      steps kinds tolerance before constraints = .ok after ∧ after.2 = before.2 ∧
        Keep kinds assignment after.1 := by
  induction constraints generalizing before with
  | nil => exact ⟨before, rfl, rfl, keep⟩
  | cons constraint rest inductionHypothesis =>
      obtain ⟨isFinite, restFinite⟩ := List.forall_mem_cons.mp areFinite
      obtain ⟨holds, restHold⟩ := List.forall_mem_cons.mp allHold
      obtain ⟨next, isNext, sameConflicts, keepNext⟩ :=
        exists_step_eq_ok numbersFinite isFinite holds keep
      obtain ⟨after, isAfter, sameConflictsLater, keepAfter⟩ :=
        inductionHypothesis restFinite restHold keepNext
      exact ⟨after, by simpa [steps, isNext, bind, Except.bind] using isAfter,
        sameConflictsLater.trans sameConflicts, keepAfter⟩

/-- Propagation ends without a conflict on what an assignment in the variables' intervals
satisfies without leeway, and the assignment lies in the bounds that it ends with. -/
theorem reduce_keeps_solutions
    (faultless : ∀ decision ∈ problem.decisions, decision.fault? = none)
    (numbersFinite : assignment.IsFinite)
    (areFinite :
      ∀ constraint ∈ problem.constraints, constraint.kind = .bound →
        constraint.IsFinite tolerance)
    (liesIn : assignment.LiesInDomains problem.decisions defaultBounds)
    (allHold :
      ∀ constraint ∈ problem.constraints, constraint.kind = .bound →
        constraint.exact.HoldsOn tolerance assignment) :
    ∃ reduction,
      reduce problem defaultBounds tolerance = .ok reduction ∧ reduction.isConsistent = true ∧
        assignment.LiesIn problem.decisions reduction.bounds := by
  have keepNothing : Keep Table.empty assignment Table.empty := nofun
  obtain ⟨start, isStart, keepStart⟩ := exists_startBounds_eq_ok faultless liesIn keepNothing
  have keepBefore : Keep _ assignment (start, (Table.empty : Table (Conflict α))).1 := keepStart
  obtain ⟨⟨bounds, conflicts⟩, isEnd, sameConflicts, keepEnd⟩ :=
    exists_steps_eq_ok numbersFinite areFinite allHold keepBefore
  refine ⟨⟨bounds, fixedValues bounds, conflicts⟩, ?_, ?_, ?_⟩
  · change startBounds defaultBounds {} problem.decisions = .ok start at isStart
    change steps (Table.ofList _) tolerance (start, {}) problem.constraints = _ at isEnd
    simp only [reduce, isStart, isEnd, Except.mapError, bind, Except.bind, pure, Except.pure]
  · obtain rfl : conflicts = Table.empty := sameConflicts
    rfl
  · intro decision member
    obtain ⟨_, number, -, isNumber, isGene⟩ := liesIn decision member
    obtain ⟨interval, isInterval⟩ :=
      exists_get?_of_steps_eq_ok isEnd
        (exists_get?_of_startBounds_eq_ok isStart (.inr ⟨decision, member, rfl⟩))
    obtain ⟨_, -, ⟨found, isFound, isGeneThere⟩, -⟩ := keepEnd decision.name interval isInterval
    obtain rfl : number = found := by
      simpa using isNumber.symm.trans isFound
    exact ⟨interval, number, isInterval, isNumber, isGeneThere.lower_le, isGeneThere.le_upper,
      isGene.isWhole⟩

section Samples

open Extended

/-- A variable `x` from zero to ten. -/
def upToTen (kind : VariableKind) : Variable Extended where
  identifier := "x"
  name := "x"
  kind := kind
  lower := some 0
  upper := some (finite 10)
  initial := none
  categories := none
  description := ""

/-- A bound on a multiple of `x`. -/
def boundOn (identifier : String) (factor : Rat) (comparison : Comparison) (target : Rat) :
    Constraint Extended where
  rule := .expression (.product [.constant (finite factor), .variable "x"])
  identifier := identifier
  name := identifier
  kind := .bound
  comparison := comparison
  target := finite target
  tolerance := none
  description := ""

/-- The problem of finding `x` between bounds. -/
def boundedProblem (kind : VariableKind) (constraints : List (Constraint Extended)) :
    Problem Extended where
  identifier := "bounds"
  name := "bounds"
  kind := .constraintSatisfaction
  description := ""
  objectives := []
  constraints := constraints
  decisions := [upToTen kind]
  parameters := none
  status := .pending

/-- The assignment of a number to `x`. -/
def assigned (number : Rat) : Assignment Extended :=
  .ofNumbers [("x", finite number)]

theorem isFinite_assigned
    (number : Rat) :
    (assigned number).IsFinite := by
  intro name value isBound
  unfold assigned Assignment.ofNumbers Table.get? at isBound
  rw [List.map_singleton, List.lookup_cons] at isBound
  split at isBound
  · cases isBound
    rfl
  · cases isBound

theorem isFinite_boundOn
    (identifier : String)
    (factor : Rat)
    (comparison : Comparison)
    (target tolerance : Rat) :
    (boundOn identifier factor comparison target).IsFinite (finite tolerance) where
  rule := by
    rintro expression ⟨⟩
    exact ⟨rfl, trivial, trivial⟩
  margin _ := rfl

theorem liesInDomains_assigned
    {number : Rat}
    (isAbove : finite 0 ≤ finite number)
    (isBelow : finite number ≤ finite 10) :
    (assigned number).LiesInDomains [upToTen .continuous] (0, finite 100) := by
  intro decision member
  obtain rfl := List.mem_singleton.mp member
  exact ⟨(0, finite 10), finite number, rfl, rfl, isAbove, isBelow, nofun⟩

/-- A bound on a falling multiple and one on a rising multiple leave three. -/
theorem reduce_keeps_three :
    ∃ reduction,
      reduce
          (boundedProblem .continuous
            [boundOn "above" (-2) .below (-3), boundOn "below" 2 .atMost 7])
          (0, finite 100) (finite (1 / 2)) = .ok reduction ∧
        reduction.isConsistent = true ∧
        (assigned 3).LiesIn [upToTen .continuous] reduction.bounds := by
  apply reduce_keeps_solutions
  · intro decision member
    obtain rfl := List.mem_singleton.mp member
    rfl
  · exact isFinite_assigned 3
  · intro constraint member _
    rcases List.mem_pair.mp member with rfl | rfl
    · exact isFinite_boundOn _ _ _ _ _
    · exact isFinite_boundOn _ _ _ _ _
  · exact liesInDomains_assigned (by decide +kernel) (by decide +kernel)
  · intro constraint member _
    have told :
        (constraint.exact.isSatisfied (finite (1 / 2)) (assigned 3)).toOption.map id =
          some true := by
      rcases List.mem_pair.mp member with rfl | rfl
      · decide +kernel
      · decide +kernel
    obtain ⟨_, satisfied, rfl⟩ := exists_eq_ok_of_map_toOption told
    exact Constraint.isSatisfied_eq_ok_true_iff.mp satisfied

/-- A number that a bound tolerates is cut off, and bounds that tolerate a number contradict each
other. -/
theorem reduce_loses_tolerated_numbers :
    ((assigned (11 / 2)).LiesInDomains [upToTen .continuous] (0, finite 100) ∧
        Constraints.AllHold (finite (1 / 2)) (assigned (11 / 2)) [boundOn "most" 1 .atMost 5] ∧
        ∃ reduction,
          reduce (boundedProblem .continuous [boundOn "most" 1 .atMost 5]) (0, finite 100)
              (finite (1 / 2)) = .ok reduction ∧
            ¬ (assigned (11 / 2)).LiesIn [upToTen .continuous] reduction.bounds) ∧
      (assigned 1).LiesInDomains [upToTen .continuous] (0, finite 100) ∧
        Constraints.AllHold (finite (1 / 2)) (assigned 1)
          [boundOn "least" 1 .atLeast 1, boundOn "most" 1 .atMost (3 / 4)] ∧
        ∃ reduction,
          reduce
              (boundedProblem .continuous
                [boundOn "least" 1 .atLeast 1, boundOn "most" 1 .atMost (3 / 4)])
              (0, finite 100) (finite (1 / 2)) = .ok reduction ∧
            reduction.isConsistent = false := by
  have allHold {number : Rat} {constraints : List (Constraint Extended)}
      (told : (Constraints.feasible (finite (1 / 2)) (assigned number) constraints).toOption.map id
        = some true) :
      Constraints.AllHold (finite (1 / 2)) (assigned number) constraints := by
    obtain ⟨_, feasible, rfl⟩ := exists_eq_ok_of_map_toOption told
    exact Constraints.feasible_eq_ok_true_iff.mp feasible
  refine ⟨⟨liesInDomains_assigned (by decide +kernel) (by decide +kernel),
    allHold (by decide +kernel), ?_⟩, liesInDomains_assigned (by decide +kernel)
    (by decide +kernel), allHold (by decide +kernel), ?_⟩
  · have told :
        (reduce (boundedProblem .continuous [boundOn "most" 1 .atMost 5]) (0, finite 100)
          (finite (1 / 2))).toOption.map (·.bounds.get? "x") = some (some (0, finite 5)) := by
      decide +kernel
    obtain ⟨reduction, isReduction, isCut⟩ := exists_eq_ok_of_map_toOption told
    refine ⟨reduction, isReduction, fun liesIn => ?_⟩
    obtain ⟨interval, number, isInterval, isNumber, isGene⟩ :=
      liesIn (upToTen .continuous) (List.mem_singleton.mpr rfl)
    obtain rfl := Option.some.inj (isCut.symm.trans isInterval)
    cases isNumber
    exact absurd isGene.le_upper (by decide +kernel)
  · exact exists_eq_ok_of_map_toOption (by decide +kernel)

end Samples

end Propagation

end Optima
