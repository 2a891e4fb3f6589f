import Optima.Problem.Propagation
import Optima.Proofs.Scalar.Laws
import Optima.Proofs.Table

namespace Optima

/-!
# Intervals after propagation

Propagation takes the interval of a variable as its starting point, and every bound that
it lets through leaves an interval between whole numbers where the variable is discrete.
So the ends of a discrete variable's interval are finite numbers in the end.
-/

variable {α : Type} [Scalar α]

/-- Both ends of an interval are finite numbers. -/
def HasFiniteEnds (interval : α × α) : Prop :=
  Scalar.isFinite interval.1 = true ∧ Scalar.isFinite interval.2 = true

namespace Variable

variable [BoundedScalar α] {decision : Variable α} {defaultBounds interval : α × α}

omit [Scalar α] [BoundedScalar α] in
theorem isDiscrete_iff :
    decision.isDiscrete = true ↔ decision.kind ≠ .continuous :=
  bne_iff_ne

omit [BoundedScalar α] in
theorem isFinite_of_wholePart_eq_ok
    {round : α → α}
    {value whole : α}
    (keepsFinite : ∀ number, Scalar.isFinite number = true → Scalar.isFinite (round number) = true)
    (outcome : wholePart round value = .ok whole) :
    Scalar.isFinite whole = true := by
  unfold wholePart at outcome
  split at outcome
  · cases outcome
  · split at outcome
    · cases outcome
    · rename_i isFinite
      cases outcome
      exact keepsFinite value (by simpa using isFinite)

theorem exists_wholePart_eq_ok
    {value : α}
    (isFinite : Scalar.isFinite value = true)
    (round : α → α) :
    wholePart round value = .ok (round value) := by
  simp [wholePart, isFinite, BoundedScalar.isNaN_of_isFinite value isFinite]

theorem isFinite_of_isBinaryBound
    {bound : α}
    (isBinary : isBinaryBound bound = true) :
    Scalar.isFinite bound = true := by
  rw [isBinaryBound, Bool.or_eq_true] at isBinary
  rcases isBinary with isZero | isOne
  · have ⟨atMost, atLeast⟩ := (OrderedScalar.beq_iff_le bound 0).mp isZero
    exact BoundedScalar.isFinite_between 0 bound 0 atLeast atMost BoundedScalar.isFinite_zero
      BoundedScalar.isFinite_zero
  · have ⟨atMost, atLeast⟩ := (OrderedScalar.beq_iff_le bound 1).mp isOne
    exact BoundedScalar.isFinite_between 1 bound 1 atLeast atMost BoundedScalar.isFinite_one
      BoundedScalar.isFinite_one

omit [BoundedScalar α] in
/-- The bounds of a binary variable without a fault are zero or one. -/
theorem isBinaryBound_of_fault?_eq_none
    (isBinary : decision.kind = .binary)
    (faultless : decision.fault? = none)
    {bound : α}
    (isBound : bound ∈ decision.lower.toList ++ decision.upper.toList) :
    isBinaryBound bound = true := by
  have noneFound :
      (decision.lower.toList ++ decision.upper.toList).find?
        (fun bound => !isBinaryBound bound) = none := by
    simp only [fault?, isBinary, reduceCtorEq, ↓reduceIte, numericFault?] at faultless
    split at faultless
    · cases faultless
    · simpa using (Option.or_eq_none_iff.mp faultless).2
  rw [List.find?_eq_none] at noneFound
  simpa using noneFound bound isBound

/-- A discrete variable without a fault has an interval with finite ends. -/
theorem hasFiniteEnds_bounds
    (faultless : decision.fault? = none)
    (isDiscrete : decision.isDiscrete = true)
    (outcome : decision.bounds defaultBounds = .ok interval) :
    HasFiniteEnds interval := by
  unfold bounds at outcome
  cases isKind : decision.kind with
  | continuous =>
      simp [Variable.isDiscrete, isKind] at isDiscrete
  | integer =>
      rw [isKind] at outcome
      obtain ⟨first, isFirst, outcome⟩ := bind_eq_ok outcome
      obtain ⟨last, isLast, outcome⟩ := bind_eq_ok outcome
      cases outcome
      exact ⟨isFinite_of_wholePart_eq_ok BoundedScalar.isFinite_ceiling isFirst,
        isFinite_of_wholePart_eq_ok BoundedScalar.isFinite_floor isLast⟩
  | binary =>
      rw [isKind] at outcome
      cases outcome
      constructor
      · cases isLower : decision.lower with
        | none => exact BoundedScalar.isFinite_zero
        | some lower =>
            exact isFinite_of_isBinaryBound
              (isBinaryBound_of_fault?_eq_none isKind faultless (by simp [isLower]))
      · cases isUpper : decision.upper with
        | none => exact BoundedScalar.isFinite_one
        | some upper =>
            exact isFinite_of_isBinaryBound
              (isBinaryBound_of_fault?_eq_none isKind faultless (by simp [isUpper]))
  | categorical =>
      rw [isKind] at outcome
      cases outcome
      exact ⟨BoundedScalar.isFinite_zero, BoundedScalar.isFinite_ofInt _⟩

/-- A finite number stands for a value of every variable. -/
theorem exists_decode_eq_ok
    {value : α}
    (isFinite : decision.isDiscrete = true → Scalar.isFinite value = true) :
    ∃ datum, decision.decode value = .ok datum := by
  cases isKind : decision.kind with
  | continuous =>
      exact ⟨.number value, by simp [decode, isKind]⟩
  | integer | binary | categorical =>
      have whole :=
        exists_wholePart_eq_ok (isFinite (by simp [isDiscrete, isKind])) Scalar.nearest
      simp [decode, categoryPosition, isKind, whole, bind, Except.bind, pure, Except.pure]

end Variable

namespace Propagation

variable {problem : Problem α} {defaultBounds : α × α} {tolerance : α}

/-- The discrete variables of a list have intervals with finite ends in a table. -/
def KeepsFinite (decisions : List (Variable α)) (bounds : Table (α × α)) : Prop :=
  ∀ decision ∈ decisions, decision.isDiscrete = true →
    ∀ interval, bounds.get? decision.name = some interval → HasFiniteEnds interval

/-- Every variable has an interval where the intervals can be set up, and in the end a name has
the interval of one of its variables. -/
theorem of_startBounds_eq_ok
    {decisions : List (Variable α)}
    {known bounds : Table (α × α)}
    (outcome : startBounds defaultBounds known decisions = .ok bounds) :
    (∀ decision ∈ decisions, ∃ interval, decision.bounds defaultBounds = .ok interval) ∧
      ∀ name interval, bounds.get? name = some interval →
        known.get? name = some interval ∨
          ∃ decision ∈ decisions,
            decision.name = name ∧ decision.bounds defaultBounds = .ok interval := by
  induction decisions generalizing known with
  | nil =>
      cases outcome
      exact ⟨nofun, fun _ _ isKnown => Or.inl isKnown⟩
  | cons decision rest inductionHypothesis =>
      obtain ⟨interval, isInterval, outcome⟩ := bind_eq_ok outcome
      obtain ⟨restHave, fromRest⟩ := inductionHypothesis outcome
      constructor
      · rw [List.forall_mem_cons]
        exact ⟨⟨interval, isInterval⟩, restHave⟩
      · intro name found isFound
        rcases fromRest name found isFound with isKnown | ⟨other, member, isOther⟩
        · rw [Table.get?_insert] at isKnown
          split at isKnown
          · rename_i sameName
            cases isKnown
            exact Or.inr ⟨decision, by simp, sameName.symm, isInterval⟩
          · exact Or.inl isKnown
        · exact Or.inr ⟨other, List.mem_cons_of_mem decision member, isOther⟩

/-- A name has an interval in the end if it had one before, or if a variable bears it. -/
theorem exists_get?_of_startBounds_eq_ok
    {decisions : List (Variable α)}
    {known bounds : Table (α × α)}
    (outcome : startBounds defaultBounds known decisions = .ok bounds)
    {name : String}
    (isThere :
      (∃ interval, known.get? name = some interval) ∨ ∃ decision ∈ decisions, decision.name = name) :
    ∃ interval, bounds.get? name = some interval := by
  induction decisions generalizing known with
  | nil =>
      cases outcome
      exact isThere.resolve_right (by simp)
  | cons decision rest inductionHypothesis =>
      obtain ⟨interval, -, outcome⟩ := bind_eq_ok outcome
      refine inductionHypothesis outcome ?_
      rw [Table.get?_insert]
      rcases isThere with isKnown | ⟨other, member, hasName⟩
      · by_cases sameName : name = decision.name
        · exact .inl ⟨interval, if_pos sameName⟩
        · exact .inl (by rwa [if_neg sameName])
      · rcases List.mem_cons.mp member with isFirst | inRest
        · exact .inl ⟨interval, if_pos (isFirst ▸ hasName.symm)⟩
        · exact .inr ⟨other, inRest, hasName⟩

/-- A constraint leaves all intervals as they are, or it tightens one that is not that of a
categorical variable and leaves something of it. -/
theorem of_step_eq_ok
    {kinds : Table VariableKind}
    {before after : Table (α × α) × Table (Conflict α)}
    {constraint : Constraint α}
    (outcome : step kinds tolerance before constraint = .ok after) :
    after.1 = before.1 ∨
      ∃ term interval kind met,
        before.1.get? term.name = some interval ∧
          kinds.get? term.name = some kind ∧
          kind ≠ .categorical ∧
          tightened constraint term kind tolerance interval = .ok met ∧
          after.1 = before.1.insert term.name met := by
  unfold step at outcome
  split at outcome
  · cases outcome
    exact .inl rfl
  · obtain ⟨term?, -, outcome⟩ := bind_eq_ok outcome
    cases term? with
    | none =>
        cases outcome
        exact .inl rfl
    | some term =>
        dsimp only at outcome
        split at outcome
        · rename_i interval kind isInterval isKind
          split at outcome
          · cases outcome
            exact .inl rfl
          · rename_i notCategorical
            split at outcome
            · cases outcome
            · rename_i lower upper isTightened
              split at outcome
              · cases outcome
                exact .inl rfl
              · cases outcome
                exact .inr ⟨term, interval, kind, (lower, upper), isInterval, isKind,
                  notCategorical, isTightened, rfl⟩
        · cases outcome
          exact .inl rfl

section Handing

/-- The intervals that variables have in a table satisfy a condition. -/
def Satisfy (holds : Variable α → α × α → Prop) (decisions : List (Variable α))
    (bounds : Table (α × α)) : Prop :=
  ∀ decision ∈ decisions, ∀ interval, bounds.get? decision.name = some interval →
    holds decision interval

/-- A condition on the intervals of variables that every bound hands on. -/
def IsHandedOn (holds : Variable α → α × α → Prop) (tolerance : α)
    (decisions : List (Variable α)) : Prop :=
  ∀ decision ∈ decisions, decision.kind ≠ .categorical → ∀ constraint term interval met,
    tightened constraint term decision.kind tolerance interval = .ok met →
      holds decision interval → holds decision met

variable {holds : Variable α → α × α → Prop} {decisions : List (Variable α)}
  {kinds : Table VariableKind} {before after : Table (α × α) × Table (Conflict α)}
  (areKinds : ∀ decision ∈ decisions, kinds.get? decision.name = some decision.kind)
  (isHandedOn : IsHandedOn holds tolerance decisions)

include areKinds isHandedOn

/-- One constraint hands on what holds of the intervals. -/
theorem satisfy_step
    {constraint : Constraint α}
    (satisfy : Satisfy holds decisions before.1)
    (outcome : step kinds tolerance before constraint = .ok after) :
    Satisfy holds decisions after.1 := by
  rcases of_step_eq_ok outcome with
    isSame | ⟨term, interval, kind, met, isInterval, isKind, notCategorical, isTightened, isMet⟩
  · rw [isSame]
    exact satisfy
  · intro decision member found isFound
    rw [isMet, Table.get?_insert] at isFound
    split at isFound
    · rename_i sameName
      obtain rfl := Option.some.inj isFound
      obtain rfl : decision.kind = kind :=
        Option.some.inj ((areKinds decision member).symm.trans (sameName ▸ isKind))
      exact isHandedOn decision member notCategorical constraint term interval met isTightened
        (satisfy decision member interval (sameName ▸ isInterval))
    · exact satisfy decision member found isFound

theorem satisfy_steps
    {constraints : List (Constraint α)}
    (satisfy : Satisfy holds decisions before.1)
    (outcome : steps kinds tolerance before constraints = .ok after) :
    Satisfy holds decisions after.1 := by
  induction constraints generalizing before with
  | nil =>
      cases outcome
      exact satisfy
  | cons constraint rest inductionHypothesis =>
      obtain ⟨next, stepped, outcome⟩ := bind_eq_ok outcome
      exact inductionHypothesis (satisfy_step areKinds isHandedOn satisfy stepped) outcome

end Handing

/-- A name keeps having an interval. -/
theorem exists_get?_of_steps_eq_ok
    {kinds : Table VariableKind}
    {before after : Table (α × α) × Table (Conflict α)}
    {constraints : List (Constraint α)}
    (outcome : steps kinds tolerance before constraints = .ok after)
    {name : String}
    (isThere : ∃ interval, before.1.get? name = some interval) :
    ∃ interval, after.1.get? name = some interval := by
  induction constraints generalizing before with
  | nil =>
      cases outcome
      exact isThere
  | cons constraint rest inductionHypothesis =>
      obtain ⟨next, stepped, outcome⟩ := bind_eq_ok outcome
      refine inductionHypothesis outcome ?_
      rcases of_step_eq_ok stepped with isSame | ⟨term, -, -, met, -, -, -, -, isMet⟩
      · rw [isSame]
        exact isThere
      · rw [isMet, Table.get?_insert]
        by_cases sameName : name = term.name
        · exact ⟨met, if_pos sameName⟩
        · rwa [if_neg sameName]

section Reducing

variable {reduction : Reduction α}
  (outcome : reduce problem defaultBounds tolerance = .ok reduction)

include outcome

/-- Where bounds can be propagated, every variable had an interval before and has one then. -/
theorem exists_interval_of_reduce_eq_ok
    {decision : Variable α}
    (member : decision ∈ problem.decisions) :
    (∃ interval, decision.bounds defaultBounds = .ok interval) ∧
      ∃ interval, reduction.bounds.get? decision.name = some interval := by
  obtain ⟨start, started, outcome⟩ := bind_eq_ok outcome
  obtain ⟨⟨bounds, conflicts⟩, stepped, outcome⟩ := bind_eq_ok outcome
  cases outcome
  have started := mapError_eq_ok started
  exact ⟨(of_startBounds_eq_ok started).1 decision member,
    exists_get?_of_steps_eq_ok stepped
      (exists_get?_of_startBounds_eq_ok started (.inr ⟨decision, member, rfl⟩))⟩

/-- What holds of the intervals of variables before propagation and is handed on holds of them
afterwards. -/
theorem satisfy_of_reduce_eq_ok
    {holds : Variable α → α × α → Prop}
    (distinct : problem.variableNames.Nodup)
    (atStart :
      ∀ decision ∈ problem.decisions, ∀ interval,
        decision.bounds defaultBounds = .ok interval → holds decision interval)
    (isHandedOn : IsHandedOn holds tolerance problem.decisions) :
    Satisfy holds problem.decisions reduction.bounds := by
  obtain ⟨start, started, outcome⟩ := bind_eq_ok outcome
  obtain ⟨⟨bounds, conflicts⟩, stepped, outcome⟩ := bind_eq_ok outcome
  cases outcome
  refine satisfy_steps ?_ isHandedOn ?_ stepped
  · intro decision member
    have distinctEntries :
        ((problem.decisions.map fun decision => (decision.name, decision.kind)).map
          (·.1)).Nodup := by
      rw [List.map_map]
      exact distinct
    exact Table.get?_ofList_of_mem distinctEntries (List.mem_map_of_mem member)
  · intro decision member interval isInterval
    rcases (of_startBounds_eq_ok (mapError_eq_ok started)).2 decision.name interval isInterval with
      isKnown | ⟨other, inProblem, sameName, isBounds⟩
    · cases isKnown
    · obtain rfl : other = decision :=
        List.inj_on_of_nodup_map distinct inProblem member sameName
      exact atStart other member interval isBounds

end Reducing

variable [BoundedScalar α]

theorem hasFiniteEnds_wholeInterval
    {interval whole : α × α}
    (outcome : wholeInterval interval = .ok whole) :
    HasFiniteEnds whole := by
  obtain ⟨first, isFirst, outcome⟩ := bind_eq_ok outcome
  obtain ⟨last, isLast, outcome⟩ := bind_eq_ok outcome
  cases outcome
  exact ⟨Variable.isFinite_of_wholePart_eq_ok BoundedScalar.isFinite_ceiling isFirst,
    Variable.isFinite_of_wholePart_eq_ok BoundedScalar.isFinite_floor isLast⟩

/-- Where bounds can be propagated, every variable had an interval before, and the interval of a
discrete variable has finite ends afterwards. -/
theorem of_reduce_eq_ok
    {reduction : Reduction α}
    (distinct : problem.variableNames.Nodup)
    (faultless : ∀ decision ∈ problem.decisions, decision.fault? = none)
    (outcome : reduce problem defaultBounds tolerance = .ok reduction) :
    (∀ decision ∈ problem.decisions,
        ∃ interval, decision.bounds defaultBounds = .ok interval) ∧
      KeepsFinite problem.decisions reduction.bounds := by
  have satisfy :
      Satisfy (fun decision interval => decision.isDiscrete = true → HasFiniteEnds interval)
        problem.decisions reduction.bounds := by
    refine satisfy_of_reduce_eq_ok outcome distinct ?_ ?_
    · intro decision member interval isBounds isDiscrete
      exact decision.hasFiniteEnds_bounds (faultless decision member) isDiscrete isBounds
    · intro decision _ _ constraint term interval met isTightened _ isDiscrete
      rw [tightened, if_neg (Variable.isDiscrete_iff.mp isDiscrete)] at isTightened
      exact hasFiniteEnds_wholeInterval isTightened
  exact ⟨fun decision member => (exists_interval_of_reduce_eq_ok outcome member).1,
    fun decision member isDiscrete interval isInterval =>
      satisfy decision member interval isInterval isDiscrete⟩

end Propagation

end Optima
