import Optima.Proofs.Problem.Feasibility
import Optima.Proofs.Search.Space

namespace Optima

/-!
# What a search over vectors tells

What is told of a vector are the values that its components stand for, and a verdict.
-/

section Encoding

/-!
## Values and their codes

A search gives back what a vector is decoded to.  Whoever encodes these values again gets
the vector, for the component of a discrete variable is a whole number, and that of a
categorical one counts its categories.  Where a component is NaN, so is the value.
-/

/-- Numbers that can be counted with.  Sums of whole numbers are rounded to whole numbers, and only
what is finite is rounded to a finite number.  Counting from zero ends where it should, as it does
with doubles for as many items as a list can have. -/
class CountingScalar (α : Type) [Scalar α] : Prop extends FractionalScalar α where
  isFinite_ofInt (whole : Int) : Scalar.isFinite (Scalar.ofInt whole : α) = true
  isFinite_of_isFinite_nearest (value : α) :
    Scalar.isFinite (Scalar.nearest value) = true → Scalar.isFinite value = true
  isWhole_add (first second : α) :
    Scalar.IsWhole first → Scalar.IsWhole second → Scalar.isFinite (first + second) = true →
      Scalar.IsWhole (first + second)
  zero_add_ofInt_between (last index : Nat) (count : Rat) :
    Scalar.toRat? (Scalar.ceiling (Scalar.ofInt last + 1 - 0 : α)) = some count →
      (index : Int) < count.floor →
        (0 : α) ≤ 0 + Scalar.ofInt index ∧ (0 : α) + Scalar.ofInt index ≤ Scalar.ofInt last

open Extended in
instance : CountingScalar Extended where
  isFinite_ofInt _ := rfl
  isFinite_of_isFinite_nearest value := by
    cases value <;> simp [Scalar.isFinite, Scalar.nearest, mapFinite]
  isWhole_add first second isWhole isWholeToo _ := by
    obtain ⟨whole, isWhole⟩ := isWhole
    obtain ⟨other, isOther⟩ := isWholeToo
    obtain rfl := toRat?_eq_some_iff.mp isWhole
    obtain rfl := toRat?_eq_some_iff.mp isOther
    exact ⟨whole + other, congrArg some (Int.cast_add whole other).symm⟩
  zero_add_ofInt_between last index count isCount isBelow := by
    have isCount : ((((last : Int) : Rat) + 1 + -0).ceil : Rat) = count := Option.some.inj isCount
    have areMore : (((last : Int) : Rat) + 1 + -0) = ((last + 1 : Int) : Rat) := by
      simp
    rw [areMore, Rat.ceil_intCast] at isCount
    rw [← isCount, Rat.floor_intCast] at isBelow
    rw [zero_add]
    refine ⟨finite_le_finite_iff.mpr ?_, finite_le_finite_iff.mpr ?_⟩
    · exact_mod_cast Int.natCast_nonneg index
    · exact_mod_cast (by omega : (index : Int) ≤ last)

variable {α : Type} [Scalar α]

namespace Variable

/-- A component that a variable has in a search.  Nothing is asked of what is not finite, which
nothing can be decoded from unless the variable is real. -/
structure IsCode (decision : Variable α) (value : α) : Prop where
  isWhole : decision.isDiscrete = true → Scalar.isFinite value = true → Scalar.IsWhole value
  isListed :
    decision.kind = .categorical → Scalar.isFinite value = true →
      0 ≤ value ∧ value ≤ Scalar.ofInt (decision.categoryNames.length - 1 : Int)

variable {decision : Variable α} {defaultBounds interval : α × α} {value : α}

/-- What is decoded is encoded as the component that it is decoded from. -/
theorem IsCode.exists_encode_eq_ok
    [FractionalScalar α]
    (isCode : decision.IsCode value)
    (faultless : decision.fault? = none)
    {datum : Datum α}
    (isDatum : decision.decode value = .ok datum) :
    ∃ code, decision.encode datum = .ok code ∧ (code = value ∨ (code == value) = true) := by
  cases isKind : decision.kind with
  | continuous =>
      simp only [decode, isKind, Except.ok.injEq] at isDatum
      subst isDatum
      exact ⟨value, rfl, .inl rfl⟩
  | integer | binary =>
      simp only [decode, isKind] at isDatum
      obtain ⟨whole, isNearest, isDatum⟩ := bind_eq_ok isDatum
      cases isDatum
      obtain ⟨isFinite, rfl⟩ := of_wholePart_eq_ok isNearest
      have isWhole := isCode.isWhole (by simp [isDiscrete, isKind]) isFinite
      exact ⟨_, rfl, .inr (nearest_add_zero_beq_of_isWhole isWhole)⟩
  | categorical =>
      simp only [decode, isKind] at isDatum
      obtain ⟨position, isPosition, isDatum⟩ := bind_eq_ok isDatum
      cases isDatum
      obtain ⟨whole, isNearest, -⟩ := bind_eq_ok isPosition
      obtain ⟨isFinite, -⟩ := of_wholePart_eq_ok isNearest
      obtain ⟨isAbove, isBelow⟩ := isCode.isListed isKind isFinite
      -- The interval is the one that is declared, so the number is one that it leaves.
      have isTightened : decision.IsTightened (0, 0)
          (0, Scalar.ofInt (decision.categoryNames.length - 1 : Int)) :=
        isTightened_of_eq (by simp [declaredBounds, isKind])
          fun _ notCategorical => absurd isKind notCategorical
      have isGene :
          decision.IsGene (0, Scalar.ofInt (decision.categoryNames.length - 1 : Int)) value :=
        ⟨isAbove, isBelow, fun isDiscrete => isCode.isWhole isDiscrete isFinite⟩
      obtain ⟨found, isFound, inRange, isSame⟩ :=
        exists_categoryPosition_eq_ok faultless isTightened isGene isKind
      obtain rfl := Except.ok.inj (isPosition.symm.trans isFound)
      exact ⟨_, encode_getD_categoryNames isKind (nodup_categoryNames faultless isKind).2 inRange,
        .inr isSame⟩

variable [CountingScalar α]

theorem isWhole_ofInt
    (whole : Int) :
    Scalar.IsWhole (Scalar.ofInt whole : α) :=
  FractionalScalar.exists_toRat?_ofInt whole (CountingScalar.isFinite_ofInt whole)

/-- The positions of categories begin at zero. -/
theorem zero_le_lastPosition
    (faultless : decision.fault? = none)
    (isCategorical : decision.kind = .categorical) :
    (0 : α) ≤ Scalar.ofInt (decision.categoryNames.length - 1 : Int) := by
  have someCategory : 0 < decision.categoryNames.length :=
    List.length_pos_iff.mpr (nodup_categoryNames faultless isCategorical).1
  have isZero := FractionalScalar.ofInt_beq (0 : α) 0 (by simp [FractionalScalar.toRat?_zero])
  exact ComparableScalar.le_trans _ _ _ ((NumericScalar.beq_iff_le _ _).mp isZero).2
    (FractionalScalar.ofInt_mono _ _ (by omega))

/-- A number that is rounded to a finite one is rounded to a whole one. -/
theorem isWhole_of_isFinite_nearest
    (isFinite : Scalar.isFinite (Scalar.nearest value) = true) :
    Scalar.IsWhole (Scalar.nearest value) := by
  obtain ⟨fraction, isFraction⟩ :=
    Scalar.exists_fraction (CountingScalar.isFinite_of_isFinite_nearest value isFinite)
  obtain ⟨nearby, isNearby, -⟩ :=
    FractionalScalar.exists_toRat?_nearest value fraction isFraction
  exact ⟨nearby, isNearby⟩

/-- Whatever is repaired becomes a component that the variable has. -/
theorem isCode_repairOne
    (faultless : decision.fault? = none)
    (isTightened : decision.IsTightened defaultBounds interval)
    (value : α) :
    decision.IsCode (Candidates.repairOne interval decision.isDiscrete value) := by
  constructor
  · intro isDiscrete isFinite
    rw [Candidates.repairOne, if_pos isDiscrete] at isFinite ⊢
    exact isWhole_of_isFinite_nearest isFinite
  · intro isCategorical isFinite
    have isDiscrete : decision.isDiscrete = true := by
      simp [Variable.isDiscrete, isCategorical]
    obtain rfl := isTightened.isListed isCategorical
    simp only [Candidates.repairOne, isDiscrete, ↓reduceIte, declaredBounds, isCategorical]
      at isFinite ⊢
    have isFinite := CountingScalar.isFinite_of_isFinite_nearest _ isFinite
    have isNumber : Scalar.isNaN value = false := by
      cases isNaN : Scalar.isNaN value with
      | false => rfl
      | true =>
          have isKept : Scalar.clip value 0
              (Scalar.ofInt (decision.categoryNames.length - 1 : Int)) = value := by
            simp [Scalar.clip, Scalar.peak, Scalar.trough, isNaN]
          rw [isKept] at isFinite
          exact isNaN.symm.trans (Scalar.isNaN_of_isFinite isFinite)
    obtain ⟨isAbove, isBelow⟩ :=
      Scalar.clip_between isNumber (zero_le_lastPosition faultless isCategorical)
    exact (Scalar.isWhole_nearest_between Scalar.isWhole_zero (isWhole_ofInt _) isAbove
      isBelow).2

end Variable

namespace Candidates

variable {candidates : Candidates α} {vector : List α}

/-- Each component of a vector is one that its variable has. -/
def AreCodes (candidates : Candidates α) (vector : List α) : Prop :=
  List.Forall₂ Variable.IsCode candidates.problem.decisions vector

/-- Every variable has a value, and a vector is what the values are encoded as. -/
def Encodes (candidates : Candidates α) (values : Table (Datum α)) (vector : List α) : Prop :=
  List.Forall₂
    (fun decision value =>
      ∃ datum,
        values.get? decision.name = some datum ∧
          ∃ code, decision.encode datum = .ok code ∧ (code = value ∨ (code == value) = true))
    candidates.problem.decisions vector

/-- What is decoded of a vector is encoded as the vector. -/
theorem encodes_of_decode_eq_ok
    [FractionalScalar α]
    (distinct : candidates.names.Nodup)
    (faultless : ∀ decision ∈ candidates.problem.decisions, decision.fault? = none)
    (areCodes : candidates.AreCodes vector)
    {values : Table (Datum α)}
    (areValues : candidates.decode vector = .ok values) :
    candidates.Encodes values vector := by
  obtain ⟨sameLength, areCodes⟩ := List.forall₂_iff_zip.mp areCodes
  refine List.forall₂_iff_zip.mpr ⟨sameLength, fun {decision value} member => ?_⟩
  obtain ⟨datum, isDatum, isThere⟩ := get?_of_decode_eq_ok distinct sameLength areValues member
  exact ⟨datum, isThere, (areCodes member).exists_encode_eq_ok
    (faultless decision (List.of_mem_zip member).1) isDatum⟩

/-- Repairing makes of any vector one whose components the variables have. -/
theorem areCodes_repair
    [CountingScalar α]
    {defaultBounds : α × α}
    (faultless : ∀ decision ∈ candidates.problem.decisions, decision.fault? = none)
    (areTightened :
      ∀ decision ∈ candidates.problem.decisions,
        decision.IsTightened defaultBounds (candidates.intervalOf decision))
    (sameLength : vector.length = candidates.size) :
    candidates.AreCodes (candidates.repair vector) :=
  forall₂_repair sameLength fun decision inProblem value _ =>
    Variable.isCode_repairOne (faultless decision inProblem) (areTightened decision inProblem) value

end Candidates

end Encoding

/-!
## Verdicts

A status claims that there is an assignment, or that there is none.  A search over vectors
makes the claim good where the vector that it tells violates nothing, and has components that
its variables have.
-/

/-- A status claims that what is told violates nothing. -/
def SolutionStatus.IsPositive : SolutionStatus → Prop
  | .optimal | .feasible | .timeLimit | .iterationLimit => True
  | .infeasible | .unbounded | .cancelled => False

variable {α : Type} [Scalar α]

namespace Problem

/-- An outcome has no violations and a value for every variable.  The vector that the values are
decoded from violates no constraint, and where names are distinct it is what they are encoded
as. -/
def IsSolvedBy (problem : Problem α) (defaultBounds : α × α) (tolerance : α)
    (outcome : Solution α) : Prop :=
  outcome.violations = [] ∧
    ∃ candidates vector,
      Candidates.ofProblem problem defaultBounds tolerance = .ok candidates ∧
        candidates.decode vector = .ok outcome.variableValues ∧
        (∀ decision ∈ problem.decisions, ∃ datum,
          outcome.variableValues.get? decision.name = some datum) ∧
        (problem.variableNames.Nodup → candidates.Encodes outcome.variableValues vector) ∧
        Constraints.AllHold tolerance (candidates.assignment vector) problem.constraints

variable {problem : Problem α} {defaultBounds : α × α} {tolerance : α}
  {candidates : Candidates α} {vector : List α} {outcome : Solution α}

/-- An outcome that is told of a vector which violates nothing solves the problem. -/
theorem isSolvedBy_of_vector
    [FractionalScalar α]
    [MeasuringScalar α]
    (faultless : ∀ decision ∈ problem.decisions, decision.fault? = none)
    (prepared : Candidates.ofProblem problem defaultBounds tolerance = .ok candidates)
    (areValues : candidates.decode vector = .ok outcome.variableValues)
    (areViolations : candidates.violations vector = .ok outcome.violations)
    (isSize : vector.length = candidates.size)
    (areCodes : problem.variableNames.Nodup → candidates.AreCodes vector)
    (allHold :
      Constraints.AllHold candidates.tolerance (candidates.assignment vector)
        candidates.problem.constraints) :
    problem.IsSolvedBy defaultBounds tolerance outcome := by
  obtain rfl := Candidates.problem_eq_of_ofProblem_eq_ok prepared
  obtain rfl := Candidates.tolerance_eq_of_ofProblem_eq_ok prepared
  have noneMissed := Candidates.violations_eq_nil allHold
  exact ⟨Except.ok.inj (areViolations.symm.trans noneMissed), candidates, vector, prepared,
    areValues, Candidates.exists_datum_of_decode_eq_ok isSize.symm areValues,
    fun distinct => Candidates.encodes_of_decode_eq_ok distinct faultless (areCodes distinct)
      areValues, allHold⟩

end Problem

end Optima
