import Optima.Proofs.Problem.Propagation
import Optima.Proofs.Scalar.Rounding

namespace Optima

/-!
# What a variable may be given

Propagation only ever narrows the interval that a variable is declared to have, and leaves
it between whole numbers where the variable is discrete.  So every number that is left of
it stands for a value that was declared, and this value is encoded as the number again.
-/

variable {α : Type} [Scalar α]

namespace Variable

/-- The interval that the values of a variable are declared to lie in. -/
def declaredBounds (decision : Variable α) (defaultBounds : α × α) : α × α :=
  match decision.kind with
  | .binary => (decision.lower.getD 0, decision.upper.getD 1)
  | .categorical => (0, Scalar.ofInt (decision.categoryNames.length - 1 : Int))
  | .integer | .continuous => decision.openBounds defaultBounds

/-- What may be given back for a variable: a category that is listed, or a number between its
bounds, which is whole if numbers in between are not meant. -/
def Admits (decision : Variable α) (defaultBounds : α × α) : Datum α → Prop
  | .text category => decision.kind = .categorical ∧ category ∈ decision.categoryNames
  | .number value =>
    decision.kind ≠ .categorical ∧
      (decision.isDiscrete = true → Scalar.IsWhole value) ∧
      (decision.kind = .binary → (value == 0) = true ∨ (value == 1) = true) ∧
      (decision.declaredBounds defaultBounds).1 ≤ value ∧
      value ≤ (decision.declaredBounds defaultBounds).2

/-- A number of an interval that a variable can be given in a search. -/
structure IsGene (decision : Variable α) (interval : α × α) (value : α) : Prop where
  lower_le : interval.1 ≤ value
  le_upper : value ≤ interval.2
  isWhole : decision.isDiscrete = true → Scalar.IsWhole value

/-- An interval of a variable after some bounds.  Its ends are compared with those that were
declared only where they are numbers. -/
structure IsTightened (decision : Variable α) (defaultBounds interval : α × α) : Prop where
  isWhole :
    decision.isDiscrete = true → decision.kind ≠ .categorical →
      Scalar.IsWhole interval.1 ∧ Scalar.IsWhole interval.2
  isListed : decision.kind = .categorical → interval = decision.declaredBounds defaultBounds
  lower_le :
    Scalar.isNaN interval.1 = false → (decision.declaredBounds defaultBounds).1 ≤ interval.1
  le_upper :
    Scalar.isNaN interval.2 = false → interval.2 ≤ (decision.declaredBounds defaultBounds).2

end Variable

section Narrowing

variable [NumericScalar α] {first second : α}

theorem Scalar.le_larger
    (isNumber : isNaN first = false) :
    first ≤ larger first second := by
  unfold larger
  split
  · rename_i isBelow
    exact ComparableScalar.le_of_lt isBelow
  · exact NumericScalar.le_self isNumber

theorem Scalar.smaller_le
    (isNumber : isNaN first = false) :
    smaller first second ≤ first := by
  unfold smaller
  split
  · rename_i isBelow
    exact ComparableScalar.le_of_lt isBelow
  · exact NumericScalar.le_self isNumber

theorem Scalar.isNaN_of_isNaN_larger
    (isNumber : isNaN (larger first second) = false) :
    isNaN first = false := by
  unfold larger at isNumber
  split at isNumber
  · rename_i isBelow
    exact NumericScalar.isNaN_left (ComparableScalar.le_of_lt isBelow)
  · exact isNumber

theorem Scalar.isNaN_of_isNaN_smaller
    (isNumber : isNaN (smaller first second) = false) :
    isNaN first = false := by
  unfold smaller at isNumber
  split at isNumber
  · rename_i isBelow
    exact NumericScalar.isNaN_right (ComparableScalar.le_of_lt isBelow)
  · exact isNumber

namespace Propagation

variable (comparison : Comparison) (threshold margin : α) {interval : α × α}

theorem le_meet
    (isNumber : Scalar.isNaN interval.1 = false) :
    interval.1 ≤ (meet comparison threshold margin interval).1 := by
  cases comparison with
  | equal | atLeast | above => exact Scalar.le_larger isNumber
  | atMost | below => exact NumericScalar.le_self isNumber

theorem meet_le
    (isNumber : Scalar.isNaN interval.2 = false) :
    (meet comparison threshold margin interval).2 ≤ interval.2 := by
  cases comparison with
  | equal | atMost | below => exact Scalar.smaller_le isNumber
  | atLeast | above => exact NumericScalar.le_self isNumber

theorem isNaN_of_isNaN_meet_lower
    (isNumber : Scalar.isNaN (meet comparison threshold margin interval).1 = false) :
    Scalar.isNaN interval.1 = false := by
  cases comparison with
  | equal | atLeast | above => exact Scalar.isNaN_of_isNaN_larger isNumber
  | atMost | below => exact isNumber

theorem isNaN_of_isNaN_meet_upper
    (isNumber : Scalar.isNaN (meet comparison threshold margin interval).2 = false) :
    Scalar.isNaN interval.2 = false := by
  cases comparison with
  | equal | atMost | below => exact Scalar.isNaN_of_isNaN_smaller isNumber
  | atLeast | above => exact isNumber

end Propagation

end Narrowing

namespace Variable

variable {decision : Variable α} {defaultBounds interval : α × α}

theorem of_wholePart_eq_ok
    {round : α → α}
    {value whole : α}
    (outcome : wholePart round value = .ok whole) :
    Scalar.isFinite value = true ∧ whole = round value := by
  unfold wholePart at outcome
  split at outcome
  · cases outcome
  · split at outcome
    · cases outcome
    · rename_i isFinite
      cases outcome
      exact ⟨by simpa using isFinite, rfl⟩

variable [FractionalScalar α]

theorem isWhole_of_isBinaryBound
    {bound : α}
    (isBinary : isBinaryBound bound = true) :
    Scalar.IsWhole bound ∧ 0 ≤ bound ∧ bound ≤ 1 := by
  have inOrder : (0 : α) ≤ 1 :=
    (Scalar.le_iff_of_toRat? FractionalScalar.toRat?_zero FractionalScalar.toRat?_one).mpr
      zero_le_one
  rw [isBinaryBound, Bool.or_eq_true] at isBinary
  rcases isBinary with isZero | isOne
  · obtain ⟨atMost, atLeast⟩ := (NumericScalar.beq_iff_le bound 0).mp isZero
    exact ⟨Scalar.isWhole_zero.of_beq (Scalar.beq_comm_of_beq isZero), atLeast,
      ComparableScalar.le_trans _ _ _ atMost inOrder⟩
  · obtain ⟨atMost, atLeast⟩ := (NumericScalar.beq_iff_le bound 1).mp isOne
    exact ⟨Scalar.isWhole_one.of_beq (Scalar.beq_comm_of_beq isOne),
      ComparableScalar.le_trans _ _ _ inOrder atLeast, atMost⟩

/-- The declared bounds of a binary variable are whole numbers from zero to one. -/
theorem isWhole_declaredBounds
    (defaultBounds : α × α)
    (faultless : decision.fault? = none)
    (isBinary : decision.kind = .binary) :
    (Scalar.IsWhole (decision.declaredBounds defaultBounds).1 ∧
        0 ≤ (decision.declaredBounds defaultBounds).1) ∧
      Scalar.IsWhole (decision.declaredBounds defaultBounds).2 ∧
        (decision.declaredBounds defaultBounds).2 ≤ 1 := by
  have ofBound (bound : α) (isBound : bound ∈ decision.lower.toList ++ decision.upper.toList) :=
    isWhole_of_isBinaryBound (isBinaryBound_of_fault?_eq_none isBinary faultless isBound)
  rw [declaredBounds, isBinary]
  constructor
  · cases isLower : decision.lower with
    | none =>
        exact ⟨Scalar.isWhole_zero,
          NumericScalar.le_self (Scalar.isNaN_of_isFinite Scalar.isWhole_zero.isFinite)⟩
    | some lower =>
        obtain ⟨isWhole, isAbove, -⟩ := ofBound lower (by simp [isLower])
        exact ⟨isWhole, isAbove⟩
  · cases isUpper : decision.upper with
    | none =>
        exact ⟨Scalar.isWhole_one,
          NumericScalar.le_self (Scalar.isNaN_of_isFinite Scalar.isWhole_one.isFinite)⟩
    | some upper =>
        obtain ⟨isWhole, -, isBelow⟩ := ofBound upper (by simp [isUpper])
        exact ⟨isWhole, isBelow⟩

theorem isTightened_of_eq
    (isDeclared : decision.declaredBounds defaultBounds = interval)
    (isWhole :
      decision.isDiscrete = true → decision.kind ≠ .categorical →
        Scalar.IsWhole interval.1 ∧ Scalar.IsWhole interval.2) :
    decision.IsTightened defaultBounds interval := by
  subst isDeclared
  exact ⟨isWhole, fun _ => rfl, NumericScalar.le_self, NumericScalar.le_self⟩

/-- The interval that a variable starts with is the one that is declared, without what lies
before the first and behind the last whole number. -/
theorem isTightened_bounds
    (faultless : decision.fault? = none)
    (outcome : decision.bounds defaultBounds = .ok interval) :
    decision.IsTightened defaultBounds interval := by
  unfold bounds at outcome
  cases isKind : decision.kind with
  | continuous =>
      rw [isKind] at outcome
      refine isTightened_of_eq ?_ (by simp [isDiscrete, isKind])
      rw [declaredBounds, isKind]
      exact Except.ok.inj outcome
  | integer =>
      rw [isKind] at outcome
      obtain ⟨first, isFirst, outcome⟩ := bind_eq_ok outcome
      obtain ⟨last, isLast, outcome⟩ := bind_eq_ok outcome
      cases outcome
      obtain ⟨isFinite, rfl⟩ := of_wholePart_eq_ok isFirst
      obtain ⟨isFiniteToo, rfl⟩ := of_wholePart_eq_ok isLast
      obtain ⟨isWhole, isAbove⟩ := Scalar.isWhole_ceiling isFinite
      obtain ⟨isWholeToo, isBelow⟩ := Scalar.isWhole_floor isFiniteToo
      have isDeclared :
          decision.declaredBounds defaultBounds = decision.openBounds defaultBounds := by
        rw [declaredBounds, isKind]
      refine ⟨fun _ _ => ⟨isWhole, isWholeToo⟩, ?_, ?_, ?_⟩
      · simp [isKind]
      · rw [isDeclared]
        exact fun _ => isAbove
      · rw [isDeclared]
        exact fun _ => isBelow
  | binary =>
      have isDeclared : decision.declaredBounds defaultBounds = interval := by
        rw [isKind] at outcome
        rw [declaredBounds, isKind]
        exact Except.ok.inj outcome
      obtain ⟨⟨isWhole, -⟩, isWholeToo, -⟩ :=
        isWhole_declaredBounds defaultBounds faultless isKind
      rw [isDeclared] at isWhole isWholeToo
      exact isTightened_of_eq isDeclared fun _ _ => ⟨isWhole, isWholeToo⟩
  | categorical =>
      rw [isKind] at outcome
      refine isTightened_of_eq ?_ fun _ notCategorical => absurd isKind notCategorical
      rw [declaredBounds, isKind]
      exact Except.ok.inj outcome

/-- A bound leaves a narrower interval of a variable. -/
theorem isTightened_tightened
    {constraint : Constraint α}
    {term : SingleTerm α}
    {tolerance : α}
    {met : α × α}
    (notCategorical : decision.kind ≠ .categorical)
    (outcome : Propagation.tightened constraint term decision.kind tolerance interval = .ok met)
    (isTightened : decision.IsTightened defaultBounds interval) :
    decision.IsTightened defaultBounds met := by
  unfold Propagation.tightened at outcome
  dsimp only at outcome
  split at outcome
  · rename_i isContinuous
    cases outcome
    refine ⟨?_, fun isCategorical => absurd isCategorical notCategorical, ?_, ?_⟩
    · simp [isDiscrete, isContinuous]
    · intro isNumber
      have isNumber := Propagation.isNaN_of_isNaN_meet_lower _ _ _ isNumber
      exact ComparableScalar.le_trans _ _ _ (isTightened.lower_le isNumber)
        (Propagation.le_meet _ _ _ isNumber)
    · intro isNumber
      have isNumber := Propagation.isNaN_of_isNaN_meet_upper _ _ _ isNumber
      exact ComparableScalar.le_trans _ _ _ (Propagation.meet_le _ _ _ isNumber)
        (isTightened.le_upper isNumber)
  · rename_i notContinuous
    obtain ⟨isWhole, isWholeToo⟩ :=
      isTightened.isWhole (isDiscrete_iff.mpr notContinuous) notCategorical
    have isNumber := Scalar.isNaN_of_isFinite isWhole.isFinite
    have isNumberToo := Scalar.isNaN_of_isFinite isWholeToo.isFinite
    obtain ⟨first, isFirst, outcome⟩ := bind_eq_ok outcome
    obtain ⟨last, isLast, outcome⟩ := bind_eq_ok outcome
    cases outcome
    obtain ⟨isFinite, rfl⟩ := of_wholePart_eq_ok isFirst
    obtain ⟨isFiniteToo, rfl⟩ := of_wholePart_eq_ok isLast
    refine ⟨fun _ _ => ⟨(Scalar.isWhole_ceiling isFinite).1, (Scalar.isWhole_floor isFiniteToo).1⟩,
      fun isCategorical => absurd isCategorical notCategorical, fun _ => ?_, fun _ => ?_⟩
    · exact ComparableScalar.le_trans _ _ _ (isTightened.lower_le isNumber)
        (Scalar.le_ceiling_sub_slack isWhole (Propagation.le_meet _ _ _ isNumber) isFinite)
    · exact ComparableScalar.le_trans _ _ _
        (Scalar.floor_add_slack_le isWholeToo (Propagation.meet_le _ _ _ isNumberToo) isFiniteToo)
        (isTightened.le_upper isNumberToo)

/-- An interval of a discrete variable that has finite ends lies between whole numbers. -/
theorem IsTightened.isWhole_of_hasFiniteEnds
    (isTightened : decision.IsTightened defaultBounds interval)
    (isDiscrete : decision.isDiscrete = true)
    (hasFiniteEnds : HasFiniteEnds interval) :
    Scalar.IsWhole interval.1 ∧ Scalar.IsWhole interval.2 := by
  by_cases isCategorical : decision.kind = .categorical
  · have isListed := isTightened.isListed isCategorical
    rw [declaredBounds, isCategorical] at isListed
    subst isListed
    exact ⟨Scalar.isWhole_zero, FractionalScalar.exists_toRat?_ofInt _ hasFiniteEnds.2⟩
  · exact isTightened.isWhole isDiscrete isCategorical

/-- An interval of a real variable that is declared between finite ends has finite ends as well, if
there is a finite number in it. -/
theorem IsTightened.hasFiniteEnds
    {number : α}
    (isTightened : decision.IsTightened defaultBounds interval)
    (isContinuous : decision.kind = .continuous)
    (finiteEnds : HasFiniteEnds (decision.openBounds defaultBounds))
    (isFinite : Scalar.isFinite number = true)
    (isAbove : interval.1 ≤ number)
    (isBelow : number ≤ interval.2) :
    HasFiniteEnds interval := by
  have isDeclared : decision.declaredBounds defaultBounds = decision.openBounds defaultBounds := by
    rw [declaredBounds, isContinuous]
  rw [← isDeclared] at finiteEnds
  constructor
  · exact FractionalScalar.isFinite_between _ _ _
      (isTightened.lower_le (NumericScalar.isNaN_left isAbove)) isAbove finiteEnds.1 isFinite
  · exact FractionalScalar.isFinite_between _ _ _ isBelow
      (isTightened.le_upper (NumericScalar.isNaN_right isBelow)) isFinite finiteEnds.2

/-- Rounding a whole number to give it back leaves it as it is. -/
theorem wholePart_nearest_of_isWhole
    {value : α}
    (isWhole : Scalar.IsWhole value) :
    wholePart Scalar.nearest value = .ok (Scalar.nearest value) := by
  simp [wholePart, isWhole.isFinite, Scalar.isNaN_of_isFinite isWhole.isFinite]

theorem nearest_add_zero_beq_of_isWhole
    {value : α}
    (isWhole : Scalar.IsWhole value) :
    (Scalar.nearest value + 0 == value) = true := by
  have isNearest := Scalar.nearest_beq_of_isWhole isWhole
  have isWholeToo := isWhole.of_beq (Scalar.beq_comm_of_beq isNearest)
  exact Scalar.beq_trans_of_beq
    (FractionalScalar.add_zero_beq _ (Scalar.isNaN_of_isFinite isWholeToo.isFinite)) isNearest

/-- A whole number from zero to one is zero or one. -/
theorem beq_zero_or_one_of_isWhole
    {value : α}
    (isWhole : Scalar.IsWhole value)
    (isAbove : 0 ≤ value)
    (isBelow : value ≤ 1) :
    (value == 0) = true ∨ (value == 1) = true := by
  obtain ⟨whole, isWhole⟩ := isWhole
  have isZero := FractionalScalar.toRat?_zero (α := α)
  have isOne := FractionalScalar.toRat?_one (α := α)
  rw [Scalar.le_iff_of_toRat? isZero isWhole] at isAbove
  rw [Scalar.le_iff_of_toRat? isWhole isOne] at isBelow
  have isAbove : 0 ≤ whole := by exact_mod_cast isAbove
  have isBelow : whole ≤ 1 := by exact_mod_cast isBelow
  obtain rfl | rfl : whole = 0 ∨ whole = 1 := by omega
  · exact .inl (Scalar.beq_of_toRat?_eq isWhole isZero)
  · exact .inr (Scalar.beq_of_toRat?_eq isWhole isOne)

omit [FractionalScalar α] in
/-- The categories of a categorical variable without a fault are distinct, and there is one. -/
theorem nodup_categoryNames
    (faultless : decision.fault? = none)
    (isCategorical : decision.kind = .categorical) :
    decision.categoryNames ≠ [] ∧ decision.categoryNames.Nodup := by
  simp only [fault?, isCategorical, ↓reduceIte, categoricalFault?] at faultless
  split at faultless
  · cases faultless
  · rename_i notEmpty
    split at faultless
    · cases faultless
    · rename_i sameLength
      exact ⟨by simpa using notEmpty, nodup_of_length_eraseDups_eq (by simpa using sameLength)⟩

omit [FractionalScalar α] in
theorem encode_getD_categoryNames
    (isCategorical : decision.kind = .categorical)
    (distinct : decision.categoryNames.Nodup)
    {position : Nat}
    (inRange : position < decision.categoryNames.length) :
    decision.encode (.text (decision.categoryNames.getD position "")) =
      .ok (Scalar.ofInt position) := by
  have isFound :
      decision.categoryNames.findIdx? (· == decision.categoryNames[position]) = some position := by
    rw [List.findIdx?_eq_some_iff_getElem]
    refine ⟨inRange, beq_self_eq_true _, fun earlier isEarlier isSame => ?_⟩
    have isSame := (distinct.getElem_inj_iff).mp (eq_of_beq isSame)
    exact isEarlier.ne isSame
  simp [encode, isCategorical, List.getD_eq_getElem?_getD, inRange, isFound]

/-- The number of a value is not NaN, unless the value is. -/
theorem isNaN_of_encode_eq_ok
    {datum : Datum α}
    {code : α}
    (isEncoded : decision.encode datum = .ok code)
    (isNumber : ∀ value, datum = .number value → Scalar.isNaN value = false) :
    Scalar.isNaN code = false := by
  cases datum with
  | number value =>
      cases isEncoded
      exact isNumber code rfl
  | text category =>
      unfold encode at isEncoded
      dsimp only at isEncoded
      split at isEncoded
      · split at isEncoded
        · cases isEncoded
          exact NumericScalar.isNaN_left (FractionalScalar.ofInt_mono _ _ le_rfl)
        · cases isEncoded
      · cases isEncoded

section Giving

variable {value : α}
  (faultless : decision.fault? = none)
  (isTightened : decision.IsTightened defaultBounds interval)
  (isGene : decision.IsGene interval value)

include isTightened isGene

theorem declaredBounds_between :
    (decision.declaredBounds defaultBounds).1 ≤ value ∧
      value ≤ (decision.declaredBounds defaultBounds).2 := by
  constructor
  · exact ComparableScalar.le_trans _ _ _
      (isTightened.lower_le (NumericScalar.isNaN_left isGene.lower_le)) isGene.lower_le
  · exact ComparableScalar.le_trans _ _ _ isGene.le_upper
      (isTightened.le_upper (NumericScalar.isNaN_right isGene.le_upper))

include faultless

/-- A number that equals one that a numeric variable can be given is admitted as its value. -/
theorem admits_number
    (isNumeric : decision.kind ≠ .categorical)
    {number : α}
    (isSame : (number == value) = true) :
    decision.Admits defaultBounds (.number number) := by
  obtain ⟨atMost, atLeast⟩ := (NumericScalar.beq_iff_le number value).mp isSame
  obtain ⟨isAbove, isBelow⟩ := declaredBounds_between isTightened isGene
  have isAbove := ComparableScalar.le_trans _ _ _ isAbove atLeast
  have isBelow := ComparableScalar.le_trans _ _ _ atMost isBelow
  have isWhole (isDiscrete : decision.isDiscrete = true) : Scalar.IsWhole number :=
    (isGene.isWhole isDiscrete).of_beq (Scalar.beq_comm_of_beq isSame)
  refine ⟨isNumeric, isWhole, fun isBinary => ?_, isAbove, isBelow⟩
  obtain ⟨⟨-, notNegative⟩, -, atMostOne⟩ :=
    isWhole_declaredBounds defaultBounds faultless isBinary
  exact beq_zero_or_one_of_isWhole (isWhole (by simp [isDiscrete, isBinary]))
    (ComparableScalar.le_trans _ _ _ notNegative isAbove)
    (ComparableScalar.le_trans _ _ _ isBelow atMostOne)

/-- A number that a categorical variable can be given is that of the position that it is decoded
with. -/
theorem exists_categoryPosition_eq_ok
    (isCategorical : decision.kind = .categorical) :
    ∃ position,
      decision.categoryPosition value = .ok position ∧
        position < decision.categoryNames.length ∧
        (Scalar.ofInt position == value) = true := by
  have isWhole := isGene.isWhole (by simp [isDiscrete, isCategorical])
  obtain ⟨isAbove, isBelow⟩ := declaredBounds_between isTightened isGene
  simp only [declaredBounds, isCategorical] at isAbove isBelow
  obtain ⟨whole, isInteger⟩ := id isWhole
  have isNearest := Scalar.toRat?_eq_of_beq
    (Scalar.beq_comm_of_beq (Scalar.nearest_beq_of_isWhole isWhole)) isInteger
  have notNegative : 0 ≤ whole := by
    rw [Scalar.le_iff_of_toRat? FractionalScalar.toRat?_zero isInteger] at isAbove
    exact_mod_cast isAbove
  have someCategory : 0 < decision.categoryNames.length :=
    List.length_pos_iff.mpr (nodup_categoryNames faultless isCategorical).1
  have isPosition :
      decision.categoryPosition value =
        .ok (min whole (decision.categoryNames.length - 1 : Int)).toNat := by
    simp [categoryPosition, wholePart_nearest_of_isWhole isWhole, isNearest, bind, Except.bind,
      pure, Except.pure, notNegative]
  refine ⟨_, isPosition, by omega, ?_⟩
  -- Beyond the last category lies only what its number is rounded to.
  by_cases isListed : whole ≤ decision.categoryNames.length - 1
  · rw [min_eq_left isListed, Int.toNat_of_nonneg notNegative]
    exact FractionalScalar.ofInt_beq value whole isInteger
  · have isBehind := Int.le_of_lt (Int.not_le.mp isListed)
    rw [min_eq_right isBehind, Int.toNat_of_nonneg (by omega), NumericScalar.beq_iff_le]
    refine ⟨ComparableScalar.le_trans _ _ _ (FractionalScalar.ofInt_mono _ _ isBehind) ?_, isBelow⟩
    exact ((NumericScalar.beq_iff_le _ _).mp
      (FractionalScalar.ofInt_beq value whole isInteger)).1

/-- A number that is left of an interval stands for a value that is admitted, and which is encoded
as this number. -/
theorem exists_decode_eq_ok_of_isGene :
    ∃ datum,
      decision.decode value = .ok datum ∧
        decision.Admits defaultBounds datum ∧
        ∃ code, decision.encode datum = .ok code ∧ (code == value) = true := by
  cases isKind : decision.kind with
  | continuous =>
      have isSame : (value == value) = true :=
        (NumericScalar.beq_iff_le value value).mpr
          ⟨NumericScalar.le_self (NumericScalar.isNaN_right isGene.lower_le),
            NumericScalar.le_self (NumericScalar.isNaN_right isGene.lower_le)⟩
      refine ⟨.number value, by simp [decode, isKind], ?_, value, rfl, isSame⟩
      exact admits_number faultless isTightened isGene (by simp [isKind]) isSame
  | integer | binary =>
      have isWhole := isGene.isWhole (by simp [isDiscrete, isKind])
      have isSame := nearest_add_zero_beq_of_isWhole isWhole
      refine ⟨.number (Scalar.nearest value + 0), ?_, ?_, _, rfl, isSame⟩
      · simp [decode, isKind, wholePart_nearest_of_isWhole isWhole, bind, Except.bind, pure,
          Except.pure]
      · exact admits_number faultless isTightened isGene (by simp [isKind]) isSame
  | categorical =>
      obtain ⟨position, isPosition, inRange, isSame⟩ :=
        exists_categoryPosition_eq_ok faultless isTightened isGene isKind
      have distinct := (nodup_categoryNames faultless isKind).2
      refine ⟨.text (decision.categoryNames.getD position ""), ?_, ⟨isKind, ?_⟩, _,
        encode_getD_categoryNames isKind distinct inRange, isSame⟩
      · simp [decode, isKind, isPosition, bind, Except.bind, pure, Except.pure]
      · exact getD_mem_of_lt inRange ""

end Giving

end Variable

end Optima
