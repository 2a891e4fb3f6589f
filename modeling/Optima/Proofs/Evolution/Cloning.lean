import Mathlib
import Optima.Proofs.Evolution.Breeding
import Optima.Proofs.Evolution.Containment

namespace Optima

/-!
# Children that clone

A mutation marks at least one component of a vector, flips it or moves it by noise, and
repairs what it has made.  Repairing may lead the component back to where it was: from
beyond an end of its interval that it stood on, or by rounding.  A child is a clone where
this happens to every component that is marked, and only there.
-/

/-- Numbers of which zero and one are taken from one exactly, and NaN is rounded to NaN. -/
class MutableScalar (α : Type) [Scalar α] : Prop extends FractionalScalar α where
  toRat?_one_sub (value : α) (bit : Rat) :
    Scalar.toRat? value = some bit → bit = 0 ∨ bit = 1 →
      Scalar.toRat? (1 - value) = some (1 - bit)
  isNaN_nearest (value : α) :
    Scalar.isNaN value = true → Scalar.isNaN (Scalar.nearest value) = true

section Clipping

variable {α : Type} [Scalar α] [NumericScalar α] {lower upper value : α}

namespace Scalar

omit [NumericScalar α] in
theorem clip_of_isNaN
    (isNotNumber : isNaN value = true) :
    clip value lower upper = value := by
  simp [clip, peak, trough, isNotNumber]

variable (inOrder : lower ≤ upper)

include inOrder

/-- What is above an interval is moved down to its upper end. -/
theorem clip_of_above
    (isAbove : upper < value) :
    clip value lower upper = upper := by
  have atMost := ComparableScalar.le_of_lt isAbove
  have notBelow : ¬ value < lower := fun isBelow =>
    ComparableScalar.not_le_of_lt isBelow (ComparableScalar.le_trans _ _ _ inOrder atMost)
  simp [clip, peak, trough, larger, smaller, NumericScalar.isNaN_left inOrder,
    NumericScalar.isNaN_left atMost, NumericScalar.isNaN_right atMost, notBelow, isAbove]

/-- What is below an interval is moved up to its lower end. -/
theorem clip_of_below
    (isBelow : value < lower) :
    clip value lower upper = lower := by
  have atMost := ComparableScalar.le_of_lt isBelow
  have notAbove : ¬ upper < lower := fun isAbove =>
    ComparableScalar.not_le_of_lt isAbove inOrder
  simp [clip, peak, trough, larger, smaller, NumericScalar.isNaN_left inOrder,
    NumericScalar.isNaN_right inOrder, NumericScalar.isNaN_left atMost, isBelow, notAbove]

omit inOrder in
/-- What is in an interval stays where it is. -/
theorem clip_of_between
    (isAbove : lower ≤ value)
    (isBelow : value ≤ upper) :
    clip value lower upper = value := by
  have notBelow : ¬ value < lower := fun isOut => ComparableScalar.not_le_of_lt isOut isAbove
  have notAbove : ¬ upper < value := fun isOut => ComparableScalar.not_le_of_lt isOut isBelow
  simp [clip, peak, trough, larger, smaller, NumericScalar.isNaN_left isAbove,
    NumericScalar.isNaN_left isBelow, NumericScalar.isNaN_right isBelow, notBelow, notAbove]

/-- A number is above an interval, below it or in it. -/
theorem above_or_below_or_between
    (isNumber : isNaN value = false) :
    upper < value ∨ value < lower ∨ lower ≤ value ∧ value ≤ upper := by
  by_cases isAbove : upper < value
  · exact .inl isAbove
  · by_cases isBelow : value < lower
    · exact .inr (.inl isBelow)
    · exact .inr (.inr
        ⟨NumericScalar.le_of_not_lt _ _ (NumericScalar.isNaN_left inOrder) isNumber isBelow,
          NumericScalar.le_of_not_lt _ _ isNumber (NumericScalar.isNaN_right inOrder) isAbove⟩)

end Scalar

end Clipping

namespace Evolution

open Candidates (repairOne repairAll)

variable {α : Type} [Scalar α]

/-- What a mutation has made of the value of a variable is repaired to this value again. -/
inductive IsLedBack (decision : Variable α) (interval : α × α) (value moved : α) : Prop where
  /-- It has left the interval over the upper end, where the value is. -/
  | above (isOut : interval.2 < moved) (isEnd : (interval.2 == value) = true)
  /-- It has left the interval over the lower end, where the value is. -/
  | below (isOut : moved < interval.1) (isEnd : (interval.1 == value) = true)
  /-- It has stayed in the interval, and has not moved or is rounded to the value. -/
  | between (isAbove : interval.1 ≤ moved) (isBelow : moved ≤ interval.2)
      (isSame :
        ((if decision.isDiscrete then Scalar.nearest moved else moved) == value) = true)

section Repairing

variable {decision : Variable α} {interval defaultBounds : α × α} {value moved : α}

/-- A component is repaired to a value if it is led back to it. -/
theorem repairOne_beq_iff
    [MutableScalar α]
    (inOrder : interval.1 ≤ interval.2)
    (areWhole :
      decision.isDiscrete = true → Scalar.IsWhole interval.1 ∧ Scalar.IsWhole interval.2) :
    (repairOne interval decision.isDiscrete moved == value) = true ↔
      IsLedBack decision interval value moved := by
  -- Rounding keeps the ends of the interval as they are.
  have ofEnd {bound : α} (isWhole : decision.isDiscrete = true → Scalar.IsWhole bound) :
      ((if decision.isDiscrete then Scalar.nearest bound else bound) == value) = true ↔
        (bound == value) = true := by
    split
    · rename_i isDiscrete
      have isNearest := Scalar.nearest_beq_of_isWhole (isWhole isDiscrete)
      exact ⟨Scalar.beq_trans_of_beq (Scalar.beq_comm_of_beq isNearest),
        Scalar.beq_trans_of_beq isNearest⟩
    · rfl
  have ofUpper := ofEnd fun isDiscrete => (areWhole isDiscrete).2
  have ofLower := ofEnd fun isDiscrete => (areWhole isDiscrete).1
  unfold repairOne
  constructor
  · intro isSame
    cases isNumber : Scalar.isNaN moved with
    | true =>
        rw [Scalar.clip_of_isNaN isNumber] at isSame
        have isNumberToo := NumericScalar.isNaN_left ((NumericScalar.beq_iff_le _ _).mp isSame).1
        split at isNumberToo
        · rw [MutableScalar.isNaN_nearest _ isNumber] at isNumberToo
          cases isNumberToo
        · rw [isNumber] at isNumberToo
          cases isNumberToo
    | false =>
        rcases Scalar.above_or_below_or_between inOrder isNumber with
          isOut | isOut | ⟨isAbove, isBelow⟩
        · rw [Scalar.clip_of_above inOrder isOut] at isSame
          exact .above isOut (ofUpper.mp isSame)
        · rw [Scalar.clip_of_below inOrder isOut] at isSame
          exact .below isOut (ofLower.mp isSame)
        · rw [Scalar.clip_of_between isAbove isBelow] at isSame
          exact .between isAbove isBelow isSame
  · rintro (⟨isOut, isEnd⟩ | ⟨isOut, isEnd⟩ | ⟨isAbove, isBelow, isSame⟩)
    · rw [Scalar.clip_of_above inOrder isOut]
      exact ofUpper.mpr isEnd
    · rw [Scalar.clip_of_below inOrder isOut]
      exact ofLower.mpr isEnd
    · rw [Scalar.clip_of_between isAbove isBelow]
      exact isSame

/-- A number that a variable can be given is repaired to itself. -/
theorem repairOne_beq_self
    [FractionalScalar α]
    (isGene : decision.IsGene interval value) :
    (repairOne interval decision.isDiscrete value == value) = true := by
  unfold repairOne
  rw [Scalar.clip_of_between isGene.lower_le isGene.le_upper]
  split
  · rename_i isDiscrete
    exact Scalar.nearest_beq_of_isWhole (isGene.isWhole isDiscrete)
  · have isSelf := NumericScalar.le_self (NumericScalar.isNaN_right isGene.lower_le)
    exact (NumericScalar.beq_iff_le value value).mpr ⟨isSelf, isSelf⟩

/-- The ends of a truth value's interval are zero and one if there is a number between them. -/
theorem toRat?_ends_of_isBinary
    [FractionalScalar α]
    (faultless : decision.fault? = none)
    (isTightened : decision.IsTightened defaultBounds interval)
    (isBinary : decision.kind = .binary)
    (isWide : interval.1 < interval.2) :
    Scalar.toRat? interval.1 = some 0 ∧ Scalar.toRat? interval.2 = some 1 := by
  obtain ⟨⟨lower, isLower⟩, upper, isUpper⟩ :=
    isTightened.isWhole (Variable.isDiscrete_iff.mpr (by simp [isBinary])) (by simp [isBinary])
  obtain ⟨⟨-, isAbove⟩, -, isBelow⟩ :=
    Variable.isWhole_declaredBounds defaultBounds faultless isBinary
  have inOrder := ComparableScalar.le_of_lt isWide
  have isAbove := ComparableScalar.le_trans _ _ _ isAbove
    (isTightened.lower_le (NumericScalar.isNaN_left inOrder))
  have isBelow := ComparableScalar.le_trans _ _ _
    (isTightened.le_upper (NumericScalar.isNaN_right inOrder)) isBelow
  have notReversed := ComparableScalar.not_le_of_lt isWide
  rw [Scalar.le_iff_of_toRat? FractionalScalar.toRat?_zero isLower] at isAbove
  rw [Scalar.le_iff_of_toRat? isUpper FractionalScalar.toRat?_one] at isBelow
  rw [Scalar.le_iff_of_toRat? isUpper isLower] at notReversed
  have isAbove : 0 ≤ lower := by exact_mod_cast isAbove
  have isBelow : upper ≤ 1 := by exact_mod_cast isBelow
  have notReversed : ¬ upper ≤ lower := by exact_mod_cast notReversed
  obtain ⟨rfl, rfl⟩ : lower = 0 ∧ upper = 1 := by omega
  exact ⟨isLower, isUpper⟩

/-- A truth value that is flipped is not led back. -/
theorem not_isLedBack_one_sub
    [MutableScalar α]
    (isDiscrete : decision.isDiscrete = true)
    (isLower : Scalar.toRat? interval.1 = some 0)
    (isUpper : Scalar.toRat? interval.2 = some 1)
    (isGene : decision.IsGene interval value) :
    ¬ IsLedBack decision interval value (1 - value) := by
  obtain ⟨bit, isBit⟩ := isGene.isWhole isDiscrete
  have atLeast := (Scalar.le_iff_of_toRat? isLower isBit).mp isGene.lower_le
  have atMost := (Scalar.le_iff_of_toRat? isBit isUpper).mp isGene.le_upper
  have atLeast : 0 ≤ bit := by exact_mod_cast atLeast
  have atMost : bit ≤ 1 := by exact_mod_cast atMost
  have isFlipped : Scalar.toRat? (1 - value) = some ((1 - bit : Int) : Rat) := by
    rw [MutableScalar.toRat?_one_sub value bit isBit (by norm_cast; omega)]
    norm_cast
  rintro (⟨isOut, -⟩ | ⟨isOut, -⟩ | ⟨-, -, isSame⟩)
  · apply ComparableScalar.not_le_of_lt isOut
    rw [Scalar.le_iff_of_toRat? isFlipped isUpper]
    exact_mod_cast (by omega : 1 - bit ≤ 1)
  · apply ComparableScalar.not_le_of_lt isOut
    rw [Scalar.le_iff_of_toRat? isLower isFlipped]
    exact_mod_cast (by omega : 0 ≤ 1 - bit)
  · rw [if_pos isDiscrete] at isSame
    have isNearest := Scalar.nearest_beq_of_isWhole ⟨_, isFlipped⟩
    have isSame := Scalar.beq_trans_of_beq (Scalar.beq_comm_of_beq isNearest) isSame
    have isBitToo := Scalar.toRat?_eq_of_beq isSame isFlipped
    rw [isBit, Option.some.injEq, Int.cast_inj] at isBitToo
    omega

end Repairing

section Marking

variable {γ : Type} [RandomSource γ α]

/-- What is drawn for a mutation: which components are marked, and the noise for each. -/
def drawsOf (candidates : Candidates α) (rate : α) (source : γ) : List (Bool × α) :=
  let (mask, remaining) := mutationMask candidates.size rate source
  mask.zip (RandomSource.repeated RandomSource.normal candidates.size remaining).1

/-- The variables in order, with the intervals that are searched. -/
def slotsOf (candidates : Candidates α) : List (Variable α × (α × α)) :=
  candidates.problem.decisions.map fun decision => (decision, candidates.intervalOf decision)

/-- The value of a variable is marked to be mutated, and some noise has been drawn for it. -/
def IsMarked (slots : List (Variable α × (α × α))) (draws : List (Bool × α)) (vector : List α)
    (decision : Variable α) (interval : α × α) (noise value : α) : Prop :=
  ((decision, interval), (true, noise), value) ∈ slots.zip (draws.zip vector)

variable {candidates : Candidates α} {parameters : GeneticParameters α} {generation : Nat}
  {slots : List (Variable α × (α × α))} {draws : List (Bool × α)} {vector : List α}
  {rate : α} {source : γ}

/-- A child is what has been moved, repaired. -/
theorem mutate_eq :
    (mutate candidates parameters generation vector source).1 =
      candidates.repair
        (mutateAll parameters generation (slotsOf candidates)
          (drawsOf candidates parameters.mutationRate source) vector) := by
  have areSlots : candidates.problem.decisions.zip candidates.bounds = slotsOf candidates := by
    rw [Candidates.bounds_eq_map, slotsOf]
    simpa using List.zip_map' (f := id) (g := candidates.intervalOf)
      (l := candidates.problem.decisions)
  unfold mutate drawsOf
  dsimp only
  rw [areSlots]

theorem repair_eq_repairAll_slotsOf :
    candidates.repair vector =
      repairAll ((slotsOf candidates).map fun slot => (slot.2, slot.1.isDiscrete)) vector := by
  rw [Candidates.repair_eq, slotsOf, List.map_map]
  rfl

@[simp] theorem length_drawsOf :
    (drawsOf candidates rate source).length = candidates.size := by
  simp [drawsOf, RandomSource.length_repeated]

theorem map_fst_drawsOf :
    (drawsOf candidates rate source).map (·.1) = (mutationMask candidates.size rate source).1 := by
  unfold drawsOf
  dsimp only
  exact List.map_fst_zip (by simp [RandomSource.length_repeated])

@[simp] theorem length_slotsOf :
    (slotsOf candidates).length = candidates.size := by
  simp [slotsOf, Candidates.size]

/-- At least one component is marked. -/
theorem true_mem_mutationMask
    [LimitedSource γ α]
    {size : Nat}
    (someComponent : 0 < size)
    (rate : α)
    (source : γ) :
    true ∈ (mutationMask size rate source).1 := by
  unfold mutationMask
  dsimp only
  split
  · rename_i isMarked
    rw [Bool.or_eq_true, decide_eq_true_iff] at isMarked
    obtain ⟨marked, member, rfl⟩ := List.any_eq_true.mp (isMarked.resolve_left someComponent.ne')
    exact member
  · refine List.mem_set ?_ true
    rw [List.length_map, RandomSource.length_repeated]
    exact LimitedSource.below_lt size _ someComponent

theorem exists_isMarked
    [LimitedSource γ α]
    (someVariable : candidates.problem.decisions ≠ [])
    (sameLength : vector.length = candidates.size)
    (rate : α)
    (source : γ) :
    ∃ decision interval noise value,
      IsMarked (slotsOf candidates) (drawsOf candidates rate source) vector decision interval
        noise value := by
  have isMarked :=
    true_mem_mutationMask (List.length_pos_iff.mpr someVariable) rate source
  rw [← Candidates.size, ← map_fst_drawsOf] at isMarked
  obtain ⟨⟨_, noise⟩, inDraws, rfl⟩ := List.mem_map.mp isMarked
  obtain ⟨position, isDraw⟩ := List.mem_iff_getElem?.mp inDraws
  have inRange : position < candidates.size := by
    simpa using (List.getElem?_eq_some_iff.mp isDraw).1
  have isSlot := List.getElem?_eq_getElem (l := slotsOf candidates) (by rwa [length_slotsOf])
  have isValue := List.getElem?_eq_getElem (l := vector) (by rwa [sameLength])
  exact ⟨_, _, noise, _, List.mem_of_getElem? (List.getElem?_zip_eq_some.mpr
    ⟨isSlot, List.getElem?_zip_eq_some.mpr ⟨isDraw, isValue⟩⟩)⟩

/-- What a mutation makes of a vector consists of its components and of those that are moved. -/
theorem mem_or_exists_isMarked
    {number : α}
    (member : number ∈ mutateAll parameters generation slots draws vector) :
    number ∈ vector ∨
      ∃ decision interval noise value,
        IsMarked slots draws vector decision interval noise value ∧
          number = mutateOne parameters generation decision interval noise value := by
  unfold IsMarked
  fun_induction mutateAll with
  | case1 decision interval slots marked noise draws value others inductionHypothesis =>
      rcases List.mem_cons.mp member with isFirst | inRest
      · cases marked with
        | false => exact .inl (List.mem_cons.mpr (.inl (by simpa using isFirst)))
        | true =>
            exact .inr ⟨decision, interval, noise, value, by simp, by simpa using isFirst⟩
      · rcases inductionHypothesis inRest with inOthers | ⟨_, _, _, _, isMarked, isMoved⟩
        · exact .inl (List.mem_cons_of_mem _ inOthers)
        · exact .inr ⟨_, _, _, _, List.mem_cons_of_mem _ isMarked, isMoved⟩
  | case2 slots draws vector isOver => cases member

/-- A child is its parent if every component that is marked is repaired to what it was. -/
theorem repairAll_mutateAll_beq_iff
    (areKept :
      List.Forall₂
        (fun slot value => (repairOne slot.2 slot.1.isDiscrete value == value) = true)
        slots vector)
    (sameLength : draws.length = slots.length) :
    (repairAll (slots.map fun slot => (slot.2, slot.1.isDiscrete))
        (mutateAll parameters generation slots draws vector) == vector) = true ↔
      ∀ decision interval noise value,
        IsMarked slots draws vector decision interval noise value →
          (repairOne interval decision.isDiscrete
            (mutateOne parameters generation decision interval noise value) == value) = true := by
  unfold IsMarked
  induction areKept generalizing draws with
  | nil => simp [repairAll, mutateAll]
  | @cons slot value slots vector isKept _ inductionHypothesis =>
      obtain ⟨decision, interval⟩ := slot
      cases draws with
      | nil => simp at sameLength
      | cons draw draws =>
          obtain ⟨marked, noise⟩ := draw
          have sameLength : draws.length = slots.length := by simpa using sameLength
          simp only [mutateAll, List.map_cons, repairAll, List.zip_cons_cons, List.mem_cons,
            Prod.mk.injEq]
          rw [List.cons_beq_cons, Bool.and_eq_true, inductionHypothesis sameLength]
          constructor
          · rintro ⟨isFirst, areOthers⟩ _ _ _ _ (⟨⟨rfl, rfl⟩, ⟨rfl, rfl⟩, rfl⟩ | isMarked)
            · exact isFirst
            · exact areOthers _ _ _ _ isMarked
          · intro each
            refine ⟨?_, fun _ _ _ _ isMarked => each _ _ _ _ (.inr isMarked)⟩
            cases marked with
            | false => exact isKept
            | true => exact each _ _ _ _ (.inl ⟨⟨rfl, rfl⟩, ⟨rfl, rfl⟩, rfl⟩)

omit [Scalar α] in
/-- What is marked is among components that have a property. -/
theorem IsMarked.of_forall₂
    {holds : Variable α × (α × α) → α → Prop}
    (areGood : List.Forall₂ holds slots vector)
    {decision : Variable α}
    {interval : α × α}
    {noise value : α}
    (isMarked : IsMarked slots draws vector decision interval noise value) :
    (decision, interval) ∈ slots ∧ holds (decision, interval) value := by
  obtain ⟨position, isMarked⟩ := List.mem_iff_getElem?.mp isMarked
  obtain ⟨isSlot, isMarked⟩ := List.getElem?_zip_eq_some.mp isMarked
  obtain ⟨-, isValue⟩ := List.getElem?_zip_eq_some.mp isMarked
  exact ⟨List.mem_of_getElem? isSlot,
    (forall₂_iff_getElem?.mp areGood).2 position _ _ isSlot isValue⟩

/-- Every interval that is searched has room, and whole ends for a discrete variable. -/
structure AreRoomy (candidates : Candidates α) : Prop where
  isWide :
    ∀ decision ∈ candidates.problem.decisions,
      (candidates.intervalOf decision).1 < (candidates.intervalOf decision).2
  areWhole :
    ∀ decision ∈ candidates.problem.decisions, decision.isDiscrete = true →
      Scalar.IsWhole (candidates.intervalOf decision).1 ∧
        Scalar.IsWhole (candidates.intervalOf decision).2

theorem AreRoomy.of_isTightened
    [FractionalScalar α]
    {defaultBounds : α × α}
    (areTightened :
      ∀ decision ∈ candidates.problem.decisions,
        decision.IsTightened defaultBounds (candidates.intervalOf decision))
    (areWide : ∀ interval ∈ candidates.bounds, interval.1 < interval.2)
    (areListed :
      ∀ decision ∈ candidates.problem.decisions, decision.kind = .categorical →
        HasFiniteEnds (candidates.intervalOf decision)) :
    AreRoomy candidates where
  isWide decision inProblem := by
    refine areWide _ ?_
    rw [Candidates.bounds_eq_map]
    exact List.mem_map_of_mem inProblem
  areWhole decision inProblem isDiscrete := by
    by_cases isCategorical : decision.kind = .categorical
    · exact (areTightened decision inProblem).isWhole_of_hasFiniteEnds isDiscrete
        (areListed decision inProblem isCategorical)
    · exact (areTightened decision inProblem).isWhole isDiscrete isCategorical

/-- A child is in the search space if all of its components are numbers before they are repaired. -/
theorem contains_mutate_of_areNumbers
    [FractionalScalar α]
    (areRoomy : AreRoomy candidates)
    (isContained : candidates.Contains vector)
    (areNumbers :
      ∀ decision interval noise value,
        IsMarked (slotsOf candidates) (drawsOf candidates parameters.mutationRate source) vector
            decision interval noise value →
          Scalar.isNaN (mutateOne parameters generation decision interval noise value) = false) :
    candidates.Contains (mutate candidates parameters generation vector source).1 := by
  have sameLength : vector.length = candidates.size := isContained.isRepairable.length_eq
  have sameMoved :
      (mutateAll parameters generation (slotsOf candidates)
        (drawsOf candidates parameters.mutationRate source) vector).length = candidates.size :=
    (length_mutateAll (length_slotsOf.trans sameLength.symm)
      (length_drawsOf.trans sameLength.symm)).trans sameLength
  rw [mutate_eq]
  refine Candidates.forall₂_repair sameMoved fun decision inProblem number member => ?_
  refine Candidates.isGene_repairOne
    (ComparableScalar.le_of_lt (areRoomy.isWide decision inProblem))
    (areRoomy.areWhole decision inProblem) ?_
  rcases mem_or_exists_isMarked member with inVector | ⟨_, _, _, _, isMarked, rfl⟩
  · exact isContained.isRepairable.areNumbers number inVector
  · exact areNumbers _ _ _ _ isMarked

/-- A child is its parent exactly if every component that is marked is led back. -/
theorem mutate_beq_iff
    [MutableScalar α]
    {defaultBounds : α × α}
    (faultless : ∀ decision ∈ candidates.problem.decisions, decision.fault? = none)
    (areTightened :
      ∀ decision ∈ candidates.problem.decisions,
        decision.IsTightened defaultBounds (candidates.intervalOf decision))
    (areRoomy : AreRoomy candidates)
    (isContained : candidates.Contains vector) :
    ((mutate candidates parameters generation vector source).1 == vector) = true ↔
      ∀ decision interval noise value,
        IsMarked (slotsOf candidates) (drawsOf candidates parameters.mutationRate source) vector
            decision interval noise value →
          decision.kind ≠ .binary ∧
            IsLedBack decision interval value
              (mutateOne parameters generation decision interval noise value) := by
  have areGenes :
      List.Forall₂ (fun slot value => slot.1.IsGene slot.2 value) (slotsOf candidates) vector :=
    List.forall₂_map_left_iff.mpr isContained
  rw [mutate_eq, repair_eq_repairAll_slotsOf,
    repairAll_mutateAll_beq_iff (areGenes.imp fun _ _ => repairOne_beq_self)
      (length_drawsOf.trans length_slotsOf.symm)]
  refine forall₄_congr fun decision interval noise value => forall_congr' fun isMarked => ?_
  obtain ⟨isSlot, isGene⟩ := isMarked.of_forall₂ areGenes
  obtain ⟨_, inProblem, isSlot⟩ := List.mem_map.mp isSlot
  cases isSlot
  have isWide := areRoomy.isWide decision inProblem
  rw [repairOne_beq_iff (ComparableScalar.le_of_lt isWide) (areRoomy.areWhole decision inProblem)]
  refine (and_iff_right_of_imp fun isLedBack isBinary => ?_).symm
  obtain ⟨isLower, isUpper⟩ := toRat?_ends_of_isBinary (faultless decision inProblem)
    (areTightened decision inProblem) isBinary isWide
  rw [mutateOne, if_pos isBinary] at isLedBack
  exact not_isLedBack_one_sub (Variable.isDiscrete_iff.mpr (by simp [isBinary])) isLower isUpper
    isGene isLedBack

end Marking

/--
A mutation marks at least one component of a vector.  What it makes of a vector of the search
space is in the search space, if it makes numbers of all components that are marked.  And
it is the vector again exactly if none of these components is a truth value and each of them
is led back: it has left its interval over the end that it stood on, or it has not moved or is
rounded to what it was.
-/
theorem mutate_clones_iff_led_back
    (γ : Type)
    [RandomSource γ α]
    [MutableScalar α]
    [LimitedSource γ α]
    (problem : Problem α)
    (candidates : Candidates α)
    (parameters : GeneticParameters α)
    (generation : Nat)
    (vector : List α)
    (source : γ)
    (distinct : problem.variableNames.Nodup)
    (faultless : ∀ decision ∈ problem.decisions, decision.fault? = none)
    (prepared :
      Candidates.ofProblem problem parameters.defaultBounds parameters.tolerance = .ok candidates)
    (someVariable : problem.decisions ≠ [])
    (areWide : ∀ interval ∈ candidates.bounds, interval.1 < interval.2)
    (areListed :
      ∀ decision ∈ problem.decisions, decision.kind = .categorical →
        HasFiniteEnds (candidates.intervalOf decision))
    (isContained : candidates.Contains vector) :
    let child := (mutate candidates parameters generation vector source).1
    let draws := drawsOf candidates parameters.mutationRate source
    (∃ decision interval noise value,
        IsMarked (slotsOf candidates) draws vector decision interval noise value) ∧
      ((∀ decision interval noise value,
          IsMarked (slotsOf candidates) draws vector decision interval noise value →
            Scalar.isNaN (mutateOne parameters generation decision interval noise value) =
              false) →
        candidates.Contains child) ∧
      ((child == vector) = true ↔
        ∀ decision interval noise value,
          IsMarked (slotsOf candidates) draws vector decision interval noise value →
            decision.kind ≠ .binary ∧
              IsLedBack decision interval value
                (mutateOne parameters generation decision interval noise value)) := by
  have areTightened := Candidates.isTightened_intervalOf distinct faultless prepared
  obtain rfl := Candidates.problem_eq_of_ofProblem_eq_ok prepared
  have areRoomy := AreRoomy.of_isTightened areTightened areWide areListed
  exact ⟨exists_isMarked someVariable isContained.isRepairable.length_eq _ _,
    contains_mutate_of_areNumbers areRoomy isContained,
    mutate_beq_iff faultless areTightened areRoomy isContained⟩

section Cornered

instance : MutableScalar Extended where
  toRat?_one_sub value bit isBit _ := by
    rw [Extended.toRat?_eq_some_iff] at isBit ⊢
    rw [isBit]
    exact congrArg Extended.finite (sub_eq_add_neg 1 bit).symm
  isNaN_nearest _ := nofun

/-- Mutations that mark a single component. -/
def singleMarks : GeneticParameters Extended :=
  { twoGenerations with mutationRate := 0 }

/-- The share is marked where it is zero, is pushed below zero, and is zero again. -/
theorem mixedCandidates_corner_is_cloned :
    mixedCandidates.Contains [0, 0, 0, 0] ∧
      (∀ interval ∈ mixedCandidates.bounds, interval.1 < interval.2) ∧
      mixedCandidates.Contains
        (mutate mixedCandidates singleMarks 0 [0, 0, 0, 0] (⟨0⟩ : MixingGenerator)).1 ∧
      ((mutate mixedCandidates singleMarks 0 [0, 0, 0, 0] (⟨0⟩ : MixingGenerator)).1 ==
        [0, 0, 0, 0]) = true ∧
      ∃ decision interval noise value,
        IsMarked (slotsOf mixedCandidates) (drawsOf mixedCandidates 0 (⟨0⟩ : MixingGenerator))
            [0, 0, 0, 0] decision interval noise value ∧
          IsLedBack decision interval value
            (mutateOne singleMarks 0 decision interval noise value) := by
  have areBounds : mixedCandidates.bounds = [(0, 1), (0, 1), (0, .finite 7), (0, 1)] := by
    cbv
  have areWide : ∀ interval ∈ mixedCandidates.bounds, interval.1 < interval.2 := by
    rw [areBounds]
    decide
  have isContained : mixedCandidates.Contains [0, 0, 0, 0] :=
    .cons ⟨by decide, by decide, fun _ => Scalar.isWhole_zero⟩ <|
      .cons ⟨by decide, by decide, fun _ => Scalar.isWhole_zero⟩ <|
      .cons ⟨by decide, by decide, fun _ => Scalar.isWhole_zero⟩ <|
      .cons ⟨by decide, by decide, fun isDiscrete => absurd isDiscrete (by decide)⟩ .nil
  have areListed : ∀ decision ∈ mixedProblem.decisions, decision.kind = .categorical →
      HasFiniteEnds (mixedCandidates.intervalOf decision) := by
    simp only [mixedProblem, List.forall_mem_cons]
    refine ⟨fun _ => ⟨rfl, rfl⟩, ?_⟩
    simp
  have isCloned :
      ((mutate mixedCandidates singleMarks 0 [0, 0, 0, 0] (⟨0⟩ : MixingGenerator)).1 ==
        [0, 0, 0, 0]) = true := by
    cbv
  obtain ⟨⟨decision, interval, noise, value, isMarked⟩, staysInside, clones⟩ :=
    mutate_clones_iff_led_back MixingGenerator mixedProblem mixedCandidates singleMarks 0
      [0, 0, 0, 0] ⟨0⟩ mixedProblem_hasSoundVariables.distinct
      mixedProblem_hasSoundVariables.faultless mixedProblem_isSetUp.prepared (by decide) areWide
      areListed isContained
  exact ⟨isContained, areWide, staysInside fun _ _ _ _ _ => rfl, isCloned, decision, interval,
    noise, value, isMarked, (clones.mp isCloned _ _ _ _ isMarked).2⟩

end Cornered

end Evolution

end Optima
