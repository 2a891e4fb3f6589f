import Mathlib.Algebra.Field.Rat
import Mathlib.Algebra.Order.Field.Basic
import Mathlib.Data.Finset.Card
import Optima.Proofs.Scalar.Comparison
import Optima.Ranking.Crowding

namespace Optima

/-!
# Crowding distances

As long as no two values of an objective are infinitely far apart, a crowding distance is
a number that is not negative.  It is infinite only for the two members at the ends of an
objective's order, so at most two members per objective are infinitely isolated, and one
of them is the best along the objective.
-/

/-- Numbers among which distances are measured: a share of a distance is at most one, and adding
one to a number that is not infinite does not make it infinite. -/
class SpacingScalar (α : Type) [Scalar α] : Prop extends NumericScalar α where
  isFinite_zero : Scalar.isFinite (0 : α) = true
  isNaN_of_isFinite_sub (first second : α) :
    Scalar.isFinite (first - second) = true → Scalar.isNaN first = false
  lt_infinity (value : α) : Scalar.isFinite value = true → value < Scalar.infinity
  zero_lt_leastRange : (0 : α) < Crowding.leastRange
  sub_mem (lowest low high highest : α) :
    lowest ≤ low → low ≤ high → high ≤ highest →
      Scalar.isFinite (highest - lowest) = true →
        0 ≤ high - low ∧ high - low ≤ highest - lowest
  share_mem (gap range : α) :
    0 ≤ gap → gap ≤ range → 0 < range → Scalar.isFinite range = true →
      0 ≤ gap / range ∧ gap / range ≤ 1
  le_add_share (value share : α) :
    Scalar.isNaN value = false → 0 ≤ share → share ≤ 1 → value ≤ value + share
  add_share_lt_infinity (value share : α) :
    value < Scalar.infinity → share ≤ 1 → value + share < Scalar.infinity

section Extended

open Extended

instance : SpacingScalar Extended where
  isFinite_zero := rfl
  isNaN_of_isFinite_sub _ _ _ := rfl
  lt_infinity value isFinite := by
    obtain ⟨fraction, rfl⟩ := exists_fraction_of_isFinite isFinite
    exact Bool.false_ne_true
  zero_lt_leastRange := by
    decide +kernel
  sub_mem lowest low high highest isLow inOrder isHigh isFinite := by
    obtain ⟨least, rfl⟩ :=
      exists_fraction_between le_rfl (isLow.trans (inOrder.trans isHigh)) isFinite
    obtain ⟨first, rfl⟩ := exists_fraction_between isLow (inOrder.trans isHigh) isFinite
    obtain ⟨second, rfl⟩ := exists_fraction_between (isLow.trans inOrder) isHigh isFinite
    obtain ⟨greatest, rfl⟩ :=
      exists_fraction_between (isLow.trans (inOrder.trans isHigh)) le_rfl isFinite
    rw [finite_le_finite_iff] at isLow inOrder isHigh
    change finite 0 ≤ finite (second + -first) ∧
      finite (second + -first) ≤ finite (greatest + -least)
    rw [finite_le_finite_iff, finite_le_finite_iff]
    grind
  share_mem gap range isGap isShare isPositive isFinite := by
    obtain ⟨whole, rfl⟩ := exists_fraction_of_isFinite isFinite
    cases gap with
    | below => cases isGap
    | above => cases isShare
    | finite part =>
        change ¬ finite whole ≤ finite 0 at isPositive
        change finite 0 ≤ finite part at isGap
        change finite 0 ≤ finite (part * whole⁻¹) ∧ finite (part * whole⁻¹) ≤ finite 1
        simp only [finite_le_finite_iff] at *
        have isPositive : 0 < whole := not_le.mp isPositive
        have isInverse : 0 ≤ whole⁻¹ := inv_nonneg.mpr isPositive.le
        refine ⟨mul_nonneg isGap isInverse, ?_⟩
        calc part * whole⁻¹
            ≤ whole * whole⁻¹ := mul_le_mul_of_nonneg_right isShare isInverse
          _ = 1 := Rat.mul_inv_cancel _ isPositive.ne'
  le_add_share value share _ isShare atMost := by
    cases share with
    | below => cases isShare
    | above => cases atMost
    | finite share =>
        change isAtMost (finite 0) _ = true at isShare
        change isAtMost value (add value _) = true
        cases value <;> simp [isAtMost, add] at isShare ⊢
        exact isShare
  add_share_lt_infinity value share isBelow atMost := by
    change ¬ isAtMost above _ = true at isBelow
    change isAtMost _ (finite 1) = true at atMost
    change ¬ isAtMost above (add _ _) = true
    cases value <;> cases share <;> simp_all [isAtMost, add]

end Extended

namespace Scalar

variable {α : Type} [Scalar α] [NumericScalar α] {numbers : List α}

theorem inOrder_trans
    (first second third : α)
    (ordered : inOrder first second = true)
    (orderedToo : inOrder second third = true) :
    inOrder first third = true := by
  unfold inOrder at *
  split at ordered <;> split at orderedToo <;> simp_all
  rcases orderedToo with isLast | atMostToo
  · exact .inl isLast
  · exact .inr (ComparableScalar.le_trans _ _ _ ordered atMostToo)

theorem inOrder_total
    (first second : α) :
    inOrder first second = true ∨ inOrder second first = true := by
  unfold inOrder
  cases isFirst : isNaN first <;> cases isSecond : isNaN second <;> simp
  by_cases isBelow : second < first
  · exact .inr (ComparableScalar.le_of_lt isBelow)
  · exact .inl (NumericScalar.le_of_not_lt _ _ isFirst isSecond isBelow)

/-- Nothing is put in front of what is below it. -/
theorem not_lt_of_inOrder
    {first second : α}
    (ordered : inOrder first second = true) :
    ¬ second < first := by
  intro isBelow
  have atMost := ComparableScalar.le_of_lt isBelow
  simp only [inOrder, NumericScalar.isNaN_left atMost, NumericScalar.isNaN_right atMost,
    Bool.false_eq_true, ↓reduceIte, Bool.false_or, decide_eq_true_eq] at ordered
  exact ComparableScalar.not_le_of_lt isBelow ordered

/-- The numbers at positions in ascending order are in order, with NaN at the end. -/
theorem pairwise_inOrder_ascending
    (numbers : List α) :
    (ascending numbers).Pairwise fun earlier later =>
      ∀ lower upper, numbers[earlier]? = some lower → numbers[later]? = some upper →
        inOrder lower upper = true := by
  have sorted :
      (numbers.zipIdx.mergeSort fun first second => inOrder first.1 second.1).Pairwise
        fun first second => inOrder first.1 second.1 = true :=
    List.pairwise_mergeSort (fun first second third => inOrder_trans first.1 second.1 third.1)
      (fun first second => by simpa using inOrder_total first.1 second.1) _
  refine List.pairwise_map.mpr (sorted.imp_of_mem ?_)
  intro first second inFirst inSecond ordered lower upper isLower isUpper
  have atFirst := List.mem_zipIdx_iff_getElem?.mp (List.mem_mergeSort.mp inFirst)
  have atSecond := List.mem_zipIdx_iff_getElem?.mp (List.mem_mergeSort.mp inSecond)
  obtain rfl := Option.some.inj (atFirst.symm.trans isLower)
  obtain rfl := Option.some.inj (atSecond.symm.trans isUpper)
  exact ordered

/-- The numbers at positions in ascending order do not fall, if they all are numbers. -/
theorem pairwise_getD_ascending
    (areNumbers : ∀ number ∈ numbers, isNaN number = false) :
    (ascending numbers).Pairwise fun earlier later =>
      numbers.getD earlier 0 ≤ numbers.getD later 0 := by
  refine (pairwise_inOrder_ascending numbers).imp_of_mem ?_
  intro earlier later isEarlier isLater ordered
  rw [(ascending_perm numbers).mem_iff, List.mem_range] at isEarlier isLater
  have atEarlier := List.getElem?_eq_getElem isEarlier
  have atLater := List.getElem?_eq_getElem isLater
  have ordered := ordered _ _ atEarlier atLater
  have isNumber := areNumbers _ (List.getElem_mem isEarlier)
  have isNumberToo := areNumbers _ (List.getElem_mem isLater)
  simpa [List.getD_eq_getElem?_getD, atEarlier, atLater, inOrder, isNumber, isNumberToo]
    using ordered

/-- The numbers at positions in descending order do not rise, if they all are numbers. -/
theorem pairwise_descending_of_areNumbers
    (areNumbers : ∀ number ∈ numbers, isNaN number = false) :
    (descending numbers).Pairwise fun earlier later =>
      ∀ upper lower, numbers[earlier]? = some upper → numbers[later]? = some lower →
        lower ≤ upper := by
  refine (pairwise_inOrder_ascending (numbers.map (-·))).imp ?_
  intro earlier later ordered upper lower isUpper isLower
  have notBelow :=
    not_lt_of_inOrder (ordered (-upper) (-lower) (by simp [isUpper]) (by simp [isLower]))
  rw [NumericScalar.neg_lt_neg_iff] at notBelow
  exact NumericScalar.le_of_not_lt _ _ (areNumbers lower (List.mem_of_getElem? isLower))
    (areNumbers upper (List.mem_of_getElem? isUpper)) notBelow

end Scalar

namespace Crowding

variable {α : Type} [Scalar α] {numbers distances : List α} {order : List Nat}

/-- Numbers that are finitely far from each other and from themselves. -/
def HaveFiniteSpread (numbers : List α) : Prop :=
  ∀ number ∈ numbers, ∀ other ∈ numbers, Scalar.isFinite (number - other) = true

/-- Distances that are numbers and not negative. -/
def AreSpaced (distances : List α) : Prop :=
  ∀ position,
    Scalar.infinity ≤ distances.getD position 0 ∨
      (0 ≤ distances.getD position 0 ∧ distances.getD position 0 < Scalar.infinity)

section Spreading

variable {holds : α → Prop}

/-- What is kept by adding shares of a range holds of each distance after spreading. -/
theorem of_spread
    (lowest highest : α)
    {range : α}
    (isKept : ∀ value share, 0 ≤ share → share ≤ 1 → holds value → holds (value + share))
    (areShares :
      ∀ low high, lowest ≤ low → low ≤ high → high ≤ highest →
        0 ≤ (high - low) / range ∧ (high - low) / range ≤ 1)
    (areBetween :
      ∀ position ∈ order,
        lowest ≤ numbers.getD position 0 ∧ numbers.getD position 0 ≤ highest)
    (ordered :
      order.Pairwise fun earlier later => numbers.getD earlier 0 ≤ numbers.getD later 0)
    {position : Nat}
    (atStart : holds (distances.getD position 0)) :
    holds ((spread numbers range order distances).getD position 0) := by
  fun_induction spread numbers range order distances with
  | case1 before member after rest distances gap inductionHypothesis =>
      refine inductionHypothesis
        (fun other isOther => areBetween other (List.mem_cons_of_mem before isOther))
        (List.pairwise_cons.mp ordered).2 ?_
      have isShare := areShares (numbers.getD before 0) (numbers.getD after 0)
        (areBetween before List.mem_cons_self).1
        ((List.pairwise_cons.mp ordered).1 after (by simp))
        (areBetween after (by simp)).2
      rw [List.getD_eq_getElem?_getD, List.getElem?_modify]
      rw [List.getD_eq_getElem?_getD] at atStart
      by_cases isMember : member = position
      · subst isMember
        cases isDistance : distances[member]? with
        | none => simpa [isDistance] using atStart
        | some distance =>
            simp only [isDistance, Option.getD_some] at atStart
            simpa [gap] using isKept distance _ isShare.1 isShare.2 atStart
      · simpa [isMember] using atStart
  | case2 =>
      exact atStart

end Spreading

@[simp] theorem length_spread
    (range : α)
    (order : List Nat)
    (distances : List α) :
    (spread numbers range order distances).length = distances.length := by
  fun_induction spread numbers range order distances with
  | case1 before member after rest distances gap inductionHypothesis =>
      rw [inductionHypothesis, List.length_modify]
  | case2 => rfl

@[simp] theorem length_alongObjective
    (distances numbers : List α) :
    (alongObjective distances numbers).length = distances.length := by
  unfold alongObjective
  dsimp only
  split <;> simp

@[simp] theorem length_distances
    (vectors : List (List α)) :
    (Crowding.distances vectors).length = vectors.length := by
  unfold Crowding.distances
  split
  · exact List.length_map _
  · refine List.foldlRecOn (motive := fun current : List α => current.length = vectors.length) _ _
      (List.length_map _) fun current sameLength index _ => ?_
    simpa using sameLength

/-- The ends of an order of positions are positions, and no number is beyond theirs. -/
theorem exists_ends
    [NumericScalar α]
    (areNumbers : ∀ number ∈ numbers, Scalar.isNaN number = false)
    (someNumber : numbers ≠ []) :
    ∃ first last,
      (Scalar.ascending numbers).headD 0 = first ∧
        (Scalar.ascending numbers).getLastD 0 = last ∧
        first < numbers.length ∧ last < numbers.length ∧
        ∀ position < numbers.length,
          numbers.getD first 0 ≤ numbers.getD position 0 ∧
            numbers.getD position 0 ≤ numbers.getD last 0 := by
  have isPerm := Scalar.ascending_perm numbers
  have ordered := Scalar.pairwise_getD_ascending areNumbers
  have inRange {position : Nat} :
      position ∈ Scalar.ascending numbers ↔ position < numbers.length := by
    rw [isPerm.mem_iff, List.mem_range]
  have atMostItself {position : Nat} (isPosition : position < numbers.length) :
      numbers.getD position 0 ≤ numbers.getD position 0 :=
    NumericScalar.le_self (areNumbers _ (getD_mem_of_lt isPosition 0))
  have someOrder : Scalar.ascending numbers ≠ [] := by
    intro noOrder
    rw [noOrder] at isPerm
    have := isPerm.length_eq
    simp at this
    exact someNumber (List.length_eq_zero_iff.mp this.symm)
  obtain ⟨first, rest, isCons⟩ := List.exists_cons_of_ne_nil someOrder
  obtain ⟨init, last, isSnoc⟩ : ∃ init last, Scalar.ascending numbers = init ++ [last] :=
    ⟨_, _, (List.dropLast_append_getLast someOrder).symm⟩
  have isFirst : first < numbers.length := inRange.mp (by simp [isCons])
  have isLast : last < numbers.length := inRange.mp (by simp [isSnoc])
  refine ⟨first, last, by simp [isCons], by simp [isSnoc], isFirst, isLast, ?_⟩
  intro position isPosition
  have inOrder := inRange.mpr isPosition
  constructor
  · rw [isCons] at ordered inOrder
    rcases List.mem_cons.mp inOrder with rfl | inRest
    · exact atMostItself isPosition
    · exact (List.pairwise_cons.mp ordered).1 position inRest
  · rw [isSnoc] at ordered inOrder
    rcases List.mem_append.mp inOrder with inInit | isSame
    · exact (List.pairwise_append.mp ordered).2.2 position inInit last List.mem_cons_self
    · obtain rfl := List.mem_singleton.mp isSame
      exact atMostItself isPosition

section Along

variable [SpacingScalar α]

/-- What one more objective does to distances: the ends of its order become infinitely isolated,
and nobody else does. -/
structure Extends (numbers before after : List α) : Prop where
  length_eq : after.length = before.length
  areSpaced : AreSpaced after
  exists_ends :
    ∃ first last,
      first < numbers.length ∧
        (∀ position < numbers.length, numbers.getD first 0 ≤ numbers.getD position 0) ∧
        Scalar.infinity ≤ after.getD first 0 ∧
        ∀ position, Scalar.infinity ≤ after.getD position 0 →
          Scalar.infinity ≤ before.getD position 0 ∨ position = first ∨ position = last
  isKept :
    ∀ position, Scalar.infinity ≤ before.getD position 0 →
      Scalar.infinity ≤ after.getD position 0

theorem infinity_le_infinity :
    (Scalar.infinity : α) ≤ Scalar.infinity :=
  NumericScalar.le_self (NumericScalar.isNaN_right
    (ComparableScalar.le_of_lt (SpacingScalar.lt_infinity 0 SpacingScalar.isFinite_zero)))

theorem isInfinite_add_share
    (value share : α)
    (isPositive : 0 ≤ share)
    (atMostOne : share ≤ 1)
    (isInfinite : Scalar.infinity ≤ value) :
    Scalar.infinity ≤ value + share :=
  ComparableScalar.le_trans _ _ _ isInfinite
    (SpacingScalar.le_add_share _ _ (NumericScalar.isNaN_right isInfinite) isPositive atMostOne)

theorem isSpaced_add_share
    (value share : α)
    (isPositive : 0 ≤ share)
    (atMostOne : share ≤ 1)
    (isSpaced : 0 ≤ value ∧ value < Scalar.infinity) :
    0 ≤ value + share ∧ value + share < Scalar.infinity :=
  ⟨ComparableScalar.le_trans _ _ _ isSpaced.1
      (SpacingScalar.le_add_share _ _ (NumericScalar.isNaN_right isSpaced.1) isPositive atMostOne),
    SpacingScalar.add_share_lt_infinity _ _ isSpaced.2 atMostOne⟩

omit [SpacingScalar α] in
/-- Setting two distances to infinity leaves the others as they are. -/
theorem getD_set_set
    (distances : List α)
    {first last : Nat}
    (firstInRange : first < distances.length)
    (lastInRange : last < distances.length)
    (position : Nat) :
    ((distances.set first Scalar.infinity).set last Scalar.infinity).getD position 0 =
      if position = first ∨ position = last then Scalar.infinity
      else distances.getD position 0 := by
  rw [List.getD_eq_getElem?_getD, List.getD_eq_getElem?_getD, List.getElem?_set,
    List.getElem?_set]
  by_cases isLast : last = position
  · subst isLast
    simp [lastInRange]
  · by_cases isFirst : first = position
    · subst isFirst
      simp [isLast, firstInRange]
    · simp [isLast, isFirst, Ne.symm isFirst, Ne.symm isLast]

theorem HaveFiniteSpread.areNumbers
    (haveSpread : HaveFiniteSpread numbers) :
    ∀ number ∈ numbers, Scalar.isNaN number = false :=
  fun number isNumber =>
    SpacingScalar.isNaN_of_isFinite_sub _ _ (haveSpread number isNumber number isNumber)

/-- Gaps between the ends of a range that is not negligible are shares of it. -/
theorem share_of_range
    {lowest highest : α}
    (isNumber : Scalar.isNaN lowest = false)
    (isNumberToo : Scalar.isNaN highest = false)
    (inOrder : lowest ≤ highest)
    (isFinite : Scalar.isFinite (highest - lowest) = true)
    (notNarrow : ¬ highest - lowest < leastRange)
    (low high : α)
    (fromLowest : lowest ≤ low)
    (rises : low ≤ high)
    (toHighest : high ≤ highest) :
    0 ≤ (high - low) / (highest - lowest) ∧ (high - low) / (highest - lowest) ≤ 1 := by
  have isRange := SpacingScalar.sub_mem _ _ _ _ (NumericScalar.le_self isNumber) inOrder
    (NumericScalar.le_self isNumberToo) isFinite
  have isLeast := SpacingScalar.zero_lt_leastRange (α := α)
  have isWide : 0 < highest - lowest :=
    ComparableScalar.lt_of_lt_of_le isLeast
      (NumericScalar.le_of_not_lt _ _
        (NumericScalar.isNaN_right (ComparableScalar.le_of_lt isLeast))
        (NumericScalar.isNaN_right isRange.1) notNarrow)
  obtain ⟨isPositive, atMostRange⟩ :=
    SpacingScalar.sub_mem _ _ _ _ fromLowest rises toHighest isFinite
  exact SpacingScalar.share_mem _ _ isPositive atMostRange isWide isFinite

/-- What shares do not change holds of a distance after an objective, if it holds once the ends
of the objective's order are infinitely isolated. -/
theorem of_alongObjective
    {holds : α → Prop}
    (isKept : ∀ value share, 0 ≤ share → share ≤ 1 → holds value → holds (value + share))
    (haveSpread : HaveFiniteSpread numbers)
    {first last : Nat}
    (isFirst : (Scalar.ascending numbers).headD 0 = first)
    (isLast : (Scalar.ascending numbers).getLastD 0 = last)
    (firstInRange : first < numbers.length)
    (lastInRange : last < numbers.length)
    (areBetween :
      ∀ position < numbers.length,
        numbers.getD first 0 ≤ numbers.getD position 0 ∧
          numbers.getD position 0 ≤ numbers.getD last 0)
    {position : Nat}
    (atStart :
      holds (((distances.set first Scalar.infinity).set last Scalar.infinity).getD position 0)) :
    holds ((alongObjective distances numbers).getD position 0) := by
  unfold alongObjective
  dsimp only
  rw [isFirst, isLast]
  split
  · exact atStart
  · rename_i notNarrow
    have lowest := getD_mem_of_lt firstInRange 0
    have highest := getD_mem_of_lt lastInRange 0
    refine of_spread (numbers.getD first 0) (numbers.getD last 0) isKept
      (share_of_range (haveSpread.areNumbers _ lowest) (haveSpread.areNumbers _ highest)
        (areBetween last lastInRange).1 (haveSpread _ highest _ lowest) notNarrow)
      (fun other inOrder => areBetween other ?_)
      (Scalar.pairwise_getD_ascending haveSpread.areNumbers) atStart
    rwa [(Scalar.ascending_perm numbers).mem_iff, List.mem_range] at inOrder

theorem extends_alongObjective
    (haveSpread : HaveFiniteSpread numbers)
    (someNumber : numbers ≠ [])
    (sameLength : distances.length = numbers.length)
    (areSpaced : AreSpaced distances) :
    Extends numbers distances (alongObjective distances numbers) := by
  obtain ⟨first, last, isFirst, isLast, firstInRange, lastInRange, areBetween⟩ :=
    exists_ends haveSpread.areNumbers someNumber
  have atMarked :=
    getD_set_set distances (sameLength ▸ firstInRange) (sameLength ▸ lastInRange)
  have staysInfinite (position : Nat)
      (isInfinite :
        position = first ∨ position = last ∨ Scalar.infinity ≤ distances.getD position 0) :
      Scalar.infinity ≤ (alongObjective distances numbers).getD position 0 := by
    refine of_alongObjective isInfinite_add_share haveSpread isFirst isLast firstInRange
      lastInRange areBetween ?_
    rw [atMarked]
    split
    · exact infinity_le_infinity
    · rename_i notMarked
      exact (isInfinite.resolve_left fun isFirst => notMarked (.inl isFirst)).resolve_left
        fun isLast => notMarked (.inr isLast)
  have staysSpaced (position : Nat)
      (notMarked : ¬ (position = first ∨ position = last))
      (isSpaced :
        0 ≤ distances.getD position 0 ∧ distances.getD position 0 < Scalar.infinity) :
      0 ≤ (alongObjective distances numbers).getD position 0 ∧
        (alongObjective distances numbers).getD position 0 < Scalar.infinity := by
    refine of_alongObjective isSpaced_add_share haveSpread isFirst isLast firstInRange
      lastInRange areBetween ?_
    rw [atMarked, if_neg notMarked]
    exact isSpaced
  refine ⟨?_, ?_, ⟨first, last, firstInRange, fun position isPosition =>
    (areBetween position isPosition).1, staysInfinite first (.inl rfl), ?_⟩, ?_⟩
  · exact length_alongObjective distances numbers
  · intro position
    by_cases isMarked : position = first ∨ position = last
    · exact .inl (staysInfinite position (isMarked.imp_right .inl))
    · exact (areSpaced position).imp
        (fun isInfinite => staysInfinite position (.inr (.inr isInfinite)))
        (staysSpaced position isMarked)
  · intro position isInfinite
    by_contra notInfinite
    rw [not_or] at notInfinite
    obtain ⟨-, isBelow⟩ := staysSpaced position notInfinite.2
      ((areSpaced position).resolve_left notInfinite.1)
    exact ComparableScalar.not_le_of_lt isBelow isInfinite
  · intro position isInfinite
    exact staysInfinite position (.inr (.inr isInfinite))

end Along

section Front

variable {vectors : List (List α)}

/-- The positions up to a size at which distances are infinite. -/
def isolated (size : Nat) (distances : List α) : Finset Nat :=
  (Finset.range size).filter fun position => Scalar.infinity ≤ distances.getD position 0

/-- What the crowding distances of a front are after some objectives: at most two members per
objective are infinitely isolated, and the best along each of them is. -/
structure AreCrowding (vectors : List (List α)) (indices : List Nat) (distances : List α) :
    Prop where
  length_eq : distances.length = vectors.length
  areSpaced : AreSpaced distances
  card_isolated : (isolated vectors.length distances).card ≤ 2 * indices.length
  exists_best :
    ∀ index ∈ indices, ∃ best < vectors.length,
      Scalar.infinity ≤ distances.getD best 0 ∧
        ∀ position < vectors.length,
          (vectors.getD best []).getD index 0 ≤ (vectors.getD position []).getD index 0

theorem getD_component
    (vectors : List (List α))
    (index : Nat)
    {position : Nat}
    (inRange : position < vectors.length) :
    (component vectors index).getD position 0 = (vectors.getD position []).getD index 0 := by
  simp [component, List.getD_eq_getElem?_getD, List.getElem?_eq_getElem inRange]

variable [SpacingScalar α]

theorem AreCrowding.alongObjective
    {indices : List Nat}
    {index : Nat}
    (someVector : vectors ≠ [])
    (haveSpread : HaveFiniteSpread (component vectors index))
    (areCrowding : AreCrowding vectors indices distances) :
    AreCrowding vectors (indices ++ [index])
      (alongObjective distances (component vectors index)) := by
  have sameLength : (component vectors index).length = vectors.length := List.length_map _
  have someNumber : component vectors index ≠ [] := by
    simpa [component] using someVector
  obtain ⟨length_eq, areSpaced, ⟨first, last, firstInRange, isLeast, isInfinite, noOther⟩,
    isKept⟩ := extends_alongObjective haveSpread someNumber
      (areCrowding.length_eq.trans sameLength.symm) areCrowding.areSpaced
  rw [sameLength] at firstInRange isLeast
  refine ⟨length_eq.trans areCrowding.length_eq, areSpaced, ?_, ?_⟩
  · have isIncluded :
        isolated vectors.length (Crowding.alongObjective distances (component vectors index)) ⊆
          insert first (insert last (isolated vectors.length distances)) := by
      intro position isIsolated
      obtain ⟨inRange, isFar⟩ := Finset.mem_filter.mp isIsolated
      rw [Finset.mem_insert, Finset.mem_insert]
      rcases noOther position isFar with wasFar | isFirst | isLast
      · exact .inr (.inr (Finset.mem_filter.mpr ⟨inRange, wasFar⟩))
      · exact .inl isFirst
      · exact .inr (.inl isLast)
    calc _ ≤ (insert first (insert last (isolated vectors.length distances))).card :=
          Finset.card_le_card isIncluded
      _ ≤ (isolated vectors.length distances).card + 1 + 1 :=
          (Finset.card_insert_le _ _).trans (Nat.add_le_add_right (Finset.card_insert_le _ _) 1)
      _ ≤ 2 * (indices ++ [index]).length := by
          have := areCrowding.card_isolated
          rw [List.length_append, List.length_singleton]
          omega
  · intro other isIndex
    rcases List.mem_append.mp isIndex with isEarlier | isLast
    · obtain ⟨best, inRange, isFar, isBest⟩ := areCrowding.exists_best other isEarlier
      exact ⟨best, inRange, isKept best isFar, isBest⟩
    · obtain rfl := List.mem_singleton.mp isLast
      refine ⟨first, firstInRange, isInfinite, fun position inRange => ?_⟩
      rw [← getD_component vectors other firstInRange, ← getD_component vectors other inRange]
      exact isLeast position inRange

/-- The crowding distances of a front of more than two members. -/
theorem areCrowding_distances
    {dimension : Nat}
    (manyMembers : 2 < vectors.length)
    (sameDimension : ∀ vector ∈ vectors, vector.length = dimension)
    (haveSpread : ∀ index < dimension, HaveFiniteSpread (component vectors index)) :
    AreCrowding vectors (List.range dimension) (Crowding.distances vectors) := by
  have someVector : vectors ≠ [] := List.ne_nil_of_length_pos (by omega)
  have isDimension : (vectors.headD []).length = dimension := by
    obtain ⟨vector, rest, rfl⟩ := List.exists_cons_of_ne_nil someVector
    exact sameDimension vector List.mem_cons_self
  rw [Crowding.distances, if_neg (by omega), isDimension]
  have isZero : (0 : α) < Scalar.infinity := SpacingScalar.lt_infinity 0 SpacingScalar.isFinite_zero
  have getD_zeros (position : Nat) : (vectors.map fun _ => (0 : α)).getD position 0 = 0 := by
    rw [List.getD_eq_getElem?_getD, List.getElem?_map]
    cases vectors[position]? <;> rfl
  have atStart : AreCrowding vectors [] (vectors.map fun _ => (0 : α)) := by
    refine ⟨List.length_map _, fun position => ?_, ?_, nofun⟩
    · rw [getD_zeros]
      exact .inr ⟨NumericScalar.le_self (NumericScalar.isNaN_left
        (ComparableScalar.le_of_lt isZero)), isZero⟩
    · rw [isolated, Finset.filter_eq_empty_iff.mpr]
      · exact Nat.zero_le _
      · intro position _ isFar
        rw [getD_zeros] at isFar
        exact ComparableScalar.not_le_of_lt isZero isFar
  have carried (indices : List Nat) (areIndices : ∀ index ∈ indices, index < dimension) :
      AreCrowding vectors indices
        (indices.foldl
          (fun current index => Crowding.alongObjective current (component vectors index))
          (vectors.map fun _ => 0)) := by
    -- Objectives are added at the end, so the induction is on the indices from behind.
    induction indices using List.reverseRecOn with
    | nil => exact atStart
    | append_singleton indices index inductionHypothesis =>
        rw [List.foldl_append]
        exact (inductionHypothesis fun other isOther =>
          areIndices other (List.mem_append_left _ isOther)).alongObjective someVector
            (haveSpread index (areIndices index (by simp)))
  exact carried (List.range dimension) fun index isIndex => List.mem_range.mp isIndex

end Front

section Fronts

variable {vectors : List (List α)} {fronts : List (List Nat)} {current : List α}
  {front : List Nat} {position : Nat}

/-- The distances after those of the members of one front have been entered. -/
def enter (vectors : List (List α)) (current : List α) (front : List Nat) : List α :=
  (front.zip (Crowding.distances (front.map fun position => vectors.getD position []))).foldl
    (fun updated entry => updated.set entry.1 entry.2) current

theorem perFront_eq :
    perFront vectors fronts = fronts.foldl (enter vectors) (vectors.map fun _ => 0) :=
  rfl

theorem getD_foldl_set_of_not_mem
    {entries : List (Nat × α)}
    (notEntered : position ∉ entries.map (·.1)) :
    (entries.foldl (fun updated entry => updated.set entry.1 entry.2) current).getD position 0 =
      current.getD position 0 := by
  induction entries generalizing current with
  | nil => rfl
  | cons entry rest inductionHypothesis =>
      rw [List.map_cons, List.mem_cons, not_or] at notEntered
      rw [List.foldl_cons, inductionHypothesis notEntered.2, List.getD_eq_getElem?_getD,
        List.getElem?_set, if_neg (Ne.symm notEntered.1), ← List.getD_eq_getElem?_getD]

theorem getD_foldl_set_of_mem
    {entries : List (Nat × α)}
    {value : α}
    (areDistinct : (entries.map (·.1)).Nodup)
    (inRange : position < current.length)
    (isEntered : (position, value) ∈ entries) :
    (entries.foldl (fun updated entry => updated.set entry.1 entry.2) current).getD position 0 =
      value := by
  induction entries generalizing current with
  | nil => cases isEntered
  | cons entry rest inductionHypothesis =>
      rw [List.map_cons, List.nodup_cons] at areDistinct
      rw [List.foldl_cons]
      rcases List.mem_cons.mp isEntered with isFirst | isLater
      · subst isFirst
        rw [getD_foldl_set_of_not_mem areDistinct.1, List.getD_eq_getElem?_getD,
          List.getElem?_set]
        simp [inRange]
      · exact inductionHypothesis areDistinct.2 (by simpa using inRange) isLater

@[simp] theorem length_enter
    (vectors : List (List α))
    (current : List α)
    (front : List Nat) :
    (enter vectors current front).length = current.length :=
  List.foldlRecOn (motive := fun updated : List α => updated.length = current.length) _ _ rfl
    fun updated sameLength entry _ => by rw [List.length_set, sameLength]

theorem map_fst_entries
    (vectors : List (List α))
    (front : List Nat) :
    (front.zip
      (Crowding.distances (front.map fun position => vectors.getD position []))).map (·.1) =
        front :=
  List.map_fst_zip (by simp)

/-- The distance of a member of a front is the one that it has within the front. -/
theorem getD_perFront
    (areDistinct : fronts.flatten.Nodup)
    (inRange : ∀ position ∈ fronts.flatten, position < vectors.length)
    (isFront : front ∈ fronts)
    {index : Nat}
    (isMember : front[index]? = some position) :
    (perFront vectors fronts).getD position 0 =
      (Crowding.distances (front.map fun position => vectors.getD position [])).getD index 0 := by
  have untouched {fronts : List (List Nat)} {current : List α}
      (notMember : position ∉ fronts.flatten) :
      (fronts.foldl (enter vectors) current).getD position 0 = current.getD position 0 := by
    induction fronts generalizing current with
    | nil => rfl
    | cons first rest inductionHypothesis =>
        rw [List.flatten_cons, List.mem_append, not_or] at notMember
        rw [List.foldl_cons, inductionHypothesis notMember.2, enter,
          getD_foldl_set_of_not_mem (by rw [map_fst_entries]; exact notMember.1)]
  obtain ⟨before, after, rfl⟩ := List.append_of_mem isFront
  have inFront := List.mem_of_getElem? isMember
  rw [List.flatten_append, List.flatten_cons] at areDistinct inRange
  obtain ⟨frontDistinct, -, frontDisjoint⟩ :=
    List.nodup_append.mp (List.nodup_append.mp areDistinct).2.1
  have sameLength :
      (before.foldl (enter vectors) (vectors.map fun _ => 0)).length = vectors.length :=
    List.foldlRecOn (motive := fun current : List α => current.length = vectors.length) _ _
      (List.length_map _) fun current sameLength entry _ => by simpa using sameLength
  rw [perFront_eq, List.foldl_append, List.foldl_cons,
    untouched fun isLater => frontDisjoint position inFront position isLater rfl, enter]
  refine getD_foldl_set_of_mem (by rwa [map_fst_entries]) ?_ ?_
  · rw [sameLength]
    exact inRange position (List.mem_append_right _ (List.mem_append_left _ inFront))
  · refine List.mem_of_getElem? (i := index) (List.getElem?_zip_eq_some.mpr ⟨isMember, ?_⟩)
    rw [List.getD_eq_getElem?_getD, List.getElem?_eq_getElem, Option.getD_some]
    simpa using (List.getElem?_eq_some_iff.mp isMember).1

end Fronts

end Crowding

end Optima
