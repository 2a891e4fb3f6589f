import Mathlib.Algebra.Order.BigOperators.Group.List
import Mathlib.Algebra.Order.Monoid.Defs
import Mathlib.Order.Defs.LinearOrder
import Optima.Proofs.Lists
import Optima.Scalar.Basic

namespace Optima

/-!
# Laws of numbers

The algorithms run on any numbers.  What is said of them holds under laws, and
there are several sets of these.  Numbers are *ordered* if comparing them is a linear
preorder: this holds of doubles too as long as none of them is NaN.  They are *signed*
if opposites are ordered the other way round, and *bounded* if rounding and adding do
not lead from finite numbers to infinite ones.  Numbers are *exact* if sums and
differences are also what they are on paper.
-/

/-- Numbers whose comparisons never contradict each other. -/
class OrderedScalar (α : Type) [Scalar α] : Prop where
  le_refl (value : α) : value ≤ value
  le_trans (first second third : α) : first ≤ second → second ≤ third → first ≤ third
  le_total (first second : α) : first ≤ second ∨ second ≤ first
  lt_iff_not_le (first second : α) : first < second ↔ ¬ second ≤ first
  beq_iff_le (first second : α) : (first == second) = true ↔ first ≤ second ∧ second ≤ first

/-- Ordered numbers without NaN, the opposites of which are ordered the other way round. -/
class SignedScalar (α : Type) [Scalar α] : Prop extends OrderedScalar α where
  isNaN_eq_false (value : α) : Scalar.isNaN value = false
  neg_le_neg_iff (first second : α) : -second ≤ -first ↔ first ≤ second
  zero_lt_one : (0 : α) < 1
  neg_one_lt_zero : (-1 : α) < 0

/-- Ordered numbers of which the finite ones are never NaN, and stay finite in sums, between each
other and when they are rounded. -/
class BoundedScalar (α : Type) [Scalar α] : Prop extends OrderedScalar α where
  isNaN_of_isFinite (value : α) : Scalar.isFinite value = true → Scalar.isNaN value = false
  isFinite_ofInt (value : Int) : Scalar.isFinite (Scalar.ofInt value : α) = true
  isFinite_zero : Scalar.isFinite (0 : α) = true
  isFinite_one : Scalar.isFinite (1 : α) = true
  isFinite_add (first second : α) :
    Scalar.isFinite first = true → Scalar.isFinite second = true →
      Scalar.isFinite (first + second) = true
  isFinite_between (lower value upper : α) :
    lower ≤ value → value ≤ upper → Scalar.isFinite lower = true →
      Scalar.isFinite upper = true → Scalar.isFinite value = true
  isFinite_floor (value : α) :
    Scalar.isFinite value = true → Scalar.isFinite (Scalar.floor value) = true
  isFinite_ceiling (value : α) :
    Scalar.isFinite value = true → Scalar.isFinite (Scalar.ceiling value) = true

/-- Ordered numbers that are added without rounding. -/
class ExactScalar (α : Type) [Scalar α] : Prop extends OrderedScalar α where
  le_antisymm (first second : α) : first ≤ second → second ≤ first → first = second
  add_assoc (first second third : α) : first + second + third = first + (second + third)
  add_comm (first second : α) : first + second = second + first
  zero_add (value : α) : 0 + value = value
  add_le_add_left (first second third : α) : first ≤ second → third + first ≤ third + second
  slack_pos : (0 : α) < Scalar.slack
  lt_sub_slack_iff (first second : α) :
    first < second - Scalar.slack ↔ first + Scalar.slack < second

namespace OrderedScalar

variable {α : Type} [Scalar α] [OrderedScalar α]

instance (priority := 50) toPreorder : Preorder α where
  le_refl := OrderedScalar.le_refl
  le_trans := OrderedScalar.le_trans
  lt_iff_le_not_ge first second := by
    rw [OrderedScalar.lt_iff_not_le]
    constructor
    · intro notLe
      exact ⟨(OrderedScalar.le_total first second).resolve_right notLe, notLe⟩
    · exact And.right

instance (priority := 50) : Std.Total (α := α) (· ≤ ·) :=
  ⟨OrderedScalar.le_total⟩

/-- What is not strictly above is at most. -/
theorem le_of_not_lt
    {first second : α}
    (notLt : ¬ second < first) :
    first ≤ second := by
  rw [OrderedScalar.lt_iff_not_le] at notLt
  exact Decidable.of_not_not notLt

/-- A number equals itself. -/
theorem beq_self
    (value : α) :
    (value == value) = true :=
  (OrderedScalar.beq_iff_le value value).mpr ⟨le_rfl, le_rfl⟩

end OrderedScalar

namespace ExactScalar

variable {α : Type} [Scalar α] [ExactScalar α]

instance (priority := 50) toLinearOrder : LinearOrder α where
  le_antisymm := ExactScalar.le_antisymm
  le_total := OrderedScalar.le_total
  toDecidableLE := Scalar.decidableAtMost

instance (priority := 50) toAddCommMonoid : AddCommMonoid α where
  add_assoc := ExactScalar.add_assoc
  add_comm := ExactScalar.add_comm
  zero_add := ExactScalar.zero_add
  add_zero value := by
    rw [ExactScalar.add_comm, ExactScalar.zero_add]
  nsmul := nsmulRec

instance (priority := 50) toIsOrderedAddMonoid : IsOrderedAddMonoid α where
  add_le_add_left first second atMost third := by
    rw [ExactScalar.add_comm first, ExactScalar.add_comm second]
    exact ExactScalar.add_le_add_left first second third atMost

end ExactScalar

namespace Scalar

section Ordered

variable {α : Type} [Scalar α] [OrderedScalar α]

/-- The larger of two numbers is at least the first. -/
theorem le_larger_left
    (first second : α) :
    first ≤ larger first second := by
  unfold larger
  split
  · rename_i isBelow
    exact isBelow.le
  · exact le_rfl

/-- The larger of two numbers is at least the second. -/
theorem le_larger_right
    (first second : α) :
    second ≤ larger first second := by
  unfold larger
  split
  · exact le_rfl
  · rename_i notBelow
    exact OrderedScalar.le_of_not_lt notBelow

/-- The smaller of two numbers is at most the first. -/
theorem smaller_le_left
    (first second : α) :
    smaller first second ≤ first := by
  unfold smaller
  split
  · rename_i isBelow
    exact isBelow.le
  · exact le_rfl

/-- The smaller of two numbers is at most the second. -/
theorem smaller_le_right
    (first second : α) :
    smaller first second ≤ second := by
  unfold smaller
  split
  · exact le_rfl
  · rename_i notBelow
    exact OrderedScalar.le_of_not_lt notBelow

/-- The larger of two numbers is at most what both are at most. -/
theorem larger_le_iff
    {first second bound : α} :
    larger first second ≤ bound ↔ first ≤ bound ∧ second ≤ bound := by
  constructor
  · exact fun atMost =>
      ⟨(le_larger_left first second).trans atMost, (le_larger_right first second).trans atMost⟩
  · rintro ⟨atMost, atMostToo⟩
    unfold larger
    split
    · exact atMostToo
    · exact atMost

/-- The smaller of two numbers is at least what both are at least. -/
theorem le_smaller_iff
    {first second bound : α} :
    bound ≤ smaller first second ↔ bound ≤ first ∧ bound ≤ second := by
  constructor
  · exact fun atLeast =>
      ⟨atLeast.trans (smaller_le_left first second), atLeast.trans (smaller_le_right first second)⟩
  · rintro ⟨atLeast, atLeastToo⟩
    unfold smaller
    split
    · exact atLeastToo
    · exact atLeast

/-- Going through a list for its largest number never loses ground. -/
theorem le_foldl_larger
    (numbers : List α)
    (start : α) :
    start ≤ numbers.foldl larger start ∧
      ∀ value ∈ numbers, value ≤ numbers.foldl larger start := by
  induction numbers generalizing start with
  | nil =>
      simp
  | cons first rest inductionHypothesis =>
      obtain ⟨startBelow, restBelow⟩ :=
        inductionHypothesis (larger start first)
      refine ⟨(le_larger_left start first).trans startBelow, ?_⟩
      intro value member
      rcases List.mem_cons.mp member with isFirst | inRest
      · subst value
        exact (le_larger_right start first).trans startBelow
      · exact restBelow value inRest

/-- The largest number of a list is at least each of them. -/
theorem le_of_largest?_eq_some
    {numbers : List α}
    {greatest value : α}
    (isLargest : largest? numbers = some greatest)
    (member : value ∈ numbers) :
    value ≤ greatest := by
  cases numbers with
  | nil =>
      simp at member
  | cons first rest =>
      simp only [largest?, Option.some.injEq] at isLargest
      subst greatest
      obtain ⟨firstBelow, restBelow⟩ := le_foldl_larger rest first
      rcases List.mem_cons.mp member with isFirst | inRest
      · subst value
        exact firstBelow
      · exact restBelow value inRest

/-- A list with a number has a largest one, which is at least that number. -/
theorem exists_largest?_of_mem
    {numbers : List α}
    {value : α}
    (member : value ∈ numbers) :
    ∃ greatest, largest? numbers = some greatest ∧ value ≤ greatest := by
  cases isLargest : largest? numbers with
  | none =>
      cases numbers with
      | nil =>
          simp at member
      | cons first rest =>
          simp [largest?] at isLargest
  | some greatest =>
      exact ⟨greatest, rfl, le_of_largest?_eq_some isLargest member⟩

end Ordered

section Distinct

variable {α : Type} [Scalar α]

/-- The largest number of a list is one of its numbers. -/
theorem mem_of_largest?_eq_some
    {numbers : List α}
    {greatest : α}
    (isLargest : largest? numbers = some greatest) :
    greatest ∈ numbers := by
  cases numbers with
  | nil =>
      simp [largest?] at isLargest
  | cons first rest =>
      simp only [largest?, Option.some.injEq] at isLargest
      subst greatest
      apply foldl_choice_mem
      intro best other
      unfold larger
      split
      · exact Or.inr rfl
      · exact Or.inl rfl

/-- Inserting a number adds no other. -/
theorem mem_of_mem_insertDistinct
    {value inserted : α}
    {numbers : List α}
    (member : value ∈ insertDistinct inserted numbers) :
    value = inserted ∨ value ∈ numbers := by
  induction numbers with
  | nil =>
      simpa [insertDistinct] using member
  | cons first rest inductionHypothesis =>
      unfold insertDistinct at member
      split at member
      · simpa using member
      · split at member
        · exact Or.inr member
        · rcases List.mem_cons.mp member with isFirst | inRest
          · exact Or.inr (by simp [isFirst])
          · rcases inductionHypothesis inRest with isInserted | isOld
            · exact Or.inl isInserted
            · exact Or.inr (List.mem_cons_of_mem first isOld)

/-- The distinct numbers of a list are numbers of the list. -/
theorem mem_of_mem_distinct
    {value : α}
    {numbers : List α}
    (member : value ∈ distinct numbers) :
    value ∈ numbers := by
  have fromFold :
      ∀ (rest sorted : List α),
        value ∈ rest.foldl
          (fun sorted value => insertDistinct value sorted) sorted →
        value ∈ sorted ∨ value ∈ rest := by
    intro rest
    induction rest with
    | nil =>
        intro sorted inSorted
        exact Or.inl inSorted
    | cons first rest inductionHypothesis =>
        intro sorted inFold
        rcases inductionHypothesis _ inFold with inInserted | inRest
        · rcases mem_of_mem_insertDistinct inInserted with isFirst | inSorted
          · exact Or.inr (by simp [isFirst])
          · exact Or.inl inSorted
        · exact Or.inr (List.mem_cons_of_mem first inRest)
  simpa using fromFold numbers [] member

/-- Of the numbers of a list that have a property, there is a largest. -/
theorem exists_largest_of_holds
    [OrderedScalar α]
    {holds : α → Prop}
    {value : α}
    {numbers : List α}
    (member : value ∈ numbers)
    (isGood : holds value) :
    ∃ largest ∈ numbers,
      holds largest ∧ ∀ other ∈ numbers, holds other → other ≤ largest := by
  classical
  set good := numbers.filter (decide <| holds ·)
  have isAmong : value ∈ good := List.mem_filter.mpr ⟨member, by simpa using isGood⟩
  obtain ⟨largest, isLargest, -⟩ := exists_largest?_of_mem isAmong
  obtain ⟨isNumber, isGoodToo⟩ := List.mem_filter.mp (mem_of_largest?_eq_some isLargest)
  refine ⟨largest, isNumber, by simpa using isGoodToo, fun other isOther otherIsGood => ?_⟩
  exact le_of_largest?_eq_some isLargest
    (List.mem_filter.mpr ⟨isOther, by simpa using otherIsGood⟩)

/-- Of the numbers of a list that are at most another one, there is a largest. -/
theorem exists_latest
    [OrderedScalar α]
    {value bound : α}
    {numbers : List α}
    (member : value ∈ numbers)
    (isBelow : value ≤ bound) :
    ∃ latest ∈ numbers,
      latest ≤ bound ∧ ∀ other ∈ numbers, other ≤ bound → other ≤ latest :=
  exists_largest_of_holds member isBelow

end Distinct

section Exact

variable {α : Type} [Scalar α] [ExactScalar α]

/-- Adding from left to right is the sum. -/
theorem total_eq_sum
    (numbers : List α) :
    total numbers = numbers.sum := by
  have fromStart :
      ∀ (rest : List α) (start : α),
        rest.foldl (· + ·) start = start + rest.sum := by
    intro rest
    induction rest with
    | nil =>
        intro start
        simp
    | cons first rest inductionHypothesis =>
        intro start
        simp only [List.foldl_cons, inductionHypothesis, List.sum_cons]
        rw [add_assoc]
  simpa [total] using fromStart numbers 0

/-- A number lies below itself and the slack. -/
theorem le_add_slack
    (value : α) :
    value ≤ value + slack :=
  le_add_of_nonneg_right ExactScalar.slack_pos.le

end Exact

/-!
## The numbers of a list in order

Each number of a list is among its distinct numbers, and they ascend; so the first of them that has
a property is the smallest.
-/

section Ascending

variable {α : Type} [Scalar α] [ExactScalar α] {value inserted : α} {numbers : List α}

/-- Inserting a number adds this number and keeps the others. -/
theorem mem_insertDistinct_iff :
    value ∈ insertDistinct inserted numbers ↔ value = inserted ∨ value ∈ numbers := by
  refine ⟨mem_of_mem_insertDistinct, ?_⟩
  induction numbers with
  | nil =>
      simp [insertDistinct]
  | cons first rest inductionHypothesis =>
      unfold insertDistinct
      split
      · simp
      · split
        · rename_i isFirst
          obtain ⟨atMost, atLeast⟩ := (OrderedScalar.beq_iff_le inserted first).mp isFirst
          rintro (rfl | isOld)
          · exact List.mem_cons.mpr (Or.inl (le_antisymm atMost atLeast))
          · exact isOld
        · rintro (isInserted | isOld)
          · exact List.mem_cons_of_mem first (inductionHypothesis (Or.inl isInserted))
          · rcases List.mem_cons.mp isOld with isFirst | inRest
            · exact List.mem_cons.mpr (Or.inl isFirst)
            · exact List.mem_cons_of_mem first (inductionHypothesis (Or.inr inRest))

/-- Inserting a number keeps numbers in ascending order. -/
theorem pairwise_insertDistinct
    (ascends : numbers.Pairwise (· < ·)) :
    (insertDistinct inserted numbers).Pairwise (· < ·) := by
  induction numbers with
  | nil =>
      simp [insertDistinct]
  | cons first rest inductionHypothesis =>
      obtain ⟨isFirst, restAscends⟩ := List.pairwise_cons.mp ascends
      unfold insertDistinct
      split
      · rename_i isBelow
        refine List.pairwise_cons.mpr ⟨?_, ascends⟩
        intro value member
        rcases List.mem_cons.mp member with rfl | inRest
        · exact isBelow
        · exact isBelow.trans (isFirst value inRest)
      · split
        · exact ascends
        · rename_i notBelow notSame
          have isAbove : first < inserted := by
            refine lt_of_le_of_ne (not_lt.mp notBelow) ?_
            rintro rfl
            exact notSame (OrderedScalar.beq_self first)
          refine List.pairwise_cons.mpr ⟨?_, inductionHypothesis restAscends⟩
          intro value member
          rcases mem_insertDistinct_iff.mp member with rfl | inRest
          · exact isAbove
          · exact isFirst value inRest

/-- The distinct numbers of a list are its numbers, in ascending order. -/
theorem distinct_spec
    (numbers : List α) :
    (∀ value, value ∈ distinct numbers ↔ value ∈ numbers) ∧
      (distinct numbers).Pairwise (· < ·) := by
  have fromSorted :
      ∀ (rest sorted : List α), sorted.Pairwise (· < ·) →
        (∀ value, value ∈ rest.foldl (fun sorted value => insertDistinct value sorted) sorted ↔
          value ∈ sorted ∨ value ∈ rest) ∧
        (rest.foldl (fun sorted value => insertDistinct value sorted) sorted).Pairwise (· < ·) := by
    intro rest
    induction rest with
    | nil =>
        intro sorted ascends
        exact ⟨by simp, ascends⟩
    | cons first rest inductionHypothesis =>
        intro sorted ascends
        have insertedAscends : (insertDistinct first sorted).Pairwise (· < ·) :=
          pairwise_insertDistinct ascends
        obtain ⟨sameNumbers, stillAscends⟩ := inductionHypothesis _ insertedAscends
        refine ⟨fun value => ?_, stillAscends⟩
        rw [List.foldl_cons, sameNumbers value, mem_insertDistinct_iff, List.mem_cons]
        tauto
  obtain ⟨sameNumbers, ascends⟩ := fromSorted numbers [] .nil
  exact ⟨by simpa [distinct] using sameNumbers, ascends⟩

/-- The first of ascending numbers that has a property is at most each other one that has it. -/
theorem exists_find?_le
    {holds : α → Bool}
    (ascends : numbers.Pairwise (· < ·))
    (member : value ∈ numbers)
    (isGood : holds value = true) :
    ∃ first, numbers.find? holds = some first ∧ first ≤ value := by
  induction numbers with
  | nil =>
      simp at member
  | cons first rest inductionHypothesis =>
      obtain ⟨isFirst, restAscends⟩ := List.pairwise_cons.mp ascends
      by_cases firstIsGood : holds first = true
      · refine ⟨first, List.find?_cons_of_pos firstIsGood, ?_⟩
        rcases List.mem_cons.mp member with rfl | inRest
        · exact le_rfl
        · exact (isFirst value inRest).le
      · rw [List.find?_cons_of_neg firstIsGood]
        refine inductionHypothesis restAscends ?_
        rcases List.mem_cons.mp member with rfl | inRest
        · exact absurd isGood firstIsGood
        · exact inRest

/-- Of ascending numbers, one is kept as long as those up to it are. -/
theorem mem_takeWhile_of_forall_le
    {keeps : α → Bool}
    (ascends : numbers.Pairwise (· < ·))
    (member : value ∈ numbers)
    (areKept : ∀ other ≤ value, keeps other = true) :
    value ∈ numbers.takeWhile keeps := by
  induction numbers with
  | nil =>
      simp at member
  | cons first rest inductionHypothesis =>
      obtain ⟨isFirst, restAscends⟩ := List.pairwise_cons.mp ascends
      rcases List.mem_cons.mp member with rfl | inRest
      · rw [List.takeWhile_cons_of_pos (areKept value le_rfl)]
        exact List.mem_cons_self
      · rw [List.takeWhile_cons_of_pos (areKept first (isFirst value inRest).le)]
        exact List.mem_cons_of_mem first (inductionHypothesis restAscends inRest)

end Ascending

end Scalar

end Optima
