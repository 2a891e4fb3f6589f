import Mathlib.Data.List.Basic
import Mathlib.Data.Prod.Lex
import Mathlib.Order.Compare
import Optima.Proofs.Scalar.Extended
import Optima.Proofs.Scalar.Laws
import Optima.Scalar.Basic

namespace Optima

/-!
# Comparing numbers

What is known of numbers that are compared: first of exact ones, then of any, and at last of
doubles.
-/

/-!
## Positions in order

The positions of a list in order of its numbers are all of its positions, each once,
and the numbers at them never turn back.
-/

namespace Scalar

variable {α : Type} [Scalar α]

section Positions

variable {numbers : List α} {position : Nat}

/-- Putting positions in order neither loses a position nor repeats one. -/
theorem ascending_perm
    (numbers : List α) :
    (ascending numbers).Perm (List.range numbers.length) := by
  have positions : numbers.zipIdx.map Prod.snd = List.range numbers.length := by
    rw [List.zipIdx_map_snd, List.range_eq_range']
  rw [← positions]
  exact (List.mergeSort_perm _ _).map Prod.snd

theorem mem_descending_iff :
    position ∈ descending numbers ↔ position < numbers.length := by
  rw [descending, (ascending_perm _).mem_iff, List.mem_range, List.length_map]

@[simp] theorem length_descending
    (numbers : List α) :
    (descending numbers).length = numbers.length := by
  rw [descending, (ascending_perm _).length_eq, List.length_range, List.length_map]

end Positions

section Order

variable [SignedScalar α]

theorem inOrder_iff
    (first second : α) :
    inOrder first second = true ↔ first ≤ second := by
  simp [inOrder, SignedScalar.isNaN_eq_false]

/-- From one position to a later one the numbers do not fall. -/
theorem pairwise_ascending
    (numbers : List α) :
    (ascending numbers).Pairwise fun earlier later =>
      ∀ lower upper,
        numbers[earlier]? = some lower → numbers[later]? = some upper → lower ≤ upper := by
  have sorted :
      (numbers.zipIdx.mergeSort fun first second => inOrder first.1 second.1).Pairwise
        fun first second => inOrder first.1 second.1 = true := by
    apply List.pairwise_mergeSort
    · intro first second third
      simp only [inOrder_iff]
      exact le_trans
    · intro first second
      simp only [Bool.or_eq_true, inOrder_iff]
      exact OrderedScalar.le_total first.1 second.1
  refine List.pairwise_map.mpr (sorted.imp_of_mem ?_)
  intro first second inFirst inSecond ordered lower upper isLower isUpper
  have atFirst := List.mem_zipIdx_iff_getElem?.mp (List.mem_mergeSort.mp inFirst)
  have atSecond := List.mem_zipIdx_iff_getElem?.mp (List.mem_mergeSort.mp inSecond)
  obtain rfl := Option.some.inj (atFirst.symm.trans isLower)
  obtain rfl := Option.some.inj (atSecond.symm.trans isUpper)
  exact (inOrder_iff first.1 second.1).mp ordered

/-- From one position to a later one the numbers do not rise. -/
theorem pairwise_descending
    (numbers : List α) :
    (descending numbers).Pairwise fun earlier later =>
      ∀ upper lower,
        numbers[earlier]? = some upper → numbers[later]? = some lower → lower ≤ upper := by
  refine (pairwise_ascending (numbers.map (-·))).imp ?_
  intro earlier later ordered upper lower isUpper isLower
  exact (SignedScalar.neg_le_neg_iff lower upper).mp
    (ordered (-upper) (-lower) (by simp [isUpper]) (by simp [isLower]))

/-- The number at the first position in descending order is the largest. -/
theorem exists_largest_of_head?_descending
    {numbers : List α}
    {position : Nat}
    (isFirst : (descending numbers).head? = some position) :
    ∃ largest, numbers[position]? = some largest ∧ ∀ number ∈ numbers, number ≤ largest := by
  have inRange : position < numbers.length :=
    mem_descending_iff.mp (List.mem_of_mem_head? isFirst)
  have isLargest := List.getElem?_eq_getElem inRange
  refine ⟨numbers[position], isLargest, ?_⟩
  intro number member
  obtain ⟨other, isNumber⟩ := List.mem_iff_getElem?.mp member
  have isOther : other ∈ descending numbers :=
    mem_descending_iff.mpr (List.getElem?_eq_some_iff.mp isNumber).1
  have ordered := pairwise_descending numbers
  obtain ⟨rest, isCons⟩ := List.head?_eq_some_iff.mp isFirst
  rw [isCons] at ordered isOther
  rcases List.mem_cons.mp isOther with isSame | inRest
  · subst other
    exact (Option.some.inj (isLargest.symm.trans isNumber)).ge
  · exact (List.pairwise_cons.mp ordered).1 other inRest _ _ isLargest isNumber

end Order

end Scalar

/-!
## Comparisons of any numbers

Some facts need nothing of numbers but that comparing them is transitive, and that being
strictly below is being at most and not the other way round.  Both hold also where some of
the numbers are NaN, which is not even at most itself.  Numbers are *numeric* if NaN is
the only one that does not compare.
-/

/-- Numbers whose comparisons never contradict each other, also where some of them are NaN. -/
class ComparableScalar (α : Type) [Scalar α] : Prop where
  le_trans (first second third : α) : first ≤ second → second ≤ third → first ≤ third
  lt_iff_le_not_le (first second : α) : first < second ↔ first ≤ second ∧ ¬ second ≤ first

/-- Numbers of which two compare unless one of them is NaN, and the opposites of which are ordered
the other way round. -/
class NumericScalar (α : Type) [Scalar α] : Prop extends ComparableScalar α where
  isNaN_eq_false_of_le (first second : α) :
    first ≤ second → Scalar.isNaN first = false ∧ Scalar.isNaN second = false
  le_of_not_lt (first second : α) :
    Scalar.isNaN first = false → Scalar.isNaN second = false → ¬ second < first → first ≤ second
  beq_iff_le (first second : α) : (first == second) = true ↔ first ≤ second ∧ second ≤ first
  neg_lt_neg_iff (first second : α) : -second < -first ↔ first < second

instance (priority := 50) OrderedScalar.toComparableScalar
    {α : Type} [Scalar α] [OrderedScalar α] : ComparableScalar α where
  le_trans := OrderedScalar.le_trans
  lt_iff_le_not_le _ _ := lt_iff_le_not_ge

instance : NumericScalar Extended where
  isNaN_eq_false_of_le _ _ _ := ⟨rfl, rfl⟩
  le_of_not_lt _ _ _ _ := OrderedScalar.le_of_not_lt
  beq_iff_le := OrderedScalar.beq_iff_le
  neg_lt_neg_iff first second := by
    rw [OrderedScalar.lt_iff_not_le, SignedScalar.neg_le_neg_iff, ← OrderedScalar.lt_iff_not_le]

namespace ComparableScalar

variable {α : Type} [Scalar α] [ComparableScalar α] {first second third : α}

theorem le_of_lt
    (isBelow : first < second) :
    first ≤ second :=
  ((lt_iff_le_not_le first second).mp isBelow).1

theorem not_le_of_lt
    (isBelow : first < second) :
    ¬ second ≤ first :=
  ((lt_iff_le_not_le first second).mp isBelow).2

/-- No number is below itself. -/
theorem lt_irrefl
    (value : α) :
    ¬ value < value :=
  fun isBelow => not_le_of_lt isBelow (le_of_lt isBelow)

theorem lt_of_lt_of_le
    (isBelow : first < second)
    (atMost : second ≤ third) :
    first < third := by
  refine (lt_iff_le_not_le first third).mpr ⟨le_trans _ _ _ (le_of_lt isBelow) atMost, ?_⟩
  intro backwards
  exact not_le_of_lt isBelow (le_trans _ _ _ atMost backwards)

theorem lt_trans
    (isBelow : first < second)
    (isBelowToo : second < third) :
    first < third :=
  lt_of_lt_of_le isBelow (le_of_lt isBelowToo)

end ComparableScalar

namespace NumericScalar

variable {α : Type} [Scalar α] [NumericScalar α] {first second : α}

theorem isNaN_left
    (atMost : first ≤ second) :
    Scalar.isNaN first = false :=
  (isNaN_eq_false_of_le first second atMost).1

theorem isNaN_right
    (atMost : first ≤ second) :
    Scalar.isNaN second = false :=
  (isNaN_eq_false_of_le first second atMost).2

/-- A number that is not NaN is at most itself. -/
theorem le_self
    (isNumber : Scalar.isNaN first = false) :
    first ≤ first :=
  le_of_not_lt first first isNumber isNumber (ComparableScalar.lt_irrefl first)

/-- What is at least a number equals it if it is not above it. -/
theorem beq_iff_not_lt
    (atLeast : second ≤ first) :
    (first == second) = true ↔ ¬ second < first := by
  rw [beq_iff_le, and_iff_left atLeast]
  constructor
  · exact fun atMost isAbove => ComparableScalar.not_le_of_lt isAbove atMost
  · exact le_of_not_lt _ _ (isNaN_right atLeast) (isNaN_left atLeast)

end NumericScalar

namespace Scalar

variable {α : Type} [Scalar α] [NumericScalar α] {first second : α}

theorem beq_comm_of_beq
    (isSame : (first == second) = true) :
    (second == first) = true := by
  rw [NumericScalar.beq_iff_le] at isSame ⊢
  exact isSame.symm

theorem beq_trans_of_beq
    {third : α}
    (isSame : (first == second) = true)
    (isSameToo : (second == third) = true) :
    (first == third) = true := by
  rw [NumericScalar.beq_iff_le] at *
  exact ⟨ComparableScalar.le_trans _ _ _ isSame.1 isSameToo.1,
    ComparableScalar.le_trans _ _ _ isSameToo.2 isSame.2⟩

/-- Numbers are equal as a partial equivalence: all but NaN equal themselves. -/
theorem partialEquivBEq :
    PartialEquivBEq α :=
  ⟨beq_comm_of_beq, beq_trans_of_beq⟩

end Scalar

/-!
## Putting numbers in order one by one

Numbers are inserted into a list wherever they belong, so the order in which they come does not
matter.
-/

namespace Scalar

variable {α : Type} [Scalar α] [NumericScalar α] {first second : α}

/-- Of two numbers one below the other, either one is inserted first. -/
theorem insertDistinct_comm_of_lt
    (isBelow : first < second)
    (numbers : List α) :
    insertDistinct second (insertDistinct first numbers) =
      insertDistinct first (insertDistinct second numbers) := by
  have notAbove : ¬ second < first := fun isAbove =>
    ComparableScalar.lt_irrefl first (ComparableScalar.lt_trans isBelow isAbove)
  have notSame : (second == first) = false := by
    rw [Bool.eq_false_iff, Ne, NumericScalar.beq_iff_le]
    exact fun isSame => ComparableScalar.not_le_of_lt isBelow isSame.1
  induction numbers with
  | nil =>
      simp [insertDistinct, isBelow, notAbove, notSame]
  | cons head rest inductionHypothesis =>
      by_cases firstIsBelow : first < head
      · -- The first number stays in front wherever the second one goes.
        by_cases secondIsBelow : second < head <;> by_cases secondIsHead : second == head <;>
          simp [insertDistinct, firstIsBelow, secondIsBelow, secondIsHead, isBelow, notAbove,
            notSame]
      · have secondNotBelow : ¬ second < head := fun secondIsBelow =>
          firstIsBelow (ComparableScalar.lt_trans isBelow secondIsBelow)
        have secondNotHead : (second == head) = false := by
          rw [Bool.eq_false_iff, Ne, NumericScalar.beq_iff_le]
          exact fun isHead => firstIsBelow (ComparableScalar.lt_of_lt_of_le isBelow isHead.1)
        by_cases firstIsHead : first == head <;>
          simp [insertDistinct, firstIsBelow, firstIsHead, secondNotBelow, secondNotHead,
            inductionHypothesis]

/-- Two numbers that are equal only if they are the same may be inserted in either order. -/
theorem insertDistinct_comm
    (firstIsNumber : isNaN first = false)
    (secondIsNumber : isNaN second = false)
    (same_of_eq : (first == second) = true → first = second)
    (numbers : List α) :
    insertDistinct second (insertDistinct first numbers) =
      insertDistinct first (insertDistinct second numbers) := by
  by_cases isBelow : first < second
  · exact insertDistinct_comm_of_lt isBelow numbers
  · by_cases isAbove : second < first
    · exact (insertDistinct_comm_of_lt isAbove numbers).symm
    · obtain rfl : first = second := same_of_eq ((NumericScalar.beq_iff_le first second).mpr
        ⟨NumericScalar.le_of_not_lt _ _ firstIsNumber secondIsNumber isAbove,
          NumericScalar.le_of_not_lt _ _ secondIsNumber firstIsNumber isBelow⟩)
      rfl

end Scalar

/-!
## Comparing double precision numbers

A double that is not NaN has a place on the number line: first the infinities, the two
signs and zero, then the exponent, then the digits.  Doubles are compared by their places,
and NaN, which has none, compares with nothing.
-/

namespace Double

open Float.Model

/-- The place of a double on the number line. -/
def place? : UnpackedFloat → Option (Int ×ₗ Int ×ₗ Int)
  | .notANumber => none
  | .infinity .negative => some (toLex (-2, toLex (0, 0)))
  | .finite .negative digits exponent _ => some (toLex (-1, toLex (-exponent, -digits)))
  | .zero _ => some (toLex (0, toLex (0, 0)))
  | .finite .positive digits exponent _ => some (toLex (1, toLex (exponent, digits)))
  | .infinity .positive => some (toLex (2, toLex (0, 0)))

section Comparing

variable (exponent other : Int) (digits others : Nat)

theorem then_eq_lt_iff :
    (compare exponent other).then (compare digits others) = .lt ↔
      exponent < other ∨ exponent = other ∧ digits < others := by
  rw [Ordering.then_eq_lt, compare_lt_iff_lt, compare_eq_iff_eq, compare_lt_iff_lt]

theorem then_eq_gt_iff :
    (compare exponent other).then (compare digits others) = .gt ↔
      other < exponent ∨ exponent = other ∧ others < digits := by
  rw [Ordering.then_eq_gt, compare_gt_iff_gt, compare_eq_iff_eq, compare_gt_iff_gt]

theorem isLE_then_iff :
    ((compare exponent other).then (compare digits others)).isLE = true ↔
      exponent < other ∨ exponent = other ∧ digits ≤ others := by
  rw [Ordering.isLE_iff_ne_gt, then_eq_gt_iff]
  omega

theorem isGE_then_iff :
    ((compare exponent other).then (compare digits others)).isGE = true ↔
      other < exponent ∨ exponent = other ∧ others ≤ digits := by
  rw [Ordering.isGE_iff_ne_lt, then_eq_lt_iff]
  omega

theorem compare_negative_positive :
    compare UnpackedFloat.Sign.negative UnpackedFloat.Sign.positive = .lt :=
  rfl

theorem compare_positive_negative :
    compare UnpackedFloat.Sign.positive UnpackedFloat.Sign.negative = .gt :=
  rfl

theorem compare_sign_self (sign : UnpackedFloat.Sign) :
    compare sign sign = .eq := by
  cases sign <;> rfl

end Comparing

theorem le_iff_place?
    (first second : UnpackedFloat) :
    first.le second = true ↔
      ∃ place other, place? first = some place ∧ place? second = some other ∧ place ≤ other := by
  rcases first with sign | _ | sign | ⟨sign, digits, exponent, isPositive⟩ <;>
    rcases second with other | _ | other | ⟨other, others, otherExponent, isPositiveToo⟩ <;>
    (try cases sign) <;> (try cases other) <;>
    dsimp only [UnpackedFloat.le, UnpackedFloat.compare, place?] <;>
    simp [Prod.Lex.le_iff, isLE_then_iff, isGE_then_iff, compare_negative_positive,
      compare_positive_negative, compare_sign_self]

theorem lt_iff_place?
    (first second : UnpackedFloat) :
    first.lt second = true ↔
      ∃ place other, place? first = some place ∧ place? second = some other ∧ place < other := by
  rcases first with sign | _ | sign | ⟨sign, digits, exponent, isPositive⟩ <;>
    rcases second with other | _ | other | ⟨other, others, otherExponent, isPositiveToo⟩ <;>
    (try cases sign) <;> (try cases other) <;>
    dsimp only [UnpackedFloat.lt, UnpackedFloat.compare, place?] <;>
    simp [Prod.Lex.lt_iff, then_eq_lt_iff, then_eq_gt_iff, compare_negative_positive,
      compare_positive_negative, compare_sign_self]

/-- One double is at most another if its place is. -/
theorem le_iff
    (first second : Float) :
    first ≤ second ↔
      ∃ place other,
        place? first.toModel.unpack = some place ∧
          place? second.toModel.unpack = some other ∧ place ≤ other := by
  rw [← le_iff_place?]
  exact decide_eq_true_iff

/-- One double is below another if its place is. -/
theorem lt_iff
    (first second : Float) :
    first < second ↔
      ∃ place other,
        place? first.toModel.unpack = some place ∧
          place? second.toModel.unpack = some other ∧ place < other := by
  rw [← lt_iff_place?]
  exact decide_eq_true_iff

end Double

/-- Doubles never contradict each other, NaN among them. -/
instance : ComparableScalar Float where
  le_trans first second third := by
    simp only [Double.le_iff]
    rintro ⟨place, other, isPlace, isOther, atMost⟩ ⟨again, last, isAgain, isLast, atMostToo⟩
    obtain rfl := Option.some.inj (isOther.symm.trans isAgain)
    exact ⟨place, last, isPlace, isLast, atMost.trans atMostToo⟩
  lt_iff_le_not_le first second := by
    simp only [Double.le_iff, Double.lt_iff]
    constructor
    · rintro ⟨place, other, isPlace, isOther, isBelow⟩
      refine ⟨⟨place, other, isPlace, isOther, isBelow.le⟩, ?_⟩
      rintro ⟨again, same, isAgain, isSame, atMost⟩
      obtain rfl := Option.some.inj (isOther.symm.trans isAgain)
      obtain rfl := Option.some.inj (isPlace.symm.trans isSame)
      exact atMost.not_gt isBelow
    · rintro ⟨⟨place, other, isPlace, isOther, -⟩, notAtMost⟩
      refine ⟨place, other, isPlace, isOther, lt_of_not_ge fun atMost => notAtMost ?_⟩
      exact ⟨other, place, isOther, isPlace, atMost⟩

end Optima
