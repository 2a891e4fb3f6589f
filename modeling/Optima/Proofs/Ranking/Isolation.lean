import Optima.Proofs.Ranking.Crowding
import Optima.Proofs.Scalar.Solving

namespace Optima

/-!
# Isolation among points

The crowding distance of a member is a function of its own vector and of the vectors of the
front, in whatever order they are listed.  Along each objective the two extreme values become
infinitely isolated, and every other value gains a share of the range, which is at most one.
-/

namespace Crowding

variable {α : Type} [Scalar α]

/-- Numbers in ascending order. -/
def sorted (numbers : List α) : List α :=
  (Scalar.ascending numbers).map fun position => numbers.getD position 0

/-- The numbers on both sides of a value among numbers in ascending order. -/
def neighbours? (value : α) : List α → Option (α × α)
  | before :: member :: after :: rest =>
    if member == value then some (before, after)
    else neighbours? value (member :: after :: rest)
  | _ => none

/-- The distance after a share of the range, for a value between two others. -/
def addShare (range distance : α) : Option (α × α) → α
  | some (before, after) => distance + (after - before) / range
  | none => distance

/-- The distance of a value after the objective along which numbers stand in ascending order. -/
def isolate (ordered : List α) (value distance : α) : α :=
  let least := ordered.headD 0
  let greatest := ordered.getLastD 0
  let marked := if value == least || value == greatest then Scalar.infinity else distance
  if greatest - least < leastRange then marked
  else addShare (greatest - least) marked (neighbours? value ordered)

/-- The crowding distance of a vector among those of a front, from the objectives at indices. -/
def distanceAmong (vectors : List (List α)) (indices : List Nat) (vector : List α) : α :=
  indices.foldl
    (fun distance index =>
      isolate (sorted (component vectors index)) (vector.getD index 0) distance) 0

/-- No vector has a smaller value at an index, or none has a larger one. -/
def IsExtreme (vectors : List (List α)) (index : Nat) (vector : List α) : Prop :=
  (∀ other ∈ vectors, vector.getD index 0 ≤ other.getD index 0) ∨
    ∀ other ∈ vectors, other.getD index 0 ≤ vector.getD index 0

section Sorting

variable {numbers others : List α}

/-- Putting numbers in order neither loses a number nor repeats one. -/
theorem sorted_perm
    (numbers : List α) :
    (sorted numbers).Perm numbers :=
  calc (sorted numbers).Perm
        ((List.range numbers.length).map fun position => numbers.getD position 0) :=
        (Scalar.ascending_perm numbers).map _
    _ = numbers := map_getD_range numbers 0

theorem pairwise_sorted
    [NumericScalar α]
    (areNumbers : ∀ number ∈ numbers, Scalar.isNaN number = false) :
    (sorted numbers).Pairwise (· ≤ ·) :=
  List.pairwise_map.mpr (Scalar.pairwise_getD_ascending areNumbers)

/-- The ends of numbers in order are the numbers at the ends of the order of positions. -/
theorem ends_sorted
    (someNumber : numbers ≠ []) :
    (sorted numbers).headD 0 = numbers.getD ((Scalar.ascending numbers).headD 0) 0 ∧
      (sorted numbers).getLastD 0 = numbers.getD ((Scalar.ascending numbers).getLastD 0) 0 := by
  have someOrder : Scalar.ascending numbers ≠ [] := by
    intro noOrder
    have noNumber := (Scalar.ascending_perm numbers).length_eq
    rw [noOrder, List.length_range, List.length_nil] at noNumber
    exact someNumber (List.length_eq_zero_iff.mp noNumber.symm)
  rw [sorted, List.headD_eq_head?_getD, List.headD_eq_head?_getD, List.getLastD_eq_getLast?,
    List.getLastD_eq_getLast?, List.head?_map, List.getLast?_map,
    List.head?_eq_some_head someOrder, List.getLast?_eq_some_getLast someOrder]
  exact ⟨rfl, rfl⟩

/-- There is one ascending order of exact numbers. -/
theorem sorted_eq_of_perm
    [ArithmeticScalar α]
    (areNumbers : ∀ number ∈ numbers, Scalar.isNaN number = false)
    (isPerm : numbers.Perm others) :
    sorted numbers = sorted others := by
  have areNumbersToo : ∀ number ∈ others, Scalar.isNaN number = false :=
    fun number isNumber => areNumbers number (isPerm.mem_iff.mpr isNumber)
  refine List.Perm.eq_of_pairwise ?_ (pairwise_sorted areNumbers)
    (pairwise_sorted areNumbersToo) ?_
  · exact fun first second _ _ => ExactScalar.le_antisymm first second
  · exact (sorted_perm numbers).trans (isPerm.trans (sorted_perm others).symm)

section Ends

variable [OrderedScalar α] {ordered : List α} {value : α}

theorem headD_le_of_pairwise
    (areOrdered : ordered.Pairwise (· ≤ ·))
    (isMember : value ∈ ordered) :
    ordered.headD 0 ∈ ordered ∧ ordered.headD 0 ≤ value := by
  cases ordered with
  | nil => cases isMember
  | cons least rest =>
      refine ⟨List.mem_cons_self, ?_⟩
      rcases List.mem_cons.mp isMember with rfl | isLater
      · exact OrderedScalar.le_refl _
      · exact List.rel_of_pairwise_cons areOrdered isLater

theorem le_getLastD_of_pairwise
    (areOrdered : ordered.Pairwise (· ≤ ·))
    (isMember : value ∈ ordered) :
    ordered.getLastD 0 ∈ ordered ∧ value ≤ ordered.getLastD 0 := by
  induction ordered using List.reverseRecOn with
  | nil => cases isMember
  | append_singleton rest greatest _ =>
      rw [List.getLastD_concat]
      refine ⟨by simp, ?_⟩
      rcases List.mem_append.mp isMember with isEarlier | isLast
      · exact (List.pairwise_append.mp areOrdered).2.2 value isEarlier greatest (by simp)
      · rw [List.mem_singleton.mp isLast]

end Ends

end Sorting

section Neighbours

variable {numbers ordered distances : List α} {value range : α} {order : List Nat}
  {position : Nat}

/-- A value that is not met behind the first number has no neighbours. -/
theorem neighbours?_eq_none
    (notMet : ∀ number ∈ ordered.tail, (number == value) = false) :
    neighbours? value ordered = none := by
  fun_induction neighbours? value ordered with
  | case1 before member after rest isSame =>
      rw [notMet member List.mem_cons_self] at isSame
      cases isSame
  | case2 before member after rest notSame inductionHypothesis =>
      exact inductionHypothesis fun number isNumber =>
        notMet number (List.mem_cons_of_mem member isNumber)
  | case3 => rfl

/-- Neighbours are numbers of the list, and they are in order. -/
theorem neighbours_of_eq_some
    {before after : α}
    (areOrdered : ordered.Pairwise (· ≤ ·))
    (areNeighbours : neighbours? value ordered = some (before, after)) :
    before ∈ ordered ∧ after ∈ ordered ∧ before ≤ after := by
  fun_induction neighbours? value ordered with
  | case1 least member greatest rest isSame =>
      obtain ⟨rfl, rfl⟩ := Prod.mk.inj (Option.some.inj areNeighbours)
      exact ⟨by simp, by simp, List.rel_of_pairwise_cons areOrdered (by simp)⟩
  | case2 least member greatest rest notSame inductionHypothesis =>
      obtain ⟨isBefore, isAfter, inOrder⟩ :=
        inductionHypothesis (List.pairwise_cons.mp areOrdered).2 areNeighbours
      exact ⟨List.mem_cons_of_mem _ isBefore, List.mem_cons_of_mem _ isAfter, inOrder⟩
  | case3 => cases areNeighbours

/-- What a member gains along an objective depends on the neighbours of its value alone, if no
other member has the value. -/
theorem getD_spread
    [OrderedScalar α]
    (areDistinct : order.Nodup)
    (isOnly :
      ∀ other ∈ order, (numbers.getD other 0 == numbers.getD position 0) = true →
        other = position)
    (inRange : position < distances.length) :
    (spread numbers range order distances).getD position 0 =
      addShare range (distances.getD position 0)
        (neighbours? (numbers.getD position 0)
          (order.map fun other => numbers.getD other 0)) := by
  fun_induction spread numbers range order distances with
  | case1 before member after rest distances gap inductionHypothesis =>
      obtain ⟨-, restDistinct⟩ := List.nodup_cons.mp areDistinct
      rw [inductionHypothesis restDistinct
        (fun other isOther => isOnly other (List.mem_cons_of_mem before isOther))
        (by simpa using inRange)]
      simp only [List.map_cons, neighbours?]
      by_cases isMember : member = position
      · -- The value is not met again, so this is the only share.
        subst isMember
        obtain ⟨notAgain, -⟩ := List.nodup_cons.mp restDistinct
        have noNeighbours :
            neighbours? (numbers.getD member 0)
              (numbers.getD member 0 :: numbers.getD after 0 ::
                rest.map fun other => numbers.getD other 0) = none := by
          apply neighbours?_eq_none
          intro number isNumber
          rw [List.tail_cons, ← List.map_cons (f := fun other => numbers.getD other 0)] at isNumber
          obtain ⟨other, isOther, rfl⟩ := List.mem_map.mp isNumber
          by_contra isSame
          obtain rfl := isOnly other (by simp [List.mem_cons.mp isOther])
            (Bool.not_eq_false _ ▸ isSame)
          exact notAgain isOther
        rw [noNeighbours, if_pos (OrderedScalar.beq_self _)]
        simp [addShare, gap, inRange]
      · have notSame : (numbers.getD member 0 == numbers.getD position 0) = false := by
          by_contra isSame
          exact isMember (isOnly member (by simp) (Bool.not_eq_false _ ▸ isSame))
        rw [if_neg (by rw [notSame]; exact Bool.false_ne_true)]
        simp [isMember]
  | case2 order distances notLong =>
      have noNeighbours :
          neighbours? (numbers.getD position 0) (order.map fun other => numbers.getD other 0) =
            none := by
        rcases order with _ | ⟨first, _ | ⟨second, _ | ⟨third, rest⟩⟩⟩
        · rfl
        · rfl
        · rfl
        · exact absurd rfl (notLong first second third rest)
      rw [noNeighbours]
      rfl

end Neighbours

section Members

variable [SolvingScalar α] {vectors : List (List α)} {numbers distances : List α}
  {position : Nat}

/-- Positions of numbers that are all different are told apart by the numbers. -/
theorem eq_of_getD_beq
    (areDistinct : numbers.Nodup)
    {other : Nat}
    (inRange : position < numbers.length)
    (inRangeToo : other < numbers.length)
    (isSame : (numbers.getD other 0 == numbers.getD position 0) = true) :
    other = position := by
  have isSame := Scalar.eq_of_beq isSame
  simp only [List.getD_eq_getElem?_getD, List.getElem?_eq_getElem inRange,
    List.getElem?_eq_getElem inRangeToo, Option.getD_some] at isSame
  exact (areDistinct.getElem_inj_iff).mp isSame

/-- One more objective changes the distance of a member as it does that of its value. -/
theorem getD_alongObjective
    (areNumbers : ∀ number ∈ numbers, Scalar.isNaN number = false)
    (areDistinct : numbers.Nodup)
    (sameLength : distances.length = numbers.length)
    (inRange : position < numbers.length) :
    (alongObjective distances numbers).getD position 0 =
      isolate (sorted numbers) (numbers.getD position 0) (distances.getD position 0) := by
  have someNumber : numbers ≠ [] := List.ne_nil_of_length_pos (Nat.zero_lt_of_lt inRange)
  obtain ⟨first, last, isFirst, isLast, firstInRange, lastInRange, -⟩ :=
    exists_ends areNumbers someNumber
  obtain ⟨isLeast, isGreatest⟩ := ends_sorted someNumber
  rw [isFirst] at isLeast
  rw [isLast] at isGreatest
  have isPerm := Scalar.ascending_perm numbers
  have isOnly :
      ∀ other ∈ Scalar.ascending numbers,
        (numbers.getD other 0 == numbers.getD position 0) = true → other = position :=
    fun other isOther => eq_of_getD_beq areDistinct inRange
      (List.mem_range.mp (isPerm.mem_iff.mp isOther))
  have atEnd :
      (numbers.getD position 0 == numbers.getD first 0 ||
        numbers.getD position 0 == numbers.getD last 0) = true ↔
          position = first ∨ position = last := by
    rw [Bool.or_eq_true]
    constructor
    · exact Or.imp (eq_of_getD_beq areDistinct firstInRange inRange)
        (eq_of_getD_beq areDistinct lastInRange inRange)
    · rintro (rfl | rfl)
      · exact .inl (OrderedScalar.beq_self _)
      · exact .inr (OrderedScalar.beq_self _)
  have atMarked :
      ((distances.set first Scalar.infinity).set last Scalar.infinity).getD position 0 =
        if numbers.getD position 0 == numbers.getD first 0 ||
          numbers.getD position 0 == numbers.getD last 0 then Scalar.infinity
        else distances.getD position 0 := by
    rw [getD_set_set distances (sameLength ▸ firstInRange) (sameLength ▸ lastInRange)]
    exact if_congr atEnd.symm rfl rfl
  unfold alongObjective isolate
  dsimp only
  rw [isFirst, isLast, isLeast, isGreatest, ← atMarked]
  split
  · rfl
  · exact getD_spread (isPerm.nodup_iff.mpr List.nodup_range) isOnly
      (by simpa [sameLength] using inRange)

/-- Crowding distances are those of the vectors, each among those of the front. -/
theorem getD_distances
    {dimension : Nat}
    (manyMembers : 2 < vectors.length)
    (sameDimension : ∀ vector ∈ vectors, vector.length = dimension)
    (areNumbers :
      ∀ index < dimension, ∀ number ∈ component vectors index, Scalar.isNaN number = false)
    (areDistinct : ∀ index < dimension, (component vectors index).Nodup)
    (inRange : position < vectors.length) :
    (Crowding.distances vectors).getD position 0 =
      distanceAmong vectors (List.range dimension) (vectors.getD position []) := by
  have isDimension : (vectors.headD []).length = dimension := by
    obtain ⟨vector, rest, rfl⟩ :=
      List.exists_cons_of_ne_nil (List.ne_nil_of_length_pos (Nat.zero_lt_of_lt inRange))
    exact sameDimension vector List.mem_cons_self
  have carried
      (indices : List Nat)
      (areIndices : ∀ index ∈ indices, index < dimension)
      (current : List α)
      (sameLength : current.length = vectors.length) :
      (indices.foldl
          (fun current index => alongObjective current (component vectors index))
          current).getD position 0 =
        indices.foldl
          (fun distance index =>
            isolate (sorted (component vectors index))
              ((vectors.getD position []).getD index 0) distance)
          (current.getD position 0) := by
    induction indices generalizing current with
    | nil => rfl
    | cons index indices inductionHypothesis =>
        obtain ⟨isIndex, restIndices⟩ := List.forall_mem_cons.mp areIndices
        have sameLengthToo : (component vectors index).length = vectors.length :=
          List.length_map _
        rw [List.foldl_cons, List.foldl_cons,
          inductionHypothesis restIndices _ (by rw [length_alongObjective, sameLength]),
          getD_alongObjective (areNumbers index isIndex) (areDistinct index isIndex)
            (sameLength.trans sameLengthToo.symm) (sameLengthToo ▸ inRange),
          getD_component vectors index inRange]
  rw [Crowding.distances, if_neg (by omega), isDimension,
    carried _ (fun index => List.mem_range.mp) _ (List.length_map _), distanceAmong]
  congr 1
  simp [inRange]

omit [SolvingScalar α] in
theorem component_perm
    {others : List (List α)}
    (isPerm : vectors.Perm others)
    (index : Nat) :
    (component vectors index).Perm (component others index) :=
  isPerm.map _

omit [SolvingScalar α] in
/-- The distance of a vector is the same among vectors that are listed in another order. -/
theorem distanceAmong_eq_of_perm
    [ArithmeticScalar α]
    {others : List (List α)}
    {indices : List Nat}
    (areNumbers :
      ∀ index ∈ indices, ∀ number ∈ component vectors index, Scalar.isNaN number = false)
    (isPerm : vectors.Perm others)
    (vector : List α) :
    distanceAmong vectors indices vector = distanceAmong others indices vector := by
  apply List.foldl_ext
  intro distance index isIndex
  rw [sorted_eq_of_perm (areNumbers index isIndex) (component_perm isPerm index)]

/-- The ends of the order along an objective are its extreme values. -/
theorem isEnd_iff_isExtreme
    {vector : List α}
    {index : Nat}
    (areFinite : Scalar.AreFinite (component vectors index))
    (isMember : vector ∈ vectors) :
    (vector.getD index 0 == (sorted (component vectors index)).headD 0 ||
      vector.getD index 0 == (sorted (component vectors index)).getLastD 0) = true ↔
        IsExtreme vectors index vector := by
  have isPerm := sorted_perm (component vectors index)
  have areOrdered :=
    pairwise_sorted fun number isNumber => Scalar.isNaN_of_isFinite (areFinite number isNumber)
  have isValue {other : List α} (isOther : other ∈ vectors) :
      other.getD index 0 ∈ sorted (component vectors index) :=
    isPerm.mem_iff.mpr (List.mem_map_of_mem isOther)
  have ofValue {number : α} (isNumber : number ∈ sorted (component vectors index)) :
      ∃ other ∈ vectors, other.getD index 0 = number :=
    List.mem_map.mp (isPerm.mem_iff.mp isNumber)
  obtain ⟨isLeast, fromLeast⟩ := headD_le_of_pairwise areOrdered (isValue isMember)
  obtain ⟨isGreatest, toGreatest⟩ := le_getLastD_of_pairwise areOrdered (isValue isMember)
  rw [Bool.or_eq_true, OrderedScalar.beq_iff_le, OrderedScalar.beq_iff_le,
    and_iff_left fromLeast, and_iff_right toGreatest]
  refine or_congr ⟨fun atLeast other isOther => ?_, fun isSmallest => ?_⟩
    ⟨fun atMost other isOther => ?_, fun isLargest => ?_⟩
  · exact atLeast.trans (headD_le_of_pairwise areOrdered (isValue isOther)).2
  · obtain ⟨other, isOther, isSame⟩ := ofValue isLeast
    exact isSame ▸ isSmallest other isOther
  · exact (le_getLastD_of_pairwise areOrdered (isValue isOther)).2.trans atMost
  · obtain ⟨other, isOther, isSame⟩ := ofValue isGreatest
    exact isSame ▸ isLargest other isOther

end Members

section Shares

variable [SolvingScalar α] [SpacingScalar α] {vectors : List (List α)} {vector : List α}
  {ordered : List α} {value : α} {index : Nat}

/-- A value gains a share of the range, once it is infinitely isolated if it is an end of it. -/
theorem exists_share
    (areOrdered : ordered.Pairwise (· ≤ ·))
    (areFinite : Scalar.AreFinite ordered)
    (isMember : value ∈ ordered)
    (distance : α) :
    ∃ share, 0 ≤ share ∧ share ≤ 1 ∧
      isolate ordered value distance =
        (if value == ordered.headD 0 || value == ordered.getLastD 0 then Scalar.infinity
          else distance) + share := by
  obtain ⟨isLeast, fromLeast⟩ := headD_le_of_pairwise areOrdered isMember
  obtain ⟨isGreatest, toGreatest⟩ := le_getLastD_of_pairwise areOrdered isMember
  have atMostOne : (0 : α) ≤ 1 :=
    (Scalar.le_iff_of_toRat? FractionalScalar.toRat?_zero FractionalScalar.toRat?_one).mpr
      zero_le_one
  unfold isolate
  dsimp only
  generalize (if value == ordered.headD 0 || value == ordered.getLastD 0 then Scalar.infinity
    else distance) = marked
  split
  · exact ⟨0, le_rfl, atMostOne, (add_zero marked).symm⟩
  · rename_i notNarrow
    cases areNeighbours : neighbours? value ordered with
    | none => exact ⟨0, le_rfl, atMostOne, (add_zero marked).symm⟩
    | some pair =>
        obtain ⟨before, after⟩ := pair
        obtain ⟨isBefore, isAfter, inOrder⟩ := neighbours_of_eq_some areOrdered areNeighbours
        have isShare := share_of_range (Scalar.isNaN_of_isFinite (areFinite _ isLeast))
          (Scalar.isNaN_of_isFinite (areFinite _ isGreatest)) (fromLeast.trans toGreatest)
          (Scalar.fraction_sub (areFinite _ isGreatest) (areFinite _ isLeast)).1 notNarrow
          before after (headD_le_of_pairwise areOrdered isBefore).2 inOrder
          (le_getLastD_of_pairwise areOrdered isAfter).2
        exact ⟨_, isShare.1, isShare.2, rfl⟩

omit [SpacingScalar α] in
theorem ofInt_add_one
    (count : Nat) :
    (Scalar.ofInt (count + 1 : Nat) : α) = Scalar.ofInt count + 1 := by
  obtain ⟨isFinite, isCount⟩ := Scalar.fraction_ofInt (α := α) count
  obtain ⟨isFiniteNext, isNext⟩ := Scalar.fraction_ofInt (α := α) (count + 1 : Nat)
  obtain ⟨isFiniteSum, isSum⟩ := Scalar.fraction_add isFinite Scalar.isFinite_one
  apply Scalar.eq_of_fraction_eq isFiniteNext isFiniteSum
  rw [isNext, isSum, isCount, Scalar.fraction_one]
  norm_cast

omit [SpacingScalar α] in
theorem ofInt_zero :
    (Scalar.ofInt 0 : α) = 0 := by
  obtain ⟨isFinite, isZero⟩ := Scalar.fraction_ofInt (α := α) 0
  apply Scalar.eq_of_fraction_eq isFinite Scalar.isFinite_zero
  rw [isZero, Scalar.fraction_zero, Int.cast_zero]

/-- The distance of a vector is infinite if it is extreme along one of the objectives, and at most
their number otherwise. -/
theorem isolated_or_shared
    (indices : List Nat)
    (areFinite : ∀ index ∈ indices, Scalar.AreFinite (component vectors index))
    (isMember : vector ∈ vectors) :
    (Scalar.infinity ≤ distanceAmong vectors indices vector ∧
        ∃ index ∈ indices, IsExtreme vectors index vector) ∨
      ((0 ≤ distanceAmong vectors indices vector ∧
          distanceAmong vectors indices vector ≤ Scalar.ofInt indices.length) ∧
        ∀ index ∈ indices, ¬ IsExtreme vectors index vector) := by
  -- Objectives are added at the end, so the induction is on the indices from behind.
  induction indices using List.reverseRecOn with
  | nil => exact .inr ⟨⟨le_rfl, ofInt_zero.ge⟩, nofun⟩
  | append_singleton indices index inductionHypothesis =>
      obtain ⟨beforeFinite, isFinite⟩ := List.forall_mem_append.mp areFinite
      have isFinite := isFinite index List.mem_cons_self
      have isPerm := sorted_perm (component vectors index)
      have isValue : vector.getD index 0 ∈ component vectors index :=
        List.mem_map_of_mem isMember
      obtain ⟨share, isPositive, atMostOne, isShare⟩ :=
        exists_share
          (pairwise_sorted fun number isNumber =>
            Scalar.isNaN_of_isFinite (isFinite number isNumber))
          (fun number isNumber => isFinite number (isPerm.mem_iff.mp isNumber))
          (isPerm.mem_iff.mpr isValue) (distanceAmong vectors indices vector)
      have isNext :
          distanceAmong vectors (indices ++ [index]) vector =
            isolate (sorted (component vectors index)) (vector.getD index 0)
              (distanceAmong vectors indices vector) := by
        rw [distanceAmong, List.foldl_append]
        rfl
      rw [isNext, isShare]
      by_cases isExtreme : IsExtreme vectors index vector
      · rw [if_pos ((isEnd_iff_isExtreme isFinite isMember).mpr isExtreme)]
        exact .inl ⟨isInfinite_add_share _ _ isPositive atMostOne infinity_le_infinity,
          index, by simp, isExtreme⟩
      · rw [if_neg (mt (isEnd_iff_isExtreme isFinite isMember).mp isExtreme)]
        rcases inductionHypothesis beforeFinite with
          ⟨isInfinite, earlier, isEarlier, isExtremeToo⟩ | ⟨⟨fromZero, toCount⟩, noExtreme⟩
        · exact .inl ⟨isInfinite_add_share _ _ isPositive atMostOne isInfinite,
            earlier, List.mem_append_left _ isEarlier, isExtremeToo⟩
        · refine .inr ⟨⟨add_nonneg fromZero isPositive, ?_⟩, ?_⟩
          · rw [List.length_append, List.length_singleton, ofInt_add_one]
            exact add_le_add toCount atMostOne
          · exact List.forall_mem_append.mpr
              ⟨noExtreme, List.forall_mem_singleton.mpr isExtreme⟩

omit [SpacingScalar α] in
/-- At a place of a front that is listed in another order stands the distance of the vector there,
among the vectors of the front. -/
theorem getD_distances_of_perm
    {listed : List (List α)}
    {dimension rank : Nat}
    (manyMembers : 2 < vectors.length)
    (sameDimension : ∀ vector ∈ vectors, vector.length = dimension)
    (areFinite : ∀ index < dimension, Scalar.AreFinite (component vectors index))
    (areDistinct : ∀ index < dimension, (component vectors index).Nodup)
    (isPerm : vectors.Perm listed)
    (inRange : rank < listed.length) :
    (distances listed).getD rank 0 =
      distanceAmong vectors (List.range dimension) (listed.getD rank []) := by
  have areNumbers (index : Nat) (isIndex : index < dimension) :
      ∀ number ∈ component vectors index, Scalar.isNaN number = false :=
    fun number isNumber => Scalar.isNaN_of_isFinite (areFinite index isIndex number isNumber)
  calc (distances listed).getD rank 0
      = distanceAmong listed (List.range dimension) (listed.getD rank []) := by
        apply getD_distances (isPerm.length_eq ▸ manyMembers)
        · exact fun vector isVector => sameDimension vector (isPerm.mem_iff.mpr isVector)
        · exact fun index isIndex number isNumber =>
            areNumbers index isIndex number ((component_perm isPerm index).mem_iff.mpr isNumber)
        · exact fun index isIndex =>
            (component_perm isPerm index).nodup_iff.mp (areDistinct index isIndex)
        · exact inRange
    _ = distanceAmong vectors (List.range dimension) (listed.getD rank []) :=
        (distanceAmong_eq_of_perm
          (fun index isIndex => areNumbers index (List.mem_range.mp isIndex)) isPerm _).symm

/-- Infinite are just the distances of extreme vectors, and all others are at most the number of
objectives. -/
theorem isInfinite_iff_isExtreme
    {dimension : Nat}
    (areFinite : ∀ index < dimension, Scalar.AreFinite (component vectors index))
    (isMember : vector ∈ vectors) :
    (Scalar.infinity ≤ distanceAmong vectors (List.range dimension) vector ↔
        ∃ index < dimension, IsExtreme vectors index vector) ∧
      (¬ Scalar.infinity ≤ distanceAmong vectors (List.range dimension) vector →
        0 ≤ distanceAmong vectors (List.range dimension) vector ∧
          distanceAmong vectors (List.range dimension) vector ≤ Scalar.ofInt dimension) := by
  have countIsFinite := (Scalar.fraction_ofInt (α := α) dimension).1
  rcases isolated_or_shared (List.range dimension)
      (fun index isIndex => areFinite index (List.mem_range.mp isIndex)) isMember with
    ⟨isInfinite, index, isIndex, isExtreme⟩ | ⟨isShared, noExtreme⟩
  · exact ⟨iff_of_true isInfinite ⟨index, List.mem_range.mp isIndex, isExtreme⟩,
      fun notInfinite => absurd isInfinite notInfinite⟩
  · rw [List.length_range] at isShared
    refine ⟨iff_of_false ?_ ?_, fun _ => isShared⟩
    · intro isInfinite
      exact ComparableScalar.not_le_of_lt (SpacingScalar.lt_infinity _ countIsFinite)
        (isInfinite.trans isShared.2)
    · rintro ⟨index, isIndex, isExtreme⟩
      exact noExtreme index (List.mem_range.mpr isIndex) isExtreme

/-- The crowding distances of a front belong to its points: they move with them when the front is
listed in another order.  Infinite are just those of extreme members, and all others are at most
the number of objectives. -/
theorem distances_move_with_members
    {dimension : Nat}
    (manyMembers : 2 < vectors.length)
    (sameDimension : ∀ vector ∈ vectors, vector.length = dimension)
    (areFinite : ∀ vector ∈ vectors, Scalar.AreFinite vector)
    (areDistinct : ∀ index < dimension, (component vectors index).Nodup) :
    (∀ positions : List Nat, positions.Perm (List.range vectors.length) →
        distances (positions.map fun position => vectors.getD position []) =
          positions.map fun position => (distances vectors).getD position 0) ∧
      ∀ position < vectors.length,
        (Scalar.infinity ≤ (distances vectors).getD position 0 ↔
            ∃ index < dimension, IsExtreme vectors index (vectors.getD position [])) ∧
          (¬ Scalar.infinity ≤ (distances vectors).getD position 0 →
            0 ≤ (distances vectors).getD position 0 ∧
              (distances vectors).getD position 0 ≤ Scalar.ofInt dimension) := by
  have componentFinite (index : Nat) (isIndex : index < dimension) :
      Scalar.AreFinite (component vectors index) := by
    intro number isNumber
    obtain ⟨vector, isVector, rfl⟩ := List.mem_map.mp isNumber
    exact areFinite vector isVector _
      (getD_mem_of_lt (isIndex.trans_eq (sameDimension vector isVector).symm) 0)
  have distanceAt {listed : List (List α)} {rank : Nat} (isPerm : vectors.Perm listed)
      (inRange : rank < listed.length) :
      (distances listed).getD rank 0 =
        distanceAmong vectors (List.range dimension) (listed.getD rank []) :=
    getD_distances_of_perm manyMembers sameDimension componentFinite areDistinct isPerm inRange
  constructor
  · intro positions areAll
    generalize isListed : (positions.map fun position => vectors.getD position []) = listed
    have isPerm : vectors.Perm listed := by
      rw [← isListed]
      exact (List.Perm.of_eq (map_getD_range vectors []).symm).trans (areAll.symm.map _)
    apply List.ext_getElem
    · rw [length_distances, List.length_map, ← isListed, List.length_map]
    · intro rank inRange isRank
      rw [List.length_map] at isRank
      rw [length_distances] at inRange
      have isPosition : positions[rank] < vectors.length :=
        List.mem_range.mp (areAll.mem_iff.mp (List.getElem_mem isRank))
      rw [List.getElem_map]
      calc (distances listed)[rank]
          = (distances listed).getD rank 0 := by simp [inRange]
        _ = distanceAmong vectors (List.range dimension) (listed.getD rank []) :=
          distanceAt isPerm inRange
        _ = distanceAmong vectors (List.range dimension) (vectors.getD positions[rank] []) := by
          simp [← isListed, isRank]
        _ = (distances vectors).getD positions[rank] 0 := (distanceAt (.refl _) isPosition).symm
  · intro position inRange
    rw [distanceAt (.refl _) inRange]
    exact isInfinite_iff_isExtreme componentFinite (getD_mem_of_lt inRange [])

end Shares

/-- Four members of a front with two objectives, none better than another. -/
def staircase : List (List Extended) :=
  [[.finite 0, .finite 4], [.finite 1, .finite 2], [.finite 3, .finite 1], [.finite 6, .finite 0]]

theorem staircase_distances_move :
    2 < staircase.length ∧ (∀ vector ∈ staircase, vector.length = 2) ∧
      (∀ vector ∈ staircase, Scalar.AreFinite vector) ∧
      (∀ index < 2, (component staircase index).Nodup) ∧
      [2, 0, 3, 1].Perm (List.range staircase.length) ∧
      distances ([2, 0, 3, 1].map fun position => staircase.getD position []) =
        [2, 0, 3, 1].map (fun position => (distances staircase).getD position 0) ∧
      Scalar.infinity ≤ (distances staircase).getD 3 0 ∧
      ¬ Scalar.infinity ≤ (distances staircase).getD 2 0 ∧
      0 ≤ (distances staircase).getD 2 0 ∧
      (distances staircase).getD 2 0 ≤ Scalar.ofInt 2 := by
  have manyMembers : 2 < staircase.length := by decide
  have sameDimension : ∀ vector ∈ staircase, vector.length = 2 := by decide
  have areFinite : ∀ vector ∈ staircase, Scalar.AreFinite vector := by
    simp [staircase, Scalar.AreFinite, Scalar.isFinite]
  have areDistinct : ∀ index < 2, (component staircase index).Nodup := by decide
  have isExtreme : ∃ index < 2, IsExtreme staircase index (staircase.getD 3 []) :=
    ⟨0, by decide, .inr (by decide +kernel)⟩
  have notExtreme : ¬ ∃ index < 2, IsExtreme staircase index (staircase.getD 2 []) := by
    unfold IsExtreme
    decide +kernel
  obtain ⟨moved, areIsolated⟩ :=
    distances_move_with_members manyMembers sameDimension areFinite areDistinct
  have notInfinite := mt (areIsolated 2 (by decide)).1.mp notExtreme
  exact ⟨manyMembers, sameDimension, areFinite, areDistinct, by decide, moved _ (by decide),
    (areIsolated 3 (by decide)).1.mpr isExtreme, notInfinite,
    (areIsolated 2 (by decide)).2 notInfinite⟩

end Crowding

end Optima
