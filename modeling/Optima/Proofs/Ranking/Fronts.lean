import Mathlib.Data.Fintype.Card
import Mathlib.Data.List.Count
import Mathlib.Data.List.Flatten
import Mathlib.Data.List.Perm.Lattice
import Optima.Proofs.Lists
import Optima.Proofs.Scalar.Comparison
import Optima.Ranking.Fronts

namespace Optima

/-!
# Dominance and fronts

Candidates are sorted into fronts by the order that dominance is.
-/

/-!
## Dominance is a strict order

No candidate dominates itself, and no two dominate each other.  Of candidates with equally
many objectives, one that dominates a second dominates all that the second dominates.  None
of this asks for numbers that are not NaN: such a number only takes away dominance.
-/

namespace Standing

/-- Candidates whose vectors have a number of objectives. -/
def HasDimension {α : Type} (dimension : Nat) (standings : List (Standing α)) : Prop :=
  ∀ standing ∈ standings, standing.objectives.length = dimension

variable {α : Type} [Scalar α] [ComparableScalar α]
variable {first second third : List α}

/-- A vector that is somewhere below another is not one that the other is nowhere above. -/
theorem not_nowhereAbove_of_somewhereBelow
    (isBelow : somewhereBelow first second = true) :
    ¬ nowhereAbove second first = true := by
  induction first generalizing second with
  | nil =>
      cases isBelow
  | cons value rest inductionHypothesis =>
      cases second with
      | nil => cases isBelow
      | cons other others =>
          simp only [somewhereBelow, nowhereAbove, Bool.or_eq_true, Bool.and_eq_true,
            decide_eq_true_eq] at isBelow ⊢
          rintro ⟨atMost, restAtMost⟩
          rcases isBelow with firstBelow | restBelow
          · exact ComparableScalar.not_le_of_lt firstBelow atMost
          · exact inductionHypothesis restBelow restAtMost

theorem nowhereAbove_trans
    (sameLength : first.length = second.length)
    (sameLengthToo : second.length = third.length)
    (atMost : nowhereAbove first second = true)
    (atMostToo : nowhereAbove second third = true) :
    nowhereAbove first third = true := by
  induction first generalizing second third with
  | nil =>
      cases third <;> rfl
  | cons value rest inductionHypothesis =>
      cases second with
      | nil => cases sameLength
      | cons other others =>
          cases third with
          | nil => rfl
          | cons last remaining =>
              simp only [nowhereAbove, Bool.and_eq_true, decide_eq_true_eq] at atMost atMostToo ⊢
              refine ⟨ComparableScalar.le_trans _ _ _ atMost.1 atMostToo.1, ?_⟩
              exact inductionHypothesis (Nat.succ.inj sameLength) (Nat.succ.inj sameLengthToo)
                atMost.2 atMostToo.2

theorem somewhereBelow_of_nowhereAbove
    (sameLength : second.length = third.length)
    (isBelow : somewhereBelow first second = true)
    (atMost : nowhereAbove second third = true) :
    somewhereBelow first third = true := by
  induction first generalizing second third with
  | nil =>
      cases isBelow
  | cons value rest inductionHypothesis =>
      cases second with
      | nil => cases isBelow
      | cons other others =>
          cases third with
          | nil => cases sameLength
          | cons last remaining =>
              simp only [somewhereBelow, nowhereAbove, Bool.or_eq_true, Bool.and_eq_true,
                decide_eq_true_eq] at isBelow atMost ⊢
              rcases isBelow with firstBelow | restBelow
              · exact .inl (ComparableScalar.lt_of_lt_of_le firstBelow atMost.1)
              · exact .inr (inductionHypothesis (Nat.succ.inj sameLength) restBelow atMost.2)

omit [ComparableScalar α] in
theorem le_of_nowhereAbove
    (atMost : nowhereAbove first second = true)
    {index : Nat}
    (inFirst : index < first.length)
    (inSecond : index < second.length) :
    first.getD index 0 ≤ second.getD index 0 := by
  induction first generalizing second index with
  | nil => simp at inFirst
  | cons value rest inductionHypothesis =>
      cases second with
      | nil => simp at inSecond
      | cons other others =>
          simp only [nowhereAbove, Bool.and_eq_true, decide_eq_true_eq] at atMost
          cases index with
          | zero => exact atMost.1
          | succ index =>
              exact inductionHypothesis atMost.2 (Nat.lt_of_succ_lt_succ inFirst)
                (Nat.lt_of_succ_lt_succ inSecond)

section Dominance

variable {one other another : Standing α}

omit [ComparableScalar α] in
/-- Whoever dominates a feasible candidate is feasible. -/
theorem isFeasible_of_dominates
    (isDominated : one.dominates other = true)
    (isFeasible : other.isFeasible = true) :
    one.isFeasible = true := by
  cases decided : one.isFeasible
  · simp [dominates, decided, isFeasible] at isDominated
  · rfl

omit [ComparableScalar α] in
/-- A feasible candidate that another one dominates is nowhere below it. -/
theorem nowhereAbove_of_dominates
    (isDominated : one.dominates other = true)
    (isFeasible : other.isFeasible = true) :
    nowhereAbove one.objectives other.objectives = true := by
  have isFeasibleToo := isFeasible_of_dominates isDominated isFeasible
  simp only [dominates, isFeasible, isFeasibleToo, Bool.and_eq_true] at isDominated
  exact isDominated.1

/-- No two candidates dominate each other. -/
theorem dominates_asymm
    (isDominated : one.dominates other = true) :
    ¬ other.dominates one = true := by
  intro backwards
  cases isFeasible : one.isFeasible <;> cases isFeasibleToo : other.isFeasible <;>
    simp [dominates, isFeasible, isFeasibleToo] at isDominated backwards
  · exact ComparableScalar.lt_irrefl _ (ComparableScalar.lt_trans isDominated backwards)
  · exact not_nowhereAbove_of_somewhereBelow isDominated.2 backwards.1

/-- No candidate dominates itself. -/
theorem dominates_irrefl
    (standing : Standing α) :
    ¬ standing.dominates standing = true :=
  fun isDominated => dominates_asymm isDominated isDominated

/-- What is dominated by a dominated candidate is dominated. -/
theorem dominates_trans
    (sameLength : one.objectives.length = other.objectives.length)
    (sameLengthToo : other.objectives.length = another.objectives.length)
    (isDominated : one.dominates other = true)
    (isDominatedToo : other.dominates another = true) :
    one.dominates another = true := by
  cases isFeasible : one.isFeasible <;> cases isFeasibleToo : other.isFeasible <;>
    cases isFeasibleLast : another.isFeasible <;>
    simp [dominates, isFeasible, isFeasibleToo, isFeasibleLast] at isDominated isDominatedToo ⊢
  · exact ComparableScalar.lt_trans isDominated isDominatedToo
  · exact ⟨nowhereAbove_trans sameLength sameLengthToo isDominated.1 isDominatedToo.1,
      somewhereBelow_of_nowhereAbove sameLengthToo isDominated.2 isDominatedToo.1⟩

end Dominance

end Standing

/-!
## Fronts

The counters of the peeling are what they are meant to be: the counter of a position is
the number of those that dominate it and have not been peeled off.  So the next front
holds exactly the positions that only peeled ones dominate.  As dominance is a strict
order, there is such a position as long as any is left, and in the end none is.
-/

/-- What is taken from some entries by their numbers comes in the order of the numbers. -/
theorem sublist_filterMap_ite
    {β γ : Type}
    (isTaken : β → Bool)
    (entries : List (β × γ)) :
    (entries.filterMap fun entry => if isTaken entry.1 then some entry.2 else none).Sublist
      (entries.map (·.2)) := by
  induction entries with
  | nil =>
      exact .slnil
  | cons entry rest inductionHypothesis =>
      rw [List.map_cons, List.filterMap_cons]
      cases isTaken entry.1
      · exact inductionHypothesis.cons _
      · exact inductionHypothesis.cons_cons _

namespace Fronts

section Dominated

variable {α : Type} [Scalar α] {standings : List (Standing α)} {first second : Nat}

/-- Whether the candidate at one position dominates the one at another. -/
def dominatesAt (standings : List (Standing α)) (first second : Nat) : Bool :=
  match standings[first]?, standings[second]? with
  | some one, some other => one.dominates other
  | _, _ => false

theorem dominatesAt_iff :
    dominatesAt standings first second = true ↔
      ∃ one other,
        standings[first]? = some one ∧ standings[second]? = some other ∧
          one.dominates other = true := by
  unfold dominatesAt
  cases standings[first]? <;> cases standings[second]? <;> simp

theorem lt_length_of_dominatesAt
    (isDominated : dominatesAt standings first second = true) :
    first < standings.length ∧ second < standings.length := by
  obtain ⟨one, other, isOne, isOther, -⟩ := dominatesAt_iff.mp isDominated
  exact ⟨(List.getElem?_eq_some_iff.mp isOne).1, (List.getElem?_eq_some_iff.mp isOther).1⟩

/-- The set kept for a position holds the positions that it dominates. -/
theorem mem_dominatedSets_iff :
    second ∈ (dominatedSets standings).getD first [] ↔
      dominatesAt standings first second = true := by
  rw [dominatedSets, List.getD_eq_getElem?_getD, List.getElem?_map, dominatesAt_iff]
  cases standings[first]? with
  | none => simp
  | some one =>
      simp [dominatedBy, List.mem_filterMap, List.mem_zipIdx_iff_getElem?]

theorem nodup_dominatedSets
    (standings : List (Standing α))
    (position : Nat) :
    ((dominatedSets standings).getD position []).Nodup := by
  rw [dominatedSets, List.getD_eq_getElem?_getD, List.getElem?_map]
  cases standings[position]? with
  | none => exact .nil
  | some one =>
      refine List.Nodup.sublist (sublist_filterMap_ite one.dominates _) ?_
      rw [List.zipIdx_map_snd]
      exact List.nodup_range' ..

/-- The counter kept for a position starts with the number of positions that dominate it. -/
theorem getD_dominatorCounts
    (standings : List (Standing α))
    (position : Nat) :
    (dominatorCounts standings).getD position 0 =
      (List.range standings.length).countP (dominatesAt standings · position) := by
  rw [dominatorCounts, List.getD_eq_getElem?_getD, List.getElem?_map]
  cases isStanding : standings[position]? with
  | none => simp [dominatesAt, isStanding]
  | some standing =>
      have areDominated :
          (List.range standings.length).map (dominatesAt standings · position) =
            standings.map (·.dominates standing) := by
        rw [← map_range_getElem? standings (·.dominates standing) false]
        refine List.map_congr_left fun other _ => ?_
        cases isOther : standings[other]? <;> simp [dominatesAt, isStanding, isOther]
      calc standings.countP (·.dominates standing)
          = (standings.map (·.dominates standing)).countP id := by
            rw [List.countP_map]
            rfl
        _ = (List.range standings.length).countP (dominatesAt standings · position) := by
            rw [← areDominated, List.countP_map]
            rfl

/-- What is told of a position is the number of positions that it dominates. -/
theorem dominatedCounts_eq
    (standings : List (Standing α)) :
    dominatedCounts standings =
      (List.range standings.length).map fun position =>
        (List.range standings.length).countP (dominatesAt standings position ·) := by
  apply List.ext_getElem
  · simp [dominatedCounts, dominatedSets]
  · intro position inCounts inRange
    have isSet : (dominatedCounts standings)[position] =
        ((dominatedSets standings).getD position []).length := by
      have inSets : position < (dominatedSets standings).length := by
        simpa [dominatedCounts] using inCounts
      simp [dominatedCounts, List.getD_eq_getElem?_getD, List.getElem?_eq_getElem inSets]
    rw [isSet, List.getElem_map, List.getElem_range, List.countP_eq_length_filter]
    refine List.Perm.length_eq ((List.perm_ext_iff_of_nodup (nodup_dominatedSets _ _)
      (List.nodup_range.filter _)).mpr fun other => ?_)
    rw [mem_dominatedSets_iff, List.mem_filter, List.mem_range]
    exact ⟨fun isDominated => ⟨(lt_length_of_dominatesAt isDominated).2, isDominated⟩, And.right⟩

end Dominated

section CountingDown

theorem mem_undominated_iff
    {counts : List Nat}
    {position : Nat} :
    position ∈ undominated counts ↔ counts[position]? = some 0 := by
  simp [undominated, List.mem_filterMap, List.mem_zipIdx_iff_getElem?]

theorem nodup_undominated
    (counts : List Nat) :
    (undominated counts).Nodup := by
  have isPicked :
      undominated counts =
        counts.zipIdx.filterMap fun entry =>
          if (entry.1 == 0) = true then some entry.2 else none := by
    simp [undominated]
  rw [isPicked]
  refine List.Nodup.sublist (sublist_filterMap_ite (· == 0) _) ?_
  rw [List.zipIdx_map_snd]
  exact List.nodup_range' ..

/-- Counting down one position lowers its counter by one. -/
theorem getD_countDown
    (state : List Nat × List Nat)
    (target position : Nat) :
    (countDown state target).1.getD position 0 =
      state.1.getD position 0 - if target = position then 1 else 0 := by
  rw [countDown, List.getD_eq_getElem?_getD, List.getElem?_set]
  by_cases isTarget : target = position
  · subst isTarget
    by_cases inCounts : target < state.1.length <;> simp [inCounts]
  · simp [isTarget]

/-- Counting down a list of positions lowers each counter by how often its position occurs. -/
theorem getD_foldl_countDown
    (targets : List Nat)
    (state : List Nat × List Nat)
    (position : Nat) :
    (targets.foldl countDown state).1.getD position 0 =
      state.1.getD position 0 - targets.count position := by
  induction targets generalizing state with
  | nil =>
      simp
  | cons target rest inductionHypothesis =>
      rw [List.foldl_cons, inductionHypothesis, getD_countDown, List.count_cons]
      by_cases isTarget : target = position <;> simp [isTarget]
      omega

/-- While no counter is taken below zero, those that reach zero are picked, each once. -/
theorem exists_picked_foldl_countDown
    (state : List Nat × List Nat)
    {targets : List Nat}
    (enough : ∀ position ∈ targets, targets.count position ≤ state.1.getD position 0) :
    ∃ picked,
      (targets.foldl countDown state).2 = state.2 ++ picked ∧
        picked.Nodup ∧
        ∀ position,
          position ∈ picked ↔
            position ∈ targets ∧ targets.count position = state.1.getD position 0 := by
  induction targets generalizing state with
  | nil =>
      exact ⟨[], by simp, .nil, by simp⟩
  | cons target rest inductionHypothesis =>
      have countIs (position : Nat) :
          (target :: rest).count position =
            rest.count position + if target = position then 1 else 0 := by
        rw [List.count_cons]
        simp
      have stillEnough :
          ∀ position ∈ rest,
            rest.count position ≤ (countDown state target).1.getD position 0 := by
        intro position inRest
        have isEnough := enough position (List.mem_cons_of_mem target inRest)
        rw [countIs] at isEnough
        rw [getD_countDown]
        omega
      obtain ⟨picked, isPicked, areDistinct, mem_picked⟩ := inductionHypothesis _ stillEnough
      have isEnough := enough target List.mem_cons_self
      rw [countIs, if_pos rfl] at isEnough
      have elsewhere {position : Nat} (isOther : target ≠ position) :
          position ∈ picked ↔
            position ∈ target :: rest ∧
              (target :: rest).count position = state.1.getD position 0 := by
        rw [mem_picked, countIs, getD_countDown, if_neg isOther, List.mem_cons]
        simp [isOther.symm]
      by_cases isLast : state.1.getD target 0 = 1
      · -- The counter reaches zero here, and the position does not come again.
        have notAgain : target ∉ rest := by
          rw [← List.count_pos_iff]
          omega
        refine ⟨target :: picked, ?_, List.nodup_cons.mpr ⟨?_, areDistinct⟩, ?_⟩
        · rw [List.foldl_cons, isPicked, countDown, isLast, if_pos rfl, List.append_assoc,
            List.singleton_append]
        · exact fun isAgain => notAgain ((mem_picked target).mp isAgain).1
        · intro position
          by_cases isTarget : target = position
          · subst isTarget
            rw [countIs, if_pos rfl, List.count_eq_zero.mpr notAgain, isLast]
            simp
          · rw [List.mem_cons, elsewhere isTarget]
            simp [Ne.symm isTarget]
      · refine ⟨picked, ?_, areDistinct, ?_⟩
        · rw [List.foldl_cons, isPicked, countDown, if_neg (by omega)]
        · intro position
          by_cases isTarget : target = position
          · subst isTarget
            rw [mem_picked, countIs, getD_countDown, if_pos rfl, ← List.count_pos_iff,
              ← List.count_pos_iff, countIs]
            simp only [if_true]
            omega
          · exact elsewhere isTarget

end CountingDown

/-- The positions that are left when some are gone. -/
def left (size : Nat) (gone : List Nat) : List Nat :=
  (List.range size).filter fun position => !gone.contains position

@[simp] theorem mem_left_iff
    {size position : Nat}
    {gone : List Nat} :
    position ∈ left size gone ↔ position < size ∧ position ∉ gone := by
  simp [left]

section Peeling

variable {α : Type} [Scalar α] {standings : List (Standing α)} {gone front counts : List Nat}

/-- The number of positions that dominate one and are not among some that are gone. -/
def dominatorsLeft (standings : List (Standing α)) (gone : List Nat) (position : Nat) : Nat :=
  (left standings.length gone).countP (dominatesAt standings · position)

theorem dominatorsLeft_eq_zero_iff
    {position : Nat} :
    dominatorsLeft standings gone position = 0 ↔
      ∀ other, dominatesAt standings other position = true → other ∈ gone := by
  rw [dominatorsLeft, List.countP_eq_zero]
  constructor
  · intro noneLeft other isDominated
    by_contra notGone
    exact noneLeft other
      (mem_left_iff.mpr ⟨(lt_length_of_dominatesAt isDominated).1, notGone⟩) isDominated
  · intro allGone other isLeft isDominated
    exact (mem_left_iff.mp isLeft).2 (allGone other isDominated)

/-- The front that is left behind by some positions: those that only these dominate. -/
structure IsFrontier (standings : List (Standing α)) (gone front : List Nat) : Prop where
  nodup : front.Nodup
  mem_iff :
    ∀ position,
      position ∈ front ↔
        position < standings.length ∧ position ∉ gone ∧
          ∀ other, dominatesAt standings other position = true → other ∈ gone

/-- A state of the peeling: what is gone, the counters, and the front to be peeled off next. -/
structure IsPeeled (standings : List (Standing α)) (gone counts front : List Nat) : Prop where
  isClosed :
    ∀ position ∈ gone, ∀ other, dominatesAt standings other position = true → other ∈ gone
  counts_eq : ∀ position, counts.getD position 0 = dominatorsLeft standings gone position
  isFrontier : IsFrontier standings gone front

/-- Nothing is gone at first. -/
theorem isPeeled_nil
    (standings : List (Standing α)) :
    IsPeeled standings [] (dominatorCounts standings)
      (undominated (dominatorCounts standings)) := by
  have counts_eq (position : Nat) :
      (dominatorCounts standings).getD position 0 = dominatorsLeft standings [] position := by
    rw [getD_dominatorCounts, dominatorsLeft, left, List.filter_eq_self.mpr (by simp)]
  have sameLength : (dominatorCounts standings).length = standings.length := by
    simp [dominatorCounts]
  refine ⟨by simp, counts_eq, nodup_undominated _, fun position => ?_⟩
  rw [mem_undominated_iff, ← dominatorsLeft_eq_zero_iff, ← counts_eq, ← sameLength,
    List.getD_eq_getElem?_getD]
  by_cases inRange : position < (dominatorCounts standings).length
  · simp [inRange]
  · simp [inRange]

/-- What is left is a front and what is left behind it. -/
theorem left_perm_append
    (isFrontier : IsFrontier standings gone front) :
    (left standings.length gone).Perm (front ++ left standings.length (gone ++ front)) := by
  have areDistinct (gone : List Nat) : (left standings.length gone).Nodup :=
    List.nodup_range.filter _
  refine (List.perm_ext_iff_of_nodup (areDistinct gone)
    (isFrontier.nodup.append (areDistinct _) ?_)).mpr fun position => ?_
  · intro position inFront isLeft
    exact (mem_left_iff.mp isLeft).2 (List.mem_append_right gone inFront)
  · rw [List.mem_append, mem_left_iff, mem_left_iff, List.mem_append]
    constructor
    · rintro ⟨inRange, notGone⟩
      by_cases inFront : position ∈ front
      · exact .inl inFront
      · exact .inr ⟨inRange, fun isGone => isGone.elim notGone inFront⟩
    · rintro (inFront | ⟨inRange, notGone⟩)
      · obtain ⟨inRange, notGone, -⟩ := (isFrontier.mem_iff position).mp inFront
        exact ⟨inRange, notGone⟩
      · exact ⟨inRange, fun isGone => notGone (.inl isGone)⟩

/-- The dominators that are left lose those of the front that is peeled off. -/
theorem dominatorsLeft_eq_add
    (isFrontier : IsFrontier standings gone front)
    (position : Nat) :
    dominatorsLeft standings gone position =
      front.countP (dominatesAt standings · position) +
        dominatorsLeft standings (gone ++ front) position := by
  rw [dominatorsLeft, (left_perm_append isFrontier).countP_eq, List.countP_append, dominatorsLeft]

/-- A position is counted down once for each position of the front that dominates it. -/
theorem count_targets
    (standings : List (Standing α))
    (front : List Nat)
    (position : Nat) :
    (front.flatMap fun other => (dominatedSets standings).getD other []).count position =
      front.countP (dominatesAt standings · position) := by
  induction front with
  | nil =>
      rfl
  | cons first rest inductionHypothesis =>
      rw [List.flatMap_cons, List.count_append, inductionHypothesis, List.countP_cons,
        Nat.add_comm, (nodup_dominatedSets standings first).count]
      simp only [mem_dominatedSets_iff]

/-- Peeling off a front leads to a state of the peeling in which it is gone as well. -/
theorem isPeeled_peel
    (isPeeled : IsPeeled standings gone counts front) :
    IsPeeled standings (gone ++ front) (peel (dominatedSets standings) counts front).1
      (peel (dominatedSets standings) counts front).2 := by
  obtain ⟨isClosed, counts_eq, isFrontier⟩ := isPeeled
  have isCounted (position : Nat) :
      counts.getD position 0 =
        (front.flatMap fun other => (dominatedSets standings).getD other []).count position +
          dominatorsLeft standings (gone ++ front) position := by
    rw [count_targets, counts_eq, dominatorsLeft_eq_add isFrontier]
  refine ⟨?_, ?_, ?_⟩
  · intro position isGone other isDominated
    rw [List.mem_append] at isGone ⊢
    rcases isGone with isGone | inFront
    · exact .inl (isClosed position isGone other isDominated)
    · exact .inl (((isFrontier.mem_iff position).mp inFront).2.2 other isDominated)
  · intro position
    rw [peel, getD_foldl_countDown]
    dsimp only
    rw [isCounted]
    omega
  · obtain ⟨picked, isPicked, areDistinct, mem_picked⟩ :=
      exists_picked_foldl_countDown (counts, [])
        (fun position _ => (isCounted position).symm ▸ Nat.le_add_right _ _)
    rw [peel, isPicked, List.nil_append]
    refine ⟨areDistinct, fun position => ?_⟩
    rw [mem_picked, List.mem_flatMap, isCounted, left_eq_add, dominatorsLeft_eq_zero_iff]
    simp only [mem_dominatedSets_iff]
    constructor
    · rintro ⟨⟨other, inFront, isDominated⟩, allGone⟩
      obtain ⟨-, notGone, othersGone⟩ := (isFrontier.mem_iff other).mp inFront
      refine ⟨(lt_length_of_dominatesAt isDominated).2, ?_, allGone⟩
      rw [List.mem_append]
      rintro (isGone | inFrontToo)
      · exact notGone (isClosed position isGone other isDominated)
      · exact notGone (((isFrontier.mem_iff position).mp inFrontToo).2.2 other isDominated)
    · rintro ⟨inRange, notGone, allGone⟩
      rw [List.mem_append, not_or] at notGone
      -- Its last dominators are of the front: without any left it would be of the front itself.
      have someLeft : ¬ ∀ other, dominatesAt standings other position = true → other ∈ gone :=
        fun othersGone =>
          notGone.2 ((isFrontier.mem_iff position).mpr ⟨inRange, notGone.1, othersGone⟩)
      push Not at someLeft
      obtain ⟨other, isDominated, otherLeft⟩ := someLeft
      exact ⟨⟨other, (List.mem_append.mp (allGone other isDominated)).resolve_left otherLeft,
        isDominated⟩, allGone⟩

end Peeling

end Fronts

end Optima
