import Mathlib.Data.List.TakeDrop
import Optima.Evolution.Pareto
import Optima.Proofs.Ranking.Sorting

namespace Optima

/-!
# Survival

Places are filled front by front until one front does not fit, and of that front the most
isolated members are taken.  So whatever dominates a survivor has survived as well, for it
belongs to a front before.
-/

namespace Layering

variable {α : Type} [Scalar α] {layering : Layering α}

theorem byIsolation_perm
    (layering : Layering α)
    (positions : List Nat) :
    (layering.byIsolation positions).Perm positions :=
  List.mergeSort_perm _ _

/-- Where positions have crowding distances, the most isolated ones come first. -/
theorem pairwise_byIsolation
    [NumericScalar α]
    {positions : List Nat}
    (areNumbers :
      ∀ position ∈ positions, Scalar.isNaN (layering.crowdingAt position) = false) :
    (layering.byIsolation positions).Pairwise fun earlier later =>
      ¬ layering.crowdingAt earlier < layering.crowdingAt later := by
  have precedes_iff {first second : Nat}
      (isMember : first ∈ positions)
      (isMemberToo : second ∈ positions) :
      (!decide (-layering.crowdingAt second < -layering.crowdingAt first)) = true ↔
        layering.crowdingAt second ≤ layering.crowdingAt first := by
    simp only [Bool.not_eq_true', decide_eq_false_iff_not, NumericScalar.neg_lt_neg_iff]
    refine ⟨fun notBelow => ?_, fun atMost isBelow => ?_⟩
    · exact NumericScalar.le_of_not_lt _ _ (areNumbers second isMemberToo)
        (areNumbers first isMember) notBelow
    · exact ComparableScalar.not_le_of_lt isBelow atMost
  have sorted : (layering.byIsolation positions).Pairwise fun earlier later =>
      (!decide (-layering.crowdingAt later < -layering.crowdingAt earlier)) = true := by
    refine pairwise_mergeSort_of_mem ?_ ?_
    · intro first isFirst second isSecond third isThird
      rw [precedes_iff isFirst isSecond, precedes_iff isSecond isThird,
        precedes_iff isFirst isThird]
      exact fun atMost atMostToo => ComparableScalar.le_trans _ _ _ atMostToo atMost
    · intro first isFirst second isSecond
      rw [precedes_iff isFirst isSecond, precedes_iff isSecond isFirst]
      by_cases isBelow : layering.crowdingAt first < layering.crowdingAt second
      · exact .inr (ComparableScalar.le_of_lt isBelow)
      · exact .inl (NumericScalar.le_of_not_lt _ _ (areNumbers second isSecond)
          (areNumbers first isFirst) isBelow)
  refine sorted.imp_of_mem fun {earlier later} isEarlier isLater ordered isBelow => ?_
  have isPerm := byIsolation_perm layering positions
  exact ComparableScalar.not_le_of_lt isBelow
    ((precedes_iff (isPerm.mem_iff.mp isEarlier) (isPerm.mem_iff.mp isLater)).mp ordered)

theorem not_lt_of_mem_take
    [NumericScalar α]
    {positions : List Nat}
    {places : Nat}
    (areNumbers :
      ∀ position ∈ positions, Scalar.isNaN (layering.crowdingAt position) = false)
    {kept discarded : Nat}
    (isTaken : kept ∈ (layering.byIsolation positions).take places)
    (isMember : discarded ∈ positions)
    (isDiscarded : discarded ∉ (layering.byIsolation positions).take places) :
    ¬ layering.crowdingAt kept < layering.crowdingAt discarded := by
  have sorted := pairwise_byIsolation areNumbers
  have inOrder := (byIsolation_perm layering positions).mem_iff.mpr isMember
  rw [← List.take_append_drop places (layering.byIsolation positions)] at sorted inOrder
  have isDropped := (List.mem_append.mp inOrder).resolve_left isDiscarded
  exact (List.pairwise_append.mp sorted).2.2 kept isTaken discarded isDropped

/-- Places are filled with all fronts before one that does not fit, and with some of that one. -/
theorem fill_eq
    (layering : Layering α)
    (places : Nat)
    (fronts : List (List Nat)) :
    (fronts.flatten.length ≤ places ∧ layering.fill places fronts = fronts.flatten) ∨
      ∃ before front after,
        fronts = before ++ front :: after ∧
          before.flatten.length ≤ places ∧
          places < before.flatten.length + front.length ∧
          layering.fill places fronts =
            before.flatten ++
              (layering.byIsolation front).take (places - before.flatten.length) := by
  induction fronts generalizing places with
  | nil =>
      exact .inl ⟨Nat.zero_le _, rfl⟩
  | cons front rest inductionHypothesis =>
      by_cases fits : front.length ≤ places
      · rw [fill, if_pos fits]
        rcases inductionHypothesis (places - front.length) with
          ⟨allFit, areAll⟩ | ⟨before, split, after, rfl, beforeFits, isSplit, areTaken⟩
        · refine .inl ⟨?_, by rw [areAll, List.flatten_cons]⟩
          rw [List.flatten_cons, List.length_append]
          omega
        · refine .inr ⟨front :: before, split, after, rfl, ?_, ?_, ?_⟩
          · rw [List.flatten_cons, List.length_append]
            omega
          · rw [List.flatten_cons, List.length_append]
            omega
          · rw [areTaken, List.flatten_cons, List.length_append, List.append_assoc,
              Nat.sub_sub]
      · refine .inr ⟨[], front, rest, rfl, Nat.zero_le _, ?_, ?_⟩
        · simpa using fits
        · rw [fill, if_neg fits]
          rfl

end Layering

/-- What the survivors among some candidates are, if there is a number of places for them. -/
structure AreElite {α : Type} [Scalar α] (standings : List (Standing α)) (places : Nat)
    (survivors : List Nat) : Prop where
  length_eq : survivors.length = places
  nodup : survivors.Nodup
  inRange : ∀ position ∈ survivors, position < standings.length
  /-- No candidate that is discarded dominates one that survives. -/
  isUndominated :
    ∀ discarded, discarded ∉ survivors →
      ∀ survivor ∈ survivors, ¬ Fronts.dominatesAt standings discarded survivor = true
  /-- At most one front is split; the fronts before it survive, and those after it do not.  Where
  its members have crowding distances, none of those that are discarded has a larger one than one
  that survives. -/
  isSplit :
    ∃ before split after,
      Fronts.sort standings = before ++ split ++ after ∧ split.length ≤ 1 ∧
        (∀ position ∈ before.flatten, position ∈ survivors) ∧
        (∀ position ∈ after.flatten, position ∉ survivors) ∧
        ∀ front ∈ split,
          (∀ position ∈ front,
              Scalar.isNaN ((Layering.ofStandings standings).crowdingAt position) = false) →
            ∀ kept ∈ front, kept ∈ survivors → ∀ discarded ∈ front, discarded ∉ survivors →
              ¬ (Layering.ofStandings standings).crowdingAt kept <
                (Layering.ofStandings standings).crowdingAt discarded

namespace Layering

variable {α : Type} [Scalar α]

section First

variable {standings : List (Standing α)} {places : Nat}

theorem first_mem_fronts
    (someMember : (ofStandings standings).first ≠ []) :
    (ofStandings standings).first ∈ Fronts.sort standings := by
  change (Fronts.sort standings).headD [] ≠ [] at someMember
  change (Fronts.sort standings).headD [] ∈ Fronts.sort standings
  cases areFronts : Fronts.sort standings with
  | nil => simp [areFronts] at someMember
  | cons front rest => exact List.mem_cons_self

theorem nodup_first
    [ComparableScalar α]
    {dimension : Nat}
    (sameDimension : Standing.HasDimension dimension standings) :
    (ofStandings standings).first.Nodup := by
  by_cases isEmpty : (ofStandings standings).first = []
  · rw [isEmpty]
    exact .nil
  · exact (List.nodup_flatten.mp (Fronts.areLayers_sort sameDimension).nodup_flatten).1 _
      (first_mem_fronts isEmpty)

theorem lt_length_of_mem_first
    [ComparableScalar α]
    {dimension position : Nat}
    (sameDimension : Standing.HasDimension dimension standings)
    (isFirst : position ∈ (ofStandings standings).first) :
    position < standings.length := by
  have inFlatten := List.mem_flatten.mpr
    ⟨_, first_mem_fronts (List.ne_nil_of_mem isFirst), isFirst⟩
  exact List.mem_range.mp
    ((Fronts.areLayers_sort sameDimension).flatten_perm_range.mem_iff.mp inFlatten)

/-- A first front that fits survives. -/
theorem mem_survivors_of_mem_first
    {position : Nat}
    (fits : (ofStandings standings).first.length ≤ places)
    (isFirst : position ∈ (ofStandings standings).first) :
    position ∈ (ofStandings standings).survivors places := by
  unfold survivors
  unfold first at fits isFirst
  cases areFronts : (ofStandings standings).fronts with
  | nil => simp [areFronts] at isFirst
  | cons front rest =>
      rw [areFronts, List.headD_cons] at fits isFirst
      rw [fill, if_pos fits]
      exact List.mem_append_left _ isFirst

/-- Of a first front that does not fit the most isolated members survive. -/
theorem survivors_eq_take
    (doesNotFit : places < (ofStandings standings).first.length) :
    (ofStandings standings).survivors places =
      ((ofStandings standings).byIsolation (ofStandings standings).first).take places := by
  unfold survivors
  unfold first at doesNotFit ⊢
  cases areFronts : (ofStandings standings).fronts with
  | nil => simp [areFronts] at doesNotFit
  | cons front rest =>
      rw [areFronts, List.headD_cons] at doesNotFit
      rw [List.headD_cons, fill, if_neg (Nat.not_le_of_lt doesNotFit)]

end First

/-- The fronts before one that does not fit, and the most isolated members of that one. -/
theorem areElite_of_split
    [NumericScalar α]
    {places : Nat}
    {standings : List (Standing α)}
    {before after : List (List Nat)}
    {front : List Nat}
    (areLayers : Fronts.AreLayers standings [] (Fronts.sort standings))
    (isSplit : Fronts.sort standings = before ++ front :: after)
    (beforeFits : before.flatten.length ≤ places)
    (frontDoesNot : places < before.flatten.length + front.length) :
    AreElite standings places
      (before.flatten ++
        ((ofStandings standings).byIsolation front).take (places - before.flatten.length)) := by
  have sameMembers := byIsolation_perm (ofStandings standings) front
  have areDistinct := areLayers.nodup_flatten
  rw [isSplit, List.flatten_append, List.flatten_cons] at areDistinct
  obtain ⟨beforeDistinct, othersDistinct, beforeDisjoint⟩ := List.nodup_append.mp areDistinct
  obtain ⟨frontDistinct, -, frontDisjoint⟩ := List.nodup_append.mp othersDistinct
  have inFront {position : Nat}
      (isTaken : position ∈ ((ofStandings standings).byIsolation front).take
        (places - before.flatten.length)) :
      position ∈ front :=
    sameMembers.mem_iff.mp (List.mem_of_mem_take isTaken)
  have isEarly {position : Nat}
      (survives : position ∈ before.flatten ++
        ((ofStandings standings).byIsolation front).take (places - before.flatten.length)) :
      position ∈ before.flatten ++ front :=
    (List.mem_append.mp survives).elim (List.mem_append_left _)
      fun isTaken => List.mem_append_right _ (inFront isTaken)
  refine ⟨?_, ?_, ?_, ?_, before, [front], after, by simpa using isSplit, Nat.le_refl 1,
    fun _ => List.mem_append_left _, ?_, ?_⟩
  · rw [List.length_append, List.length_take, sameMembers.length_eq]
    omega
  · refine beforeDistinct.append ((sameMembers.nodup_iff.mpr frontDistinct).sublist
      (List.take_sublist _ _)) fun position inBefore isTaken => ?_
    exact beforeDisjoint position inBefore position (List.mem_append_left _ (inFront isTaken)) rfl
  · intro position survives
    refine List.mem_range.mp (areLayers.flatten_perm_range.mem_iff.mp ?_)
    rw [isSplit, List.flatten_append, List.flatten_cons, ← List.append_assoc]
    exact List.mem_append_left _ (isEarly survives)
  · -- Whatever dominates a member of the front that is split belongs to a front before it.
    intro discarded isDiscarded survivor survives isDominated
    obtain ⟨-, isUndominated⟩ :=
      (areLayers.isSorting.isUndominated_iff before front after isSplit survivor).mpr
        (isEarly survives)
    exact isUndominated discarded (fun inBefore => isDiscarded (List.mem_append_left _ inBefore))
      isDominated
  · intro position inAfter survives
    rcases List.mem_append.mp (isEarly survives) with inBefore | inSplit
    · exact beforeDisjoint position inBefore position (List.mem_append_right _ inAfter) rfl
    · exact frontDisjoint position inSplit position inAfter rfl
  · intro split isFront areNumbers kept inSplit survives discarded inSplitToo isDiscarded
    obtain rfl := List.mem_singleton.mp isFront
    have isTaken := (List.mem_append.mp survives).resolve_left fun inBefore =>
      beforeDisjoint kept inBefore kept (List.mem_append_left _ inSplit) rfl
    exact not_lt_of_mem_take areNumbers isTaken inSplitToo fun isTakenToo =>
      isDiscarded (List.mem_append_right _ isTakenToo)

/-- Who survives is an elite. -/
theorem areElite_survivors
    [NumericScalar α]
    {dimension places : Nat}
    {standings : List (Standing α)}
    (sameDimension : Standing.HasDimension dimension standings)
    (enough : places ≤ standings.length) :
    AreElite standings places ((ofStandings standings).survivors places) := by
  have areLayers := Fronts.areLayers_sort sameDimension
  have isPartition := areLayers.flatten_perm_range
  rcases fill_eq (ofStandings standings) places (Fronts.sort standings) with
    ⟨allFit, areAll⟩ | ⟨before, front, after, isSplit, beforeFits, frontDoesNot, areTaken⟩
  · have areSurvivors : (ofStandings standings).survivors places =
        (Fronts.sort standings).flatten := areAll
    have size := isPartition.length_eq
    rw [List.length_range] at size
    rw [areSurvivors]
    refine ⟨by omega, areLayers.nodup_flatten,
      fun _ isMember => List.mem_range.mp (isPartition.mem_iff.mp isMember), ?_,
      Fronts.sort standings, [], [], by simp, by simp, by simp, by simp, by simp⟩
    intro discarded isDiscarded survivor _ isDominated
    exact isDiscarded (isPartition.mem_iff.mpr
      (List.mem_range.mpr (Fronts.lt_length_of_dominatesAt isDominated).1))
  · have areSurvivors : (ofStandings standings).survivors places =
        before.flatten ++
          ((ofStandings standings).byIsolation front).take (places - before.flatten.length) :=
      areTaken
    rw [areSurvivors]
    exact areElite_of_split areLayers isSplit beforeFits frontDoesNot

end Layering

end Optima
