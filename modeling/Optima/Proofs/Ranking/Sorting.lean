import Mathlib.Data.Fintype.EquivFin
import Mathlib.Order.WellFounded
import Optima.Proofs.Ranking.Fronts
import Optima.Proofs.Scalar.Comparison

namespace Optima

/-!
# Non-dominated sorting

What is peeled off front after front is all there is: each front holds exactly what the
fronts before it leave undominated, and a front is empty only if nothing is left.  So the
fronts part the positions among them, and no more of them are peeled off than there are
positions.
-/

namespace Fronts

variable {α : Type} [Scalar α] {standings : List (Standing α)} {gone front counts : List Nat}

/-- Fronts that follow some positions which are gone: each one is what is left undominated. -/
def AreLayers (standings : List (Standing α)) : List Nat → List (List Nat) → Prop
  | gone, [] => left standings.length gone = []
  | gone, front :: rest =>
    front ≠ [] ∧ IsFrontier standings gone front ∧ AreLayers standings (gone ++ front) rest

section Layers

variable {fronts : List (List Nat)}

/-- Each front is the one left behind by all fronts before it. -/
theorem AreLayers.of_append
    {before after : List (List Nat)}
    (areLayers : AreLayers standings gone (before ++ after)) :
    AreLayers standings (gone ++ before.flatten) after := by
  induction before generalizing gone with
  | nil =>
      simpa using areLayers
  | cons front rest inductionHypothesis =>
      rw [List.flatten_cons, ← List.append_assoc]
      exact inductionHypothesis areLayers.2.2

/-- Fronts hold exactly what is left. -/
theorem AreLayers.mem_flatten_iff
    (areLayers : AreLayers standings gone fronts)
    {position : Nat} :
    position ∈ fronts.flatten ↔ position < standings.length ∧ position ∉ gone := by
  induction fronts generalizing gone with
  | nil =>
      have noneLeft : position ∉ left standings.length gone := by
        simp [show left standings.length gone = [] from areLayers]
      simpa using noneLeft
  | cons front rest inductionHypothesis =>
      obtain ⟨-, isFrontier, areLayersLater⟩ := areLayers
      rw [List.flatten_cons, List.mem_append, inductionHypothesis areLayersLater, ← mem_left_iff,
        ← mem_left_iff, (left_perm_append isFrontier).mem_iff, List.mem_append]

theorem AreLayers.nodup_flatten
    (areLayers : AreLayers standings gone fronts) :
    fronts.flatten.Nodup := by
  induction fronts generalizing gone with
  | nil =>
      exact .nil
  | cons front rest inductionHypothesis =>
      obtain ⟨-, isFrontier, areLayersLater⟩ := areLayers
      rw [List.flatten_cons]
      refine isFrontier.nodup.append (inductionHypothesis areLayersLater) ?_
      intro position inFront isLater
      exact (areLayersLater.mem_flatten_iff.mp isLater).2 (List.mem_append_right gone inFront)

end Layers

/-- Room for more fronts than positions that are left changes nothing. -/
theorem peelAll_eq_of_le
    (isPeeled : IsPeeled standings gone counts front)
    {limit more : Nat}
    (enough : (left standings.length gone).length ≤ limit)
    (isMore : limit ≤ more) :
    peelAll (dominatedSets standings) more counts front =
      peelAll (dominatedSets standings) limit counts front := by
  -- A front that is not empty takes something away, so what is left falls with the limit.
  have parts := (left_perm_append isPeeled.isFrontier).length_eq
  rw [List.length_append] at parts
  induction limit generalizing gone counts front more with
  | zero =>
      have isEmpty : front = [] := List.length_eq_zero_iff.mp (by omega)
      cases more <;> simp [peelAll, isEmpty]
  | succ limit inductionHypothesis =>
      obtain ⟨further, rfl⟩ := Nat.exists_eq_add_of_le' (Nat.le_trans (Nat.le_add_left 1 _) isMore)
      have isPeeledNext := isPeeled_peel isPeeled
      have partsNext := (left_perm_append isPeeledNext.isFrontier).length_eq
      rw [List.length_append] at partsNext
      unfold peelAll
      split
      · rfl
      · rename_i notEmpty
        have isPositive := List.length_pos_iff.mpr (show front ≠ [] by simpa using notEmpty)
        exact congrArg (front :: ·)
          (inductionHypothesis isPeeledNext (by omega) (by omega) partsNext)

section Order

variable [ComparableScalar α] {dimension : Nat}

theorem dominatesAt_trans
    (sameDimension : Standing.HasDimension dimension standings)
    {first second third : Nat}
    (isDominated : dominatesAt standings first second = true)
    (isDominatedToo : dominatesAt standings second third = true) :
    dominatesAt standings first third = true := by
  obtain ⟨one, other, isOne, isOther, dominates⟩ := dominatesAt_iff.mp isDominated
  obtain ⟨again, another, isAgain, isAnother, dominatesToo⟩ := dominatesAt_iff.mp isDominatedToo
  obtain rfl := Option.some.inj (isOther.symm.trans isAgain)
  have lengthAt {position : Nat} {standing : Standing α}
      (isStanding : standings[position]? = some standing) :
      standing.objectives.length = dimension :=
    sameDimension standing (List.mem_of_getElem? isStanding)
  refine dominatesAt_iff.mpr ⟨one, another, isOne, isAnother, ?_⟩
  exact Standing.dominates_trans ((lengthAt isOne).trans (lengthAt isOther).symm)
    ((lengthAt isOther).trans (lengthAt isAnother).symm) dominates dominatesToo

theorem dominatesAt_irrefl
    (position : Nat) :
    ¬ dominatesAt standings position position = true := by
  intro isDominated
  obtain ⟨one, other, isOne, isOther, dominates⟩ := dominatesAt_iff.mp isDominated
  obtain rfl := Option.some.inj (isOne.symm.trans isOther)
  exact Standing.dominates_irrefl one dominates

/-- There are finitely many positions, so one cannot go from dominator to dominator for ever. -/
theorem wellFounded_dominatesAt
    (sameDimension : Standing.HasDimension dimension standings) :
    WellFounded fun first second : Fin standings.length =>
      dominatesAt standings first second = true := by
  have isTransitive :
      IsTrans (Fin standings.length) fun first second =>
        dominatesAt standings first second = true :=
    ⟨fun _ _ _ => dominatesAt_trans sameDimension⟩
  have isIrreflexive :
      Std.Irrefl fun first second : Fin standings.length =>
        dominatesAt standings first second = true :=
    ⟨fun position => dominatesAt_irrefl position.val⟩
  exact Finite.wellFounded_of_trans_of_irrefl _

/-- Among finitely many positions, one of those that are left is dominated by none of them. -/
theorem IsFrontier.ne_nil
    (sameDimension : Standing.HasDimension dimension standings)
    (isFrontier : IsFrontier standings gone front)
    (someLeft : left standings.length gone ≠ []) :
    front ≠ [] := by
  obtain ⟨start, isLeft⟩ := List.exists_mem_of_ne_nil _ someLeft
  obtain ⟨inRange, notGone⟩ := mem_left_iff.mp isLeft
  obtain ⟨lowest, lowestLeft, isLowest⟩ :=
    (wellFounded_dominatesAt sameDimension).has_min {position | position.val ∉ gone}
      ⟨⟨start, inRange⟩, notGone⟩
  refine List.ne_nil_of_mem (a := lowest.val)
    ((isFrontier.mem_iff lowest.val).mpr ⟨lowest.isLt, lowestLeft, ?_⟩)
  intro other isDominated
  by_contra otherLeft
  exact isLowest ⟨other, (lt_length_of_dominatesAt isDominated).1⟩ otherLeft isDominated

/-- With room for a front per position that is left, nothing is left in the end. -/
theorem areLayers_peelAll
    (sameDimension : Standing.HasDimension dimension standings)
    (isPeeled : IsPeeled standings gone counts front)
    {limit : Nat}
    (enough : (left standings.length gone).length ≤ limit) :
    AreLayers standings gone (peelAll (dominatedSets standings) limit counts front) := by
  induction limit generalizing gone counts front with
  | zero =>
      exact List.length_eq_zero_iff.mp (Nat.le_zero.mp enough)
  | succ limit inductionHypothesis =>
      have isFrontier := isPeeled.isFrontier
      unfold peelAll
      split
      · rename_i isEmpty
        by_contra someLeft
        exact isFrontier.ne_nil sameDimension someLeft (List.isEmpty_iff.mp isEmpty)
      · rename_i notEmpty
        have someFront : front ≠ [] := by
          simpa using notEmpty
        have isLess := (left_perm_append isFrontier).length_eq
        rw [List.length_append] at isLess
        have isPositive := List.length_pos_iff.mpr someFront
        exact ⟨someFront, isFrontier, inductionHypothesis (isPeeled_peel isPeeled) (by omega)⟩

end Order

/-- What fronts are to candidates that they sort. -/
structure IsSorting (standings : List (Standing α)) (fronts : List (List Nat)) : Prop where
  ne_nil : ∀ front ∈ fronts, front ≠ []
  isPartition : fronts.flatten.Perm (List.range standings.length)
  /-- No member of a front dominates another one of it. -/
  isIncomparable :
    ∀ front ∈ fronts, ∀ first ∈ front, ∀ second ∈ front,
      ¬ dominatesAt standings first second = true
  /-- The members of a front are those that the fronts before it leave, undominated by what they
  leave. -/
  mem_iff :
    ∀ before front after,
      fronts = before ++ front :: after →
        ∀ position,
          position ∈ front ↔
            position < standings.length ∧ position ∉ before.flatten ∧
              ∀ other, other ∉ before.flatten → ¬ dominatesAt standings other position = true
  /-- What fronts leave dominates neither a member of these fronts nor one of the next front. -/
  isUndominated_iff :
    ∀ before front after,
      fronts = before ++ front :: after →
        ∀ position,
          (position < standings.length ∧
              ∀ other, other ∉ before.flatten → ¬ dominatesAt standings other position = true) ↔
            position ∈ before.flatten ++ front
  exists_dominator :
    ∀ before front next after,
      fronts = before ++ front :: next :: after →
        ∀ position ∈ next, ∃ other ∈ front, dominatesAt standings other position = true

section Sorting

variable {fronts : List (List Nat)}

/-- Layers are closed: what dominates one of their members is a member. -/
theorem AreLayers.isClosed
    {before after : List (List Nat)}
    (areLayers : AreLayers standings gone (before ++ after))
    (isClosed :
      ∀ position ∈ gone, ∀ other, dominatesAt standings other position = true → other ∈ gone) :
    ∀ position ∈ gone ++ before.flatten, ∀ other,
      dominatesAt standings other position = true → other ∈ gone ++ before.flatten := by
  induction before generalizing gone with
  | nil =>
      simpa using isClosed
  | cons front rest inductionHypothesis =>
      obtain ⟨-, isFrontier, areLayersLater⟩ := areLayers
      rw [List.flatten_cons, ← List.append_assoc]
      refine inductionHypothesis areLayersLater fun position isGone other isDominated => ?_
      rcases List.mem_append.mp isGone with isGone | inFront
      · exact List.mem_append_left _ (isClosed position isGone other isDominated)
      · exact List.mem_append_left _
          (((isFrontier.mem_iff position).mp inFront).2.2 other isDominated)

theorem AreLayers.isFrontier
    {before after : List (List Nat)}
    (areLayers : AreLayers standings [] (before ++ front :: after)) :
    front ≠ [] ∧ IsFrontier standings before.flatten front := by
  obtain ⟨someFront, isFrontier, -⟩ := areLayers.of_append
  exact ⟨someFront, isFrontier⟩

/-- The members of a layer are those that the layers before it leave, undominated by what they
leave. -/
theorem AreLayers.mem_iff
    (areLayers : AreLayers standings [] fronts)
    (before : List (List Nat))
    (front : List Nat)
    (after : List (List Nat))
    (isSplit : fronts = before ++ front :: after)
    (position : Nat) :
    position ∈ front ↔
      position < standings.length ∧ position ∉ before.flatten ∧
        ∀ other, other ∉ before.flatten → ¬ dominatesAt standings other position = true := by
  subst isSplit
  obtain ⟨-, isFrontier⟩ := areLayers.isFrontier
  rw [isFrontier.mem_iff]
  refine and_congr_right fun _ => and_congr_right fun _ => forall_congr' fun other => ?_
  exact not_imp_not.symm.trans (by simp)

theorem AreLayers.flatten_perm_range
    (areLayers : AreLayers standings [] fronts) :
    fronts.flatten.Perm (List.range standings.length) := by
  refine (List.perm_ext_iff_of_nodup areLayers.nodup_flatten List.nodup_range).mpr ?_
  intro position
  rw [areLayers.mem_flatten_iff, List.mem_range]
  simp

theorem AreLayers.exists_dominator
    (areLayers : AreLayers standings [] fronts)
    (before : List (List Nat))
    (front next : List Nat)
    (after : List (List Nat))
    (isSplit : fronts = before ++ front :: next :: after) :
    ∀ position ∈ next, ∃ other ∈ front, dominatesAt standings other position = true := by
  intro position inNext
  have isSplitNext : fronts = (before ++ [front]) ++ next :: after := by
    simpa using isSplit
  obtain ⟨inRange, notGone, isUndominated⟩ :=
    (areLayers.mem_iff _ next after isSplitNext position).mp inNext
  simp only [List.flatten_append, List.flatten_singleton, List.mem_append, not_or]
    at notGone isUndominated
  -- A member of the next front that this one leaves undominated would belong to this one.
  by_contra noDominator
  push Not at noDominator
  refine notGone.2
    ((areLayers.mem_iff before front _ isSplit position).mpr ⟨inRange, notGone.1, ?_⟩)
  intro other otherLeft isDominated
  exact isUndominated other ⟨otherLeft, fun inFront => noDominator other inFront isDominated⟩
    isDominated

/-- Layers that start with nothing gone are a sorting. -/
theorem AreLayers.isSorting
    (areLayers : AreLayers standings [] fronts) :
    IsSorting standings fronts := by
  refine ⟨?_, areLayers.flatten_perm_range, ?_, areLayers.mem_iff, ?_, areLayers.exists_dominator⟩
  · intro front inFronts
    obtain ⟨before, after, rfl⟩ := List.append_of_mem inFronts
    exact areLayers.isFrontier.1
  · intro front inFronts first isFirst second isSecond isDominated
    obtain ⟨before, after, isSplit⟩ := List.append_of_mem inFronts
    obtain ⟨-, notGone, -⟩ := (areLayers.mem_iff before front after isSplit first).mp isFirst
    obtain ⟨-, -, isUndominated⟩ :=
      (areLayers.mem_iff before front after isSplit second).mp isSecond
    exact isUndominated first notGone isDominated
  · intro before front after isSplit position
    rw [List.mem_append, areLayers.mem_iff before front after isSplit]
    constructor
    · rintro ⟨inRange, isUndominated⟩
      by_cases isGone : position ∈ before.flatten
      · exact .inl isGone
      · exact .inr ⟨inRange, isGone, isUndominated⟩
    · rintro (isGone | ⟨inRange, -, isUndominated⟩)
      · subst isSplit
        refine ⟨?_, fun other notGone isDominated => notGone ?_⟩
        · rw [← List.mem_range, ← areLayers.flatten_perm_range.mem_iff, List.flatten_append]
          exact List.mem_append_left _ isGone
        · exact areLayers.isClosed (by simp) position isGone other isDominated
      · exact ⟨inRange, isUndominated⟩

end Sorting

section First

variable [ComparableScalar α] {dimension : Nat}

theorem areLayers_sort
    (sameDimension : Standing.HasDimension dimension standings) :
    AreLayers standings [] (sort standings) :=
  areLayers_peelAll sameDimension (isPeeled_nil standings) (by simp [left])

/-- Each position is in the first front, or a member of the first front dominates it. -/
theorem exists_mem_first
    (sameDimension : Standing.HasDimension dimension standings)
    {position : Nat}
    (inRange : position < standings.length) :
    ∃ first ∈ (sort standings).headD [],
      first = position ∨ dominatesAt standings first position = true := by
  obtain ⟨lowest, isAbove, isLowest⟩ :=
    (wellFounded_dominatesAt sameDimension).has_min
      {first | first.val = position ∨ dominatesAt standings first position}
      ⟨⟨position, inRange⟩, .inl rfl⟩
  refine ⟨lowest.val, ?_, isAbove⟩
  have isSorting := (areLayers_sort sameDimension).isSorting
  cases areFronts : sort standings with
  | nil =>
      have noPosition := isSorting.isPartition.length_eq
      rw [areFronts, List.length_range] at noPosition
      simp only [List.flatten_nil, List.length_nil] at noPosition
      omega
  | cons front rest =>
      rw [List.headD_cons, isSorting.mem_iff [] front rest areFronts]
      refine ⟨lowest.isLt, by simp, fun other _ isDominated => ?_⟩
      refine isLowest ⟨other, (lt_length_of_dominatesAt isDominated).1⟩ (.inr ?_) isDominated
      rcases isAbove with isSame | isAbove
      · exact isSame ▸ isDominated
      · exact dominatesAt_trans sameDimension isDominated isAbove

end First

section Correctness

variable [ComparableScalar α] {dimension : Nat}

/-- Dominance is a strict order, and candidates are sorted by it into fronts. -/
theorem dominates_strict_and_sort_correct
    (dimension : Nat)
    (standings : List (Standing α))
    (sameDimension : Standing.HasDimension dimension standings) :
    (∀ standing ∈ standings, standing.dominates standing = false) ∧
      (∀ one ∈ standings, ∀ other ∈ standings,
        one.dominates other = true → other.dominates one = false) ∧
      (∀ one ∈ standings, ∀ other ∈ standings, ∀ another ∈ standings,
        one.dominates other = true → other.dominates another = true →
          one.dominates another = true) ∧
      (∀ limit, standings.length ≤ limit → sortWithin limit standings = sort standings) ∧
      IsSorting standings (sort standings) ∧
      dominatedCounts standings =
        (List.range standings.length).map fun position =>
          (List.range standings.length).countP (dominatesAt standings position ·) := by
  refine ⟨?_, ?_, ?_, ?_, (areLayers_sort sameDimension).isSorting, dominatedCounts_eq standings⟩
  · intro standing _
    exact Bool.eq_false_iff.mpr (Standing.dominates_irrefl standing)
  · intro one _ other _ isDominated
    exact Bool.eq_false_iff.mpr (Standing.dominates_asymm isDominated)
  · intro one inOne other inOther another inAnother
    exact Standing.dominates_trans
      ((sameDimension one inOne).trans (sameDimension other inOther).symm)
      ((sameDimension other inOther).trans (sameDimension another inAnother).symm)
  · intro limit enough
    exact peelAll_eq_of_le (isPeeled_nil standings) (by simp [left]) enough

/-- Doubles to be sorted: two that no other dominates, a NaN, and three that are dominated. -/
def mixedStandings : List (Standing Float) :=
  [⟨[1, 2], 0⟩, ⟨[2, 1], 0⟩, ⟨[0 / 0, 0], 0⟩, ⟨[2, 2], 0⟩, ⟨[0, 0], 1⟩, ⟨[0, 0], 2⟩]

theorem mixedStandings_sorted :
    Standing.HasDimension 2 mixedStandings ∧
      sort mixedStandings = [[0, 1, 2], [3], [4], [5]] ∧
      IsSorting mixedStandings (sort mixedStandings) ∧
      dominatedCounts mixedStandings = [3, 3, 2, 2, 1, 0] := by
  have sameDimension : Standing.HasDimension 2 mixedStandings := by
    simp [Standing.HasDimension, mixedStandings]
  obtain ⟨-, -, -, -, isSorting, -⟩ :=
    dominates_strict_and_sort_correct 2 mixedStandings sameDimension
  exact ⟨sameDimension, by decide +kernel, isSorting, by decide +kernel⟩

end Correctness

end Fronts

end Optima
