import Optima.Proofs.Backtracking.Levels

namespace Optima

/-!
# What pruning leaves

The vectors at the leaves are the product of the grids, each variable at its position.
A constraint that is checked on the way to a leaf is told by the names that have values by
then, so the check fails exactly where the constraint does not hold at the leaf.
-/

namespace Backtracking

variable {α : Type} [Scalar α]

section Vectors

variable {size : Nat} {path : List (Level α × α)}

theorem length_vectorOf
    (size : Nat)
    (path : List (Level α × α)) :
    (vectorOf size path).length = size := by
  have fromStart :
      ∀ (rest : List (Level α × α)) (start : List α),
        (rest.foldl (fun vector entry => vector.set entry.1.position entry.2) start).length =
          start.length := by
    intro rest
    induction rest with
    | nil =>
        intro start
        rfl
    | cons entry rest inductionHypothesis =>
        intro start
        rw [List.foldl_cons, inductionHypothesis, List.length_set]
  rw [vectorOf, fromStart, List.length_replicate]

/-- Where every position is chosen once, a vector has the values that are chosen. -/
theorem getElem?_vectorOf_of_mem
    (distinct : (path.map (·.1.position)).Nodup)
    {level : Level α}
    {value : α}
    (member : (level, value) ∈ path)
    (inRange : level.position < size) :
    (vectorOf size path)[level.position]? = some value := by
  -- By induction from the end: the entry is the last one, or the last one is at another position.
  induction path using List.reverseRecOn with
  | nil =>
      simp at member
  | append_singleton path last inductionHypothesis =>
      rw [List.map_append, List.map_singleton, nodup_append_singleton_iff] at distinct
      have isSet :
          vectorOf size (path ++ [last]) = (vectorOf size path).set last.1.position last.2 := by
        simp [vectorOf]
      rw [isSet, List.getElem?_set]
      rcases List.mem_append.mp member with isEarlier | isLast
      · have isOther : last.1.position ≠ level.position := by
          intro samePosition
          exact distinct.2 (List.mem_map.mpr ⟨(level, value), isEarlier, samePosition.symm⟩)
        rw [if_neg isOther]
        exact inductionHypothesis distinct.1 isEarlier
      · obtain rfl := List.mem_singleton.mp isLast
        simp [length_vectorOf, inRange]

/-- The leaves below chosen levels are where the levels that follow have values of their
domains. -/
theorem mem_visits_iff
    {candidates : Candidates α}
    {levels : List (Level α)}
    {chosen : List (Level α × α)}
    {vector : List α} :
    vector ∈ visits candidates levels chosen ↔
      ∃ path : List (Level α × α),
        path.map (·.1) = levels ∧
          (∀ entry ∈ path, entry.2 ∈ entry.1.domain) ∧
          vector = vectorOf candidates.size (chosen ++ path) := by
  induction levels generalizing chosen with
  | nil =>
      simp [visits]
  | cons level deeper inductionHypothesis =>
      simp only [visits, List.mem_flatMap, inductionHypothesis]
      constructor
      · rintro ⟨value, inDomain, path, rfl, inDomains, rfl⟩
        refine ⟨(level, value) :: path, rfl, ?_, by simp⟩
        rw [List.forall_mem_cons]
        exact ⟨inDomain, inDomains⟩
      · rintro ⟨path, isLevels, inDomains, rfl⟩
        cases path with
        | nil =>
            cases isLevels
        | cons entry path =>
            obtain ⟨rfl, rfl⟩ := List.cons.inj isLevels
            rw [List.forall_mem_cons] at inDomains
            exact ⟨entry.2, inDomains.1, path, rfl, inDomains.2, by simp⟩

end Vectors

section Agreement

variable {candidates : Candidates α} {grids : List (List α)} {levels : List (Level α)}
  {path : List (Level α × α)}

omit [Scalar α] in
theorem Laid.nodup_positions
    (laid : Laid candidates grids levels)
    (isPath : path.map (·.1) = levels) :
    (path.map (·.1.position)).Nodup := by
  have samePositions : path.map (·.1.position) = levels.map (·.position) := by
    rw [← isPath, List.map_map]
    rfl
  rw [samePositions]
  exact laid.positions.nodup_iff.mpr List.nodup_range

omit [Scalar α] in
theorem Laid.position_lt
    (laid : Laid candidates grids levels)
    {level : Level α}
    (member : level ∈ levels) :
    level.position < candidates.size :=
  List.mem_range.mp (laid.positions.mem_iff.mp (List.mem_map_of_mem member))

omit [Scalar α] in
theorem Laid.nodup_names
    (laid : Laid candidates grids levels)
    (distinct : candidates.names.Nodup)
    (isPath : path.map (·.1) = levels) :
    (path.map (·.1.name)).Nodup := by
  have areNames :
      path.map (·.1.name) =
        (path.map (·.1.position)).map fun position => candidates.names.getD position "" := by
    rw [List.map_map]
    refine List.map_congr_left fun entry member => ?_
    have isName := laid.named entry.1 (isPath ▸ List.mem_map_of_mem member)
    simp [isName]
  rw [areNames]
  refine (laid.nodup_positions isPath).map_on ?_
  intro first isFirst second isSecond sameName
  obtain ⟨entry, member, rfl⟩ := List.mem_map.mp isFirst
  obtain ⟨other, inPath, rfl⟩ := List.mem_map.mp isSecond
  have inRange := laid.position_lt (isPath ▸ List.mem_map_of_mem member)
  have otherInRange := laid.position_lt (isPath ▸ List.mem_map_of_mem inPath)
  rw [← candidates.length_names] at inRange otherInRange
  simpa [inRange, otherInRange, distinct.getElem_inj_iff] using sameName

omit [Scalar α] in
/-- Chosen levels bind their names to the values that were chosen. -/
theorem get?_assignmentOf_of_mem
    (distinct : (path.map (·.1.name)).Nodup)
    {entry : Level α × α}
    (member : entry ∈ path) :
    (assignmentOf path).get? entry.1.name = some (.number entry.2) := by
  apply Table.get?_ofList_of_mem
  · rw [List.map_map]
    exact distinct
  · exact List.mem_map.mpr ⟨entry, member, rfl⟩

/-- A leaf gives every variable the value that was chosen for it. -/
theorem Laid.get?_assignment_of_mem
    (laid : Laid candidates grids levels)
    (distinct : candidates.names.Nodup)
    (isPath : path.map (·.1) = levels)
    {entry : Level α × α}
    (member : entry ∈ path) :
    (candidates.assignment (vectorOf candidates.size path)).get? entry.1.name =
      some (.number entry.2) := by
  have inLevels : entry.1 ∈ levels := isPath ▸ List.mem_map_of_mem member
  exact candidates.get?_assignment distinct (length_vectorOf candidates.size path)
    (laid.named entry.1 inLevels)
    (getElem?_vectorOf_of_mem (laid.nodup_positions isPath) member (laid.position_lt inLevels))

/-- A constraint holds at its check exactly where it holds at the leaves below. -/
theorem Laid.holdsOn_iff
    (laid : Laid candidates grids levels)
    (distinct : candidates.names.Nodup)
    (areExtensional :
      ∀ constraint ∈ candidates.problem.constraints, constraint.rule.IsExtensional)
    {before after : List (Level α × α)}
    {entry : Level α × α}
    (isPath : (before ++ entry :: after).map (·.1) = levels)
    {constraint : Constraint α}
    (isCheck : constraint ∈ entry.1.checks)
    (tolerance : α) :
    constraint.HoldsOn tolerance (assignmentOf (before ++ [entry])) ↔
      constraint.HoldsOn tolerance
        (candidates.assignment (vectorOf candidates.size (before ++ entry :: after))) := by
  obtain ⟨inConstraints, reads⟩ :=
    laid.checks (before.map (·.1)) entry.1 (after.map (·.1)) (by simpa using isPath.symm)
      constraint isCheck
  have allDistinct := laid.nodup_names distinct isPath
  have isSublist : (before ++ [entry]).Sublist (before ++ entry :: after) := by
    simp
  refine Constraint.holdsOn_congr (areExtensional constraint inConstraints) ?_
  intro name isRead
  by_cases isName : name ∈ candidates.names
  · obtain ⟨level, isReached, rfl⟩ := List.mem_map.mp (reads name isName isRead)
    obtain ⟨chosen, member, rfl⟩ : ∃ chosen ∈ before ++ [entry], chosen.1 = level := by
      rw [← List.mem_map, List.map_append]
      exact isReached
    rw [get?_assignmentOf_of_mem (allDistinct.sublist (isSublist.map _)) member,
      laid.get?_assignment_of_mem distinct isPath (isSublist.subset member)]
  · rw [candidates.get?_assignment_of_not_mem isName]
    apply Table.get?_ofList_of_not_mem
    rw [List.map_map, List.mem_map]
    rintro ⟨chosen, member, rfl⟩
    have inLevels : chosen.1 ∈ levels :=
      isPath ▸ List.mem_map_of_mem (isSublist.subset member)
    exact isName (List.mem_of_getElem? (laid.named chosen.1 inLevels))

/-- The checks of levels pass at the leaves below them just as they do on the way. -/
theorem Laid.satisfied_eq
    (laid : Laid candidates grids levels)
    (distinct : candidates.names.Nodup)
    (areExtensional :
      ∀ constraint ∈ candidates.problem.constraints, constraint.rule.IsExtensional)
    {before after : List (Level α × α)}
    {entry : Level α × α}
    (isPath : (before ++ entry :: after).map (·.1) = levels) :
    Constraints.satisfied candidates.tolerance (assignmentOf (before ++ [entry]))
        entry.1.checks =
      Constraints.satisfied candidates.tolerance
        (candidates.assignment (vectorOf candidates.size (before ++ entry :: after)))
        entry.1.checks := by
  rw [Bool.eq_iff_iff, Constraints.satisfied_iff, Constraints.satisfied_iff]
  exact forall₂_congr fun constraint isCheck =>
    laid.holdsOn_iff distinct areExtensional isPath isCheck candidates.tolerance

/-- The leaves that no check cuts off are those at which every check passes. -/
theorem Laid.survivors_eq_filter
    (laid : Laid candidates grids levels)
    (distinct : candidates.names.Nodup)
    (areExtensional :
      ∀ constraint ∈ candidates.problem.constraints, constraint.rule.IsExtensional)
    {deeper : List (Level α)}
    {chosen : List (Level α × α)}
    (isSplit : chosen.map (·.1) ++ deeper = levels) :
    survivors candidates deeper chosen =
      (visits candidates deeper chosen).filter fun vector =>
        deeper.all fun level =>
          Constraints.satisfied candidates.tolerance (candidates.assignment vector)
            level.checks := by
  induction deeper generalizing chosen with
  | nil =>
      simp [survivors, visits]
  | cons level deeper inductionHypothesis =>
      rw [survivors, visits, List.filter_flatMap]
      refine List.flatMap_congr fun value _ => ?_
      have isSplitBelow : (chosen ++ [(level, value)]).map (·.1) ++ deeper = levels := by
        simpa using isSplit
      have sameCheck :
          ∀ vector ∈ visits candidates deeper (chosen ++ [(level, value)]),
            Constraints.satisfied candidates.tolerance (candidates.assignment vector)
                level.checks =
              Constraints.satisfied candidates.tolerance
                (assignmentOf (chosen ++ [(level, value)])) level.checks := by
        intro vector member
        obtain ⟨path, isDeeper, -, rfl⟩ := mem_visits_iff.mp member
        have isPath : (chosen ++ (level, value) :: path).map (·.1) = levels := by
          simpa [isDeeper] using isSplit
        simpa using (laid.satisfied_eq distinct areExtensional isPath).symm
      rw [inductionHypothesis isSplitBelow]
      cases passes :
          Constraints.satisfied candidates.tolerance
            (assignmentOf (chosen ++ [(level, value)])) level.checks with
      | true =>
          rw [passes] at sameCheck
          rw [if_pos rfl]
          refine List.filter_congr fun vector member => ?_
          rw [List.all_cons, sameCheck vector member, Bool.true_and]
      | false =>
          rw [passes] at sameCheck
          rw [if_neg (by simp)]
          refine (List.filter_eq_nil_iff.mpr fun vector member => ?_).symm
          rw [List.all_cons, sameCheck vector member]
          simp

/-- The leaves that no check cuts off are those that violate no constraint. -/
theorem Laid.survivors_eq
    (laid : Laid candidates grids levels)
    (distinct : candidates.names.Nodup)
    (areExtensional :
      ∀ constraint ∈ candidates.problem.constraints, constraint.rule.IsExtensional) :
    survivors candidates levels [] =
      (visits candidates levels []).filter candidates.satisfies := by
  rw [laid.survivors_eq_filter distinct areExtensional rfl]
  refine List.filter_congr fun vector _ => ?_
  rw [Bool.eq_iff_iff, List.all_eq_true, Candidates.satisfies_iff]
  simp only [Constraints.satisfied_iff]
  constructor
  · intro allPass constraint member
    obtain ⟨level, inLevels, isCheck⟩ := laid.covered constraint member
    exact allPass level inLevels constraint isCheck
  · intro allHold level inLevels constraint isCheck
    obtain ⟨before, after, isSplit⟩ := List.append_of_mem inLevels
    exact allHold constraint (laid.checks before level after isSplit constraint isCheck).1

end Agreement

/-- The search visits the vectors of the grid. -/
theorem Laid.mem_visits_iff_inProduct
    {candidates : Candidates α}
    {grids : List (List α)}
    {levels : List (Level α)}
    (laid : Laid candidates grids levels)
    (sameLength : grids.length = candidates.size)
    {vector : List α} :
    vector ∈ visits candidates levels [] ↔ Grid.InProduct grids vector := by
  have exists_level (position : Nat) (inRange : position < candidates.size) :
      ∃ level ∈ levels, level.position = position :=
    List.mem_map.mp (laid.positions.mem_iff.mpr (List.mem_range.mpr inRange))
  rw [mem_visits_iff, Grid.InProduct, forall₂_iff_getElem?]
  constructor
  · rintro ⟨path, isPath, inDomains, rfl⟩
    rw [List.nil_append]
    refine ⟨by rw [length_vectorOf, sameLength], ?_⟩
    intro position value grid isValue isGrid
    have inRange := (List.getElem?_eq_some_iff.mp isValue).1
    rw [length_vectorOf] at inRange
    obtain ⟨level, inLevels, rfl⟩ := exists_level position inRange
    obtain ⟨entry, inPath, rfl⟩ := List.mem_map.mp (isPath ▸ inLevels)
    have isChosen :=
      getElem?_vectorOf_of_mem (laid.nodup_positions isPath) inPath inRange
    cases isValue.symm.trans isChosen
    obtain ⟨other, isOther, isPerm⟩ := laid.domains entry.1 inLevels
    cases isGrid.symm.trans isOther
    exact isPerm.mem_iff.mp (inDomains entry inPath)
  · rintro ⟨isVector, inGrids⟩
    rw [sameLength] at isVector
    have isPath :
        (levels.map fun level => (level, vector.getD level.position 0)).map (·.1) = levels := by
      rw [List.map_map]
      exact List.map_id levels
    have isComponent (level : Level α) (member : level ∈ levels) :
        vector[level.position]? = some (vector.getD level.position 0) := by
      have inVector : level.position < vector.length := isVector ▸ laid.position_lt member
      simp [inVector]
    refine ⟨levels.map fun level => (level, vector.getD level.position 0), isPath, ?_, ?_⟩
    · rintro entry member
      obtain ⟨level, inLevels, rfl⟩ := List.mem_map.mp member
      obtain ⟨grid, isGrid, isPerm⟩ := laid.domains level inLevels
      exact isPerm.mem_iff.mpr
        (inGrids level.position _ grid (isComponent level inLevels) isGrid)
    · rw [List.nil_append]
      refine List.ext_getElem? fun position => ?_
      by_cases inRange : position < candidates.size
      · obtain ⟨level, inLevels, rfl⟩ := exists_level position inRange
        have isChosen :=
          getElem?_vectorOf_of_mem (laid.nodup_positions isPath)
            (List.mem_map_of_mem inLevels) inRange
        rw [isChosen, isComponent level inLevels]
      · rw [List.getElem?_eq_none (by omega),
          List.getElem?_eq_none (by rw [length_vectorOf]; omega)]

end Backtracking

end Optima
