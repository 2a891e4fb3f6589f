import Optima.Proofs.Problem.Domain
import Optima.Search.Candidates

namespace Optima

/-!
# The search space

A vector lies in the search space if each component is a number that its variable can be
given.  Repairing leads any vector of the right length into it, as long as none of its
components is NaN, and what is in it stands for values that the variables admit.
-/

variable {α : Type} [Scalar α]

/-- An interval of a variable that can be searched. -/
structure Variable.IsSearchable (decision : Variable α) (interval : α × α) : Prop where
  inOrder : interval.1 ≤ interval.2
  hasFiniteEnds : HasFiniteEnds interval
  isWhole : decision.isDiscrete = true → Scalar.IsWhole interval.1 ∧ Scalar.IsWhole interval.2

namespace Candidates

/-- The interval of a variable. -/
def intervalOf (candidates : Candidates α) (decision : Variable α) : α × α :=
  (candidates.reduction.boundsOf? decision.name).getD (0, 0)

/-- Both ends of each variable's interval are finite numbers, and in order. -/
def HasSpace (candidates : Candidates α) : Prop :=
  ∀ interval ∈ candidates.bounds, HasFiniteEnds interval ∧ interval.1 ≤ interval.2

/-- A vector lies in the search space. -/
def Contains (candidates : Candidates α) (vector : List α) : Prop :=
  List.Forall₂ (fun decision value => decision.IsGene (candidates.intervalOf decision) value)
    candidates.problem.decisions vector

/-- A vector has a number for each variable. -/
structure IsRepairable (candidates : Candidates α) (vector : List α) : Prop where
  length_eq : vector.length = candidates.size
  areNumbers : ∀ value ∈ vector, Scalar.isNaN value = false

/-- Values by name are admitted, and are encoded as the components of a vector. -/
def StandsFor (candidates : Candidates α) (defaultBounds : α × α) (vector : List α)
    (values : Table (Datum α)) : Prop :=
  List.Forall₂
    (fun decision value =>
      ∃ datum,
        values.get? decision.name = some datum ∧
          decision.Admits defaultBounds datum ∧
          ∃ code, decision.encode datum = .ok code ∧ (code == value) = true)
    candidates.problem.decisions vector

variable {candidates : Candidates α} {vector : List α}

theorem bounds_eq_map :
    candidates.bounds = candidates.problem.decisions.map candidates.intervalOf := by
  simp [bounds, names, Problem.variableNames, intervalOf]

theorem repair_eq :
    candidates.repair vector =
      repairAll (candidates.problem.decisions.map fun decision =>
        (candidates.intervalOf decision, decision.isDiscrete)) vector := by
  rw [repair, bounds_eq_map, discrete, List.zip_map']

theorem problem_eq_of_ofProblem_eq_ok
    {problem : Problem α}
    {defaultBounds : α × α}
    {tolerance : α}
    (prepared : ofProblem problem defaultBounds tolerance = .ok candidates) :
    candidates.problem = problem := by
  obtain ⟨reduction, -, prepared⟩ := bind_eq_ok prepared
  cases prepared
  rfl

theorem tolerance_eq_of_ofProblem_eq_ok
    {problem : Problem α}
    {defaultBounds : α × α}
    {tolerance : α}
    (prepared : ofProblem problem defaultBounds tolerance = .ok candidates) :
    candidates.tolerance = tolerance := by
  obtain ⟨reduction, -, prepared⟩ := bind_eq_ok prepared
  cases prepared
  rfl

section Tightening

variable [FractionalScalar α] {problem : Problem α} {defaultBounds : α × α} {tolerance : α}

/-- The interval of each variable is a part of the one that is declared. -/
theorem isTightened_intervalOf
    (distinct : problem.variableNames.Nodup)
    (faultless : ∀ decision ∈ problem.decisions, decision.fault? = none)
    (prepared : ofProblem problem defaultBounds tolerance = .ok candidates) :
    ∀ decision ∈ candidates.problem.decisions,
      decision.IsTightened defaultBounds (candidates.intervalOf decision) := by
  obtain ⟨reduction, reduced, prepared⟩ := bind_eq_ok prepared
  cases prepared
  intro decision member
  obtain ⟨-, interval, isInterval⟩ :=
    Propagation.exists_interval_of_reduce_eq_ok reduced member
  have satisfy :
      Propagation.Satisfy (fun decision interval => decision.IsTightened defaultBounds interval)
        problem.decisions reduction.bounds := by
    refine Propagation.satisfy_of_reduce_eq_ok reduced distinct ?_ ?_
    · intro decision member interval isBounds
      exact Variable.isTightened_bounds (faultless decision member) isBounds
    · intro decision _ notCategorical constraint term interval met outcome isTightened
      exact Variable.isTightened_tightened notCategorical outcome isTightened
  simpa [intervalOf, Reduction.boundsOf?, isInterval] using
    satisfy decision member interval isInterval

/-- The interval of each variable can be searched if it has finite ends in order. -/
theorem isSearchable_intervalOf
    (hasSpace : candidates.HasSpace)
    (areTightened :
      ∀ decision ∈ candidates.problem.decisions,
        decision.IsTightened defaultBounds (candidates.intervalOf decision)) :
    ∀ decision ∈ candidates.problem.decisions,
      decision.IsSearchable (candidates.intervalOf decision) := by
  intro decision member
  have inBounds : candidates.intervalOf decision ∈ candidates.bounds := by
    rw [bounds_eq_map]
    exact List.mem_map_of_mem member
  obtain ⟨hasFiniteEnds, inOrder⟩ := hasSpace _ inBounds
  exact ⟨inOrder, hasFiniteEnds, fun isDiscrete =>
    (areTightened decision member).isWhole_of_hasFiniteEnds isDiscrete hasFiniteEnds⟩

end Tightening

/-- Repairing leads where it leads each component. -/
theorem forall₂_repair
    {holds : Variable α → α → Prop}
    (sameLength : vector.length = candidates.size)
    (each :
      ∀ decision ∈ candidates.problem.decisions, ∀ value ∈ vector,
        holds decision (repairOne (candidates.intervalOf decision) decision.isDiscrete value)) :
    List.Forall₂ holds candidates.problem.decisions (candidates.repair vector) := by
  unfold size at sameLength
  rw [repair_eq]
  generalize candidates.problem.decisions = decisions at *
  induction vector generalizing decisions with
  | nil =>
      obtain rfl := List.length_eq_zero_iff.mp sameLength.symm
      exact .nil
  | cons value rest inductionHypothesis =>
      cases decisions with
      | nil => simp at sameLength
      | cons decision others =>
          simp only [List.forall_mem_cons, List.length_cons, Nat.add_right_cancel_iff] at *
          exact .cons each.1.1 (inductionHypothesis others sameLength
            fun other inOthers => (each.2 other inOthers).2)

/-- Repairing leaves a component for each variable. -/
theorem length_repair
    (sameLength : vector.length = candidates.size) :
    (candidates.repair vector).length = candidates.size := by
  have related : List.Forall₂ (fun _ _ => True) candidates.problem.decisions
      (candidates.repair vector) :=
    forall₂_repair sameLength fun _ _ _ _ => trivial
  exact related.length_eq.symm

theorem length_lower :
    candidates.lower.length = candidates.size := by
  simp [lower, bounds_eq_map, size]

theorem length_upper :
    candidates.upper.length = candidates.size := by
  simp [upper, bounds_eq_map, size]

/-- A corner that is moved onto a threshold is repaired, and the threshold lies in an interval. -/
theorem exists_of_mem_thresholdVectors
    {vectors : List (List α)}
    (areVectors : candidates.thresholdVectors = .ok vectors)
    (member : vector ∈ vectors) :
    ∃ position threshold, ∃ interval : α × α,
      Scalar.within threshold interval.1 interval.2 = true ∧
        vector = candidates.repair (candidates.lower.set position threshold) := by
  obtain ⟨groups, areGroups, areVectors⟩ := bind_eq_ok areVectors
  cases areVectors
  obtain ⟨group, inGroups, inGroup⟩ := List.mem_flatten.mp member
  obtain ⟨⟨⟨name, position⟩, interval⟩, -, isGroup⟩ :=
    exists_of_mem_results_of_mapM_eq_ok areGroups inGroups
  obtain ⟨thresholds, -, isGroup⟩ := bind_eq_ok isGroup
  cases isGroup
  obtain ⟨threshold, isThreshold, rfl⟩ := List.mem_map.mp inGroup
  exact ⟨position, threshold, interval, (List.mem_filter.mp isThreshold).2, rfl⟩

/-- The initial values have a component for each variable. -/
theorem length_of_initial?_eq_ok
    (isInitial : candidates.initial? = .ok (some vector)) :
    vector.length = candidates.size := by
  unfold initial? at isInitial
  dsimp only at isInitial
  split at isInitial
  · cases isInitial
  · rename_i values areValues
    obtain ⟨encoded, areEncoded, isInitial⟩ := bind_eq_ok isInitial
    cases isInitial
    refine length_repair ?_
    rw [← (mapM_eq_ok_iff.mp areEncoded).length_eq, ← (mapM_eq_some_iff.mp areValues).length_eq,
      size]

section Repairing

variable [FractionalScalar α]

theorem isGene_repairOne
    {decision : Variable α}
    {interval : α × α}
    {value : α}
    (inOrder : interval.1 ≤ interval.2)
    (isWhole :
      decision.isDiscrete = true → Scalar.IsWhole interval.1 ∧ Scalar.IsWhole interval.2)
    (isNumber : Scalar.isNaN value = false) :
    decision.IsGene interval (repairOne interval decision.isDiscrete value) := by
  have ⟨isAbove, isBelow⟩ := Scalar.clip_between isNumber inOrder
  unfold repairOne
  dsimp only
  split
  · rename_i isDiscrete
    obtain ⟨isWholeLower, isWholeUpper⟩ := isWhole isDiscrete
    have ⟨isWhole, atLeast, atMost⟩ :=
      Scalar.isWhole_nearest_between isWholeLower isWholeUpper isAbove isBelow
    exact ⟨atLeast, atMost, fun _ => isWhole⟩
  · rename_i notDiscrete
    exact ⟨isAbove, isBelow, fun isDiscrete => absurd isDiscrete notDiscrete⟩

variable
  (areSearchable :
    ∀ decision ∈ candidates.problem.decisions,
      decision.IsSearchable (candidates.intervalOf decision))

include areSearchable

/-- Repairing leads into the search space. -/
theorem contains_repair
    (isRepairable : candidates.IsRepairable vector) :
    candidates.Contains (candidates.repair vector) :=
  forall₂_repair isRepairable.length_eq fun decision inProblem value member =>
    have isSearchable := areSearchable decision inProblem
    isGene_repairOne isSearchable.inOrder isSearchable.isWhole
      (isRepairable.areNumbers value member)

/-- What is in the search space consists of finite numbers. -/
theorem Contains.isFinite
    (isContained : candidates.Contains vector) :
    ∀ value ∈ vector, Scalar.isFinite value = true := by
  intro value member
  obtain ⟨decision, inProblem, isGene⟩ := exists_left_of_forall₂ isContained member
  have ⟨isFinite, isFiniteToo⟩ := (areSearchable decision inProblem).hasFiniteEnds
  exact FractionalScalar.isFinite_between _ _ _ isGene.lower_le isGene.le_upper isFinite isFiniteToo

omit areSearchable in
theorem Contains.isRepairable
    (isContained : candidates.Contains vector) :
    candidates.IsRepairable vector := by
  refine ⟨(List.Forall₂.length_eq isContained).symm, fun value member => ?_⟩
  obtain ⟨decision, -, isGene⟩ := exists_left_of_forall₂ isContained member
  exact NumericScalar.isNaN_right isGene.lower_le

theorem isRepairable_lower :
    candidates.IsRepairable candidates.lower := by
  refine ⟨length_lower, fun value member => ?_⟩
  rw [lower, bounds_eq_map, List.map_map] at member
  obtain ⟨decision, inProblem, rfl⟩ := List.mem_map.mp member
  exact Scalar.isNaN_of_isFinite (areSearchable decision inProblem).hasFiniteEnds.1

theorem isRepairable_upper :
    candidates.IsRepairable candidates.upper := by
  refine ⟨length_upper, fun value member => ?_⟩
  rw [upper, bounds_eq_map, List.map_map] at member
  obtain ⟨decision, inProblem, rfl⟩ := List.mem_map.mp member
  exact Scalar.isNaN_of_isFinite (areSearchable decision inProblem).hasFiniteEnds.2

/-- The lower corner with a component moved onto a threshold is repaired. -/
theorem contains_of_mem_thresholdVectors
    {vectors : List (List α)}
    (areVectors : candidates.thresholdVectors = .ok vectors)
    (member : vector ∈ vectors) :
    candidates.Contains vector := by
  obtain ⟨position, threshold, interval, isWithin, rfl⟩ :=
    exists_of_mem_thresholdVectors areVectors member
  obtain ⟨sameLength, areNumbers⟩ := isRepairable_lower areSearchable
  refine contains_repair areSearchable
    ⟨by rw [List.length_set, sameLength], fun value isValue => ?_⟩
  rcases List.mem_or_eq_of_mem_set isValue with inCorner | rfl
  · exact areNumbers value inCorner
  · rw [Scalar.within, Bool.and_eq_true, decide_eq_true_iff] at isWithin
    exact NumericScalar.isNaN_right isWithin.1

/-- The initial values, where every variable has one and none of them is NaN, are repaired. -/
theorem contains_of_initial?_eq_ok
    (areNumbers :
      ∀ decision ∈ candidates.problem.decisions, ∀ value,
        decision.initial = some (.number value) → Scalar.isNaN value = false)
    (isInitial : candidates.initial? = .ok (some vector)) :
    candidates.Contains vector := by
  unfold initial? at isInitial
  dsimp only at isInitial
  split at isInitial
  · cases isInitial
  · rename_i values areValues
    obtain ⟨encoded, areEncoded, isInitial⟩ := bind_eq_ok isInitial
    cases isInitial
    have areValues := mapM_eq_some_iff.mp areValues
    have areEncoded := mapM_eq_ok_iff.mp areEncoded
    refine contains_repair areSearchable
      ⟨by rw [← areEncoded.length_eq, ← areValues.length_eq, size], fun number member => ?_⟩
    obtain ⟨⟨decision, initial⟩, inValues, isEncoded⟩ := exists_left_of_forall₂ areEncoded member
    obtain ⟨same, inProblem, hasInitial⟩ := exists_left_of_forall₂ areValues inValues
    obtain ⟨_, isThere, isSame⟩ := Option.map_eq_some_iff.mp hasInitial
    cases isSame
    exact decision.isNaN_of_encode_eq_ok isEncoded fun value isNumber =>
      areNumbers decision inProblem value (isThere.trans (congrArg some isNumber))

end Repairing

section Decoding

/-- A vector is decoded to an entry for each variable. -/
theorem exists_entries_of_decode_eq_ok
    (sameLength : candidates.problem.decisions.length = vector.length)
    {values : Table (Datum α)}
    (areValues : candidates.decode vector = .ok values) :
    ∃ entries : List (String × Datum α),
      values = Table.ofList entries ∧
        entries.map (·.1) = candidates.names ∧
        ∀ decision value, (decision, value) ∈ candidates.problem.decisions.zip vector →
          ∃ datum, decision.decode value = .ok datum ∧ (decision.name, datum) ∈ entries := by
  obtain ⟨entries, areEntries, areValues⟩ := bind_eq_ok areValues
  cases areValues
  refine ⟨entries, rfl, ?_, fun decision value member => ?_⟩
  · calc entries.map (·.1)
        = (candidates.problem.decisions.zip vector).map fun entry => entry.1.name := by
          refine (map_eq_map_of_forall₂ (mapM_eq_ok_iff.mp areEntries) ?_).symm
          intro entry result isEntry
          obtain ⟨datum, -, isEntry⟩ := bind_eq_ok isEntry
          cases isEntry
          rfl
      _ = ((candidates.problem.decisions.zip vector).map (·.1)).map (·.name) :=
          List.map_map.symm
      _ = candidates.names := by
          rw [List.map_fst_zip sameLength.le]
          rfl
  · obtain ⟨entry, inEntries, isEntry⟩ := exists_of_mem_of_mapM_eq_ok areEntries member
    obtain ⟨datum, isDatum, isEntry⟩ := bind_eq_ok isEntry
    cases isEntry
    exact ⟨datum, isDatum, inEntries⟩

/-- Every variable has a value in what is decoded. -/
theorem exists_datum_of_decode_eq_ok
    (sameLength : candidates.problem.decisions.length = vector.length)
    {values : Table (Datum α)}
    (areValues : candidates.decode vector = .ok values) :
    ∀ decision ∈ candidates.problem.decisions, ∃ datum, values.get? decision.name = some datum := by
  obtain ⟨entries, rfl, areNames, -⟩ := exists_entries_of_decode_eq_ok sameLength areValues
  intro decision member
  have isNamed : decision.name ∈ entries.map (·.1) := by
    rw [areNames]
    exact List.mem_map_of_mem member
  have isThere := Table.contains_ofList_of_mem isNamed
  rw [Table.contains_iff_mem_names, Table.mem_names_iff] at isThere
  exact Option.ne_none_iff_exists'.mp isThere

/-- What is decoded of a component is found under the name of its variable. -/
theorem get?_of_decode_eq_ok
    (distinct : candidates.names.Nodup)
    (sameLength : candidates.problem.decisions.length = vector.length)
    {values : Table (Datum α)}
    (areValues : candidates.decode vector = .ok values)
    {decision : Variable α}
    {value : α}
    (member : (decision, value) ∈ candidates.problem.decisions.zip vector) :
    ∃ datum, decision.decode value = .ok datum ∧ values.get? decision.name = some datum := by
  obtain ⟨entries, rfl, areNames, inEntries⟩ := exists_entries_of_decode_eq_ok sameLength areValues
  obtain ⟨datum, isDatum, isEntry⟩ := inEntries decision value member
  exact ⟨datum, isDatum, Table.get?_ofList_of_mem (areNames.symm ▸ distinct) isEntry⟩

variable [FractionalScalar α] {defaultBounds : α × α}

/-- A vector of the search space stands for values that the variables admit. -/
theorem exists_decode_eq_ok_of_contains
    (distinct : candidates.names.Nodup)
    (faultless : ∀ decision ∈ candidates.problem.decisions, decision.fault? = none)
    (areTightened :
      ∀ decision ∈ candidates.problem.decisions,
        decision.IsTightened defaultBounds (candidates.intervalOf decision))
    (isContained : candidates.Contains vector) :
    ∃ values, candidates.decode vector = .ok values ∧
      candidates.StandsFor defaultBounds vector values := by
  obtain ⟨sameLength, areGenes⟩ := List.forall₂_iff_zip.mp isContained
  have each (entry : Variable α × α) (member : entry ∈ candidates.problem.decisions.zip vector) :=
    have inProblem := (List.of_mem_zip member).1
    Variable.exists_decode_eq_ok_of_isGene (faultless _ inProblem) (areTightened _ inProblem)
      (areGenes member)
  obtain ⟨values, areValues⟩ : ∃ values, candidates.decode vector = .ok values := by
    refine exists_bind_eq_ok (exists_mapM_eq_ok fun entry member => ?_) fun entries => ⟨_, rfl⟩
    obtain ⟨datum, isDatum, -⟩ := each entry member
    exact ⟨(entry.1.name, datum), by simp [isDatum, bind, Except.bind, pure, Except.pure]⟩
  refine ⟨values, areValues, List.forall₂_iff_zip.mpr ⟨sameLength, ?_⟩⟩
  intro decision value member
  obtain ⟨datum, isDatum, isAdmitted, isEncoded⟩ := each _ member
  obtain ⟨again, isAgain, isThere⟩ := get?_of_decode_eq_ok distinct sameLength areValues member
  obtain rfl := Except.ok.inj (isDatum.symm.trans isAgain)
  exact ⟨datum, isThere, isAdmitted, isEncoded⟩

end Decoding

end Candidates

end Optima
