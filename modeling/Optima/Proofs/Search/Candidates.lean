import Optima.Proofs.Problem.WellPosed
import Optima.Search.Candidates

namespace Optima

/-!
# What candidates are worth

With tame rules every vector has an evaluation.  Its score is the weighted sum of the
objectives, or the lowest number where an objective or a constraint has no value.
-/

variable {α : Type} [Scalar α]

/-- Whether an assignment is found to satisfy constraints. -/
def Constraints.satisfied (tolerance : α) (assignment : Assignment α)
    (constraints : List (Constraint α)) : Bool :=
  match feasible tolerance assignment constraints with
  | .ok verdict => verdict
  | .error _ => false

theorem Constraints.satisfied_iff
    {tolerance : α}
    {assignment : Assignment α}
    {constraints : List (Constraint α)} :
    satisfied tolerance assignment constraints = true ↔
      AllHold tolerance assignment constraints := by
  rw [← feasible_eq_ok_true_iff, satisfied]
  cases feasible tolerance assignment constraints <;> simp

omit [Scalar α] in
/-- An assignment of numbers by name binds names to numbers only. -/
theorem Assignment.isNumeric_ofList
    {β : Type}
    (items : List β)
    (name : β → String)
    (number : β → α) :
    Assignment.IsNumeric
      (Table.ofList (items.map fun item => (name item, Value.number (number item)))) := by
  intro key value found
  obtain ⟨item, -, isEntry⟩ := List.mem_map.mp (Table.mem_of_get?_ofList_eq_some found)
  exact ⟨number item, (congrArg Prod.snd isEntry).symm⟩

namespace Candidates

/-- The score of a vector. -/
def scoreOf (candidates : Candidates α) (vector : List α) : α :=
  match candidates.evaluateOn (candidates.assignment vector) with
  | .ok evaluation => evaluation.score
  | .error _ => -Scalar.infinity

/-- A vector violates no constraint. -/
def IsFeasible (candidates : Candidates α) (vector : List α) : Prop :=
  Constraints.AllHold candidates.tolerance (candidates.assignment vector)
    candidates.problem.constraints

/-- Whether a vector is found to violate no constraint. -/
def satisfies (candidates : Candidates α) (vector : List α) : Bool :=
  Constraints.satisfied candidates.tolerance (candidates.assignment vector)
    candidates.problem.constraints

/-- A vector violates no constraint, and its score is not the lowest number. -/
structure Admissible (candidates : Candidates α) (vector : List α) : Prop where
  isFeasible : candidates.IsFeasible vector
  scored : -Scalar.infinity < candidates.scoreOf vector

variable {candidates : Candidates α} {vector : List α}

theorem satisfies_iff :
    candidates.satisfies vector = true ↔ candidates.IsFeasible vector :=
  Constraints.satisfied_iff

omit [Scalar α] in
theorem isNumeric_assignment
    (candidates : Candidates α)
    (vector : List α) :
    (candidates.assignment vector).IsNumeric :=
  Assignment.isNumeric_ofList (candidates.names.zip vector) (·.1) (·.2)

section Reading

omit [Scalar α]

theorem length_names
    (candidates : Candidates α) :
    candidates.names.length = candidates.size := by
  simp [names, size, Problem.variableNames]

/-- The assignment of a vector binds each variable to the component at its position. -/
theorem get?_assignment
    (distinct : candidates.names.Nodup)
    (sameLength : vector.length = candidates.size)
    {position : Nat}
    {name : String}
    {value : α}
    (isName : candidates.names[position]? = some name)
    (isValue : vector[position]? = some value) :
    (candidates.assignment vector).get? name = some (.number value) := by
  have areNames :
      ((candidates.names.zip vector).map fun entry => (entry.1, Value.number entry.2)).map (·.1) =
        candidates.names := by
    rw [List.map_map]
    exact List.map_fst_zip (by rw [sameLength, length_names])
  have member : (name, value) ∈ candidates.names.zip vector :=
    List.mem_of_getElem? (List.getElem?_zip_eq_some.mpr ⟨isName, isValue⟩)
  exact Table.get?_ofList_of_mem (areNames.symm ▸ distinct)
    (List.mem_map.mpr ⟨(name, value), member, rfl⟩)

/-- The assignment of a vector binds each variable to a component that is related to it, where the
components are. -/
theorem exists_get?_assignment
    {related : Variable α → α → Prop}
    (distinct : candidates.names.Nodup)
    (areRelated : List.Forall₂ related candidates.problem.decisions vector)
    {decision : Variable α}
    (member : decision ∈ candidates.problem.decisions) :
    ∃ value,
      related decision value ∧
        (candidates.assignment vector).get? decision.name = some (.number value) := by
  obtain ⟨sameLength, areRelated⟩ := forall₂_iff_getElem?.mp areRelated
  obtain ⟨position, inRange, isDecision⟩ := List.mem_iff_getElem.mp member
  have isDecision := List.getElem?_eq_some_iff.mpr ⟨inRange, isDecision⟩
  have isValue := List.getElem?_eq_getElem (sameLength ▸ inRange)
  refine ⟨_, areRelated position decision _ isDecision isValue, ?_⟩
  refine get?_assignment distinct sameLength.symm ?_ isValue
  simp [names, Problem.variableNames, isDecision]

theorem get?_assignment_of_not_mem
    {name : String}
    (isOther : name ∉ candidates.names)
    (vector : List α) :
    (candidates.assignment vector).get? name = none := by
  apply Table.get?_ofList_of_not_mem
  rw [List.map_map, List.mem_map]
  rintro ⟨entry, member, rfl⟩
  exact isOther (List.of_mem_zip member).1

end Reading

/-- A vector has an evaluation where the rules are tame, and its score is that of the vector. -/
theorem exists_evaluate_eq_ok
    (isTame : candidates.problem.IsTame)
    (vector : List α) :
    ∃ evaluation,
      candidates.evaluate vector = .ok evaluation ∧
        evaluation.score = candidates.scoreOf vector := by
  have isNumeric := candidates.isNumeric_assignment vector
  have isContained : Contained (candidates.evaluateOn (candidates.assignment vector)) :=
    (Objectives.contained_values isTame.objectives isNumeric).bind fun values _ =>
      (Constraints.contained_totalFrom isTame.constraints isNumeric 0).bind fun violation _ =>
        contained_ok _
  unfold evaluate scoreOf
  cases isOutcome : candidates.evaluateOn (candidates.assignment vector) with
  | ok evaluation => exact ⟨evaluation, rfl, rfl⟩
  | error failure =>
      cases failure with
      | rejected error => exact ⟨_, rfl, rfl⟩
      | broken breakdown => exact absurd isOutcome (isContained breakdown)

/-- The score of a vector can be told in the direction of the primary objective. -/
theorem exists_traceValue_eq_ok
    (someObjective : candidates.problem.objectives ≠ [])
    (score : α) :
    ∃ value, candidates.traceValue score = .ok value := by
  unfold traceValue
  cases areObjectives : candidates.problem.objectives with
  | nil => exact absurd areObjectives someObjective
  | cons first rest => exact ⟨_, rfl⟩

/-- An admissible vector has values for all objectives and constraints. -/
theorem Admissible.isValuedOn
    [OrderedScalar α]
    (admissible : candidates.Admissible vector) :
    candidates.problem.IsValuedOn (candidates.assignment vector) := by
  constructor
  · have scored := admissible.scored
    unfold scoreOf at scored
    cases isOutcome : candidates.evaluateOn (candidates.assignment vector) with
    | error failure =>
        rw [isOutcome] at scored
        exact absurd scored (lt_irrefl _)
    | ok evaluation =>
        obtain ⟨values, areValues, -⟩ := bind_eq_ok isOutcome
        exact Objectives.exists_evaluate_of_valuesInto_eq_ok areValues
  · intro constraint member
    obtain ⟨magnitude, isMagnitude, -⟩ := admissible.isFeasible constraint member
    unfold Constraint.violation at isMagnitude
    cases isValue : constraint.evaluate (candidates.assignment vector) with
    | error failure =>
        rw [isValue] at isMagnitude
        cases isMagnitude
    | ok value => exact ⟨value, rfl⟩

end Candidates

end Optima
