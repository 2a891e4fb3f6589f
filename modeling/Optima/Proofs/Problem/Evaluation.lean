import Optima.Problem.Feasibility
import Optima.Problem.Sensitivity
import Optima.Proofs.Scalar.Laws
import Optima.Proofs.Table

namespace Optima

/-!
# Assignments on which a problem has values

Where all objectives and constraints have values, so does everything that is made of
them: the cost, the verdict on feasibility, the list of violations and the slacks.
-/

variable {α : Type} [Scalar α]

/-- The magnitude by which an assignment violates a constraint is zero. -/
def Constraint.HoldsOn (constraint : Constraint α) (tolerance : α) (assignment : Assignment α) :
    Prop :=
  ∃ magnitude,
    constraint.violation tolerance assignment = .ok magnitude ∧ (magnitude == 0) = true

/-- An assignment violates none of several constraints. -/
def Constraints.AllHold (tolerance : α) (assignment : Assignment α)
    (constraints : List (Constraint α)) : Prop :=
  ∀ constraint ∈ constraints, constraint.HoldsOn tolerance assignment

/-- Every objective and every constraint has a value on an assignment. -/
structure Problem.IsValuedOn (problem : Problem α) (assignment : Assignment α) : Prop where
  objectives :
    ∀ objective ∈ problem.objectives, ∃ value, objective.evaluate assignment = .ok value
  constraints :
    ∀ constraint ∈ problem.constraints, ∃ value, constraint.evaluate assignment = .ok value

namespace Constraint

variable {constraint : Constraint α} {tolerance : α} {assignment : Assignment α}

theorem exists_violation_eq_ok
    (tolerance : α)
    (valued : ∃ value, constraint.evaluate assignment = .ok value) :
    ∃ magnitude, constraint.violation tolerance assignment = .ok magnitude := by
  obtain ⟨value, isValue⟩ := valued
  exact ⟨constraint.magnitudeOf tolerance value, by simp [violation, isValue, Except.map]⟩

theorem isSatisfied_eq_ok_true_iff :
    constraint.isSatisfied tolerance assignment = .ok true ↔
      constraint.HoldsOn tolerance assignment := by
  unfold isSatisfied HoldsOn
  cases constraint.violation tolerance assignment with
  | error failure => simp [Except.map]
  | ok magnitude => simp [Except.map]

end Constraint

namespace Constraints

variable {tolerance : α} {assignment : Assignment α} {constraints : List (Constraint α)}

/-- Constraints are found to be satisfied exactly where none of them is violated. -/
theorem feasible_eq_ok_true_iff :
    feasible tolerance assignment constraints = .ok true ↔
      AllHold tolerance assignment constraints := by
  induction constraints with
  | nil =>
      simp [feasible, AllHold]
  | cons constraint rest inductionHypothesis =>
      have split :
          AllHold tolerance assignment (constraint :: rest) ↔
            constraint.HoldsOn tolerance assignment ∧ AllHold tolerance assignment rest :=
        List.forall_mem_cons
      rw [split, ← inductionHypothesis, ← Constraint.isSatisfied_eq_ok_true_iff]
      rw [feasible]
      cases constraint.isSatisfied tolerance assignment with
      | error failure => simp [bind, Except.bind]
      | ok verdict => cases verdict <;> simp [bind, Except.bind, pure, Except.pure]

/-- Constraints that have values are found to be satisfied or not. -/
theorem exists_feasible_eq_ok
    (tolerance : α)
    (valued : ∀ constraint ∈ constraints, ∃ value, constraint.evaluate assignment = .ok value) :
    ∃ verdict, feasible tolerance assignment constraints = .ok verdict := by
  induction constraints with
  | nil =>
      exact ⟨true, rfl⟩
  | cons constraint rest inductionHypothesis =>
      obtain ⟨magnitude, isMagnitude⟩ :=
        Constraint.exists_violation_eq_ok tolerance (valued constraint (by simp))
      obtain ⟨verdict, isVerdict⟩ :=
        inductionHypothesis fun other member =>
          valued other (List.mem_cons_of_mem constraint member)
      unfold feasible Constraint.isSatisfied
      rw [isMagnitude, isVerdict]
      cases isZero : magnitude == 0 with
      | false => exact ⟨false, by simp [Except.map, bind, Except.bind, pure, Except.pure, isZero]⟩
      | true => exact ⟨verdict, by simp [Except.map, bind, Except.bind, isZero]⟩

theorem exists_totalFrom_eq_ok
    (tolerance : α)
    (valued : ∀ constraint ∈ constraints, ∃ value, constraint.evaluate assignment = .ok value)
    (start : α) :
    ∃ total, totalFrom tolerance assignment start constraints = .ok total := by
  induction constraints generalizing start with
  | nil =>
      exact ⟨start, rfl⟩
  | cons constraint rest inductionHypothesis =>
      obtain ⟨magnitude, isMagnitude⟩ :=
        Constraint.exists_violation_eq_ok tolerance (valued constraint (by simp))
      obtain ⟨total, isTotal⟩ :=
        inductionHypothesis
          (fun other member => valued other (List.mem_cons_of_mem constraint member))
          (start + magnitude)
      exact ⟨total, by simp [totalFrom, isMagnitude, isTotal, bind, Except.bind]⟩

theorem exists_violations_eq_ok
    (tolerance : α)
    (valued : ∀ constraint ∈ constraints, ∃ value, constraint.evaluate assignment = .ok value) :
    ∃ missed, violations tolerance assignment constraints = .ok missed := by
  induction constraints with
  | nil =>
      exact ⟨[], rfl⟩
  | cons constraint rest inductionHypothesis =>
      obtain ⟨magnitude, isMagnitude⟩ :=
        Constraint.exists_violation_eq_ok tolerance (valued constraint (by simp))
      obtain ⟨missed, isMissed⟩ :=
        inductionHypothesis fun other member =>
          valued other (List.mem_cons_of_mem constraint member)
      refine ⟨if 0 < magnitude then reported constraint magnitude :: missed else missed, ?_⟩
      simp [violations, isMagnitude, isMissed, bind, Except.bind, pure, Except.pure]

/-- No violation is listed where no constraint is violated. -/
theorem violations_eq_nil
    [OrderedScalar α]
    (allHold : AllHold tolerance assignment constraints) :
    violations tolerance assignment constraints = .ok [] := by
  induction constraints with
  | nil =>
      rfl
  | cons constraint rest inductionHypothesis =>
      obtain ⟨magnitude, isMagnitude, isZero⟩ := allHold constraint (by simp)
      have noneMissed :=
        inductionHypothesis fun other member =>
          allHold other (List.mem_cons_of_mem constraint member)
      have notAbove : ¬ 0 < magnitude :=
        not_lt_of_ge ((OrderedScalar.beq_iff_le magnitude 0).mp isZero).1
      simp [violations, isMagnitude, noneMissed, notAbove, bind, Except.bind, pure, Except.pure]

end Constraints

namespace Objectives

variable {assignment : Assignment α} {objectives : List (Objective α)}

theorem exists_valuesInto_eq_ok
    (valued : ∀ objective ∈ objectives, ∃ value, objective.evaluate assignment = .ok value)
    (known : Table α) :
    ∃ found, valuesInto assignment known objectives = .ok found := by
  induction objectives generalizing known with
  | nil =>
      exact ⟨known, rfl⟩
  | cons objective rest inductionHypothesis =>
      obtain ⟨value, isValue⟩ := valued objective (by simp)
      obtain ⟨found, isFound⟩ :=
        inductionHypothesis
          (fun other member => valued other (List.mem_cons_of_mem objective member))
          (known.insert objective.name value)
      exact ⟨found, by simp [valuesInto, isValue, isFound, bind, Except.bind]⟩

theorem exists_values_eq_ok
    (valued : ∀ objective ∈ objectives, ∃ value, objective.evaluate assignment = .ok value) :
    ∃ found, values objectives assignment = .ok found :=
  exists_valuesInto_eq_ok valued {}

/-- Values of objectives that are entered into a table are there one by one. -/
theorem exists_evaluate_of_valuesInto_eq_ok
    {known found : Table α}
    (entered : valuesInto assignment known objectives = .ok found) :
    ∀ objective ∈ objectives, ∃ value, objective.evaluate assignment = .ok value := by
  induction objectives generalizing known with
  | nil =>
      nofun
  | cons objective rest inductionHypothesis =>
      obtain ⟨value, isValue, entered⟩ := bind_eq_ok entered
      rw [List.forall_mem_cons]
      exact ⟨⟨value, isValue⟩, inductionHypothesis entered⟩

/-- Each name in a table of values is there once. -/
theorem nodup_names_of_valuesInto_eq_ok
    {known found : Table α}
    (distinct : known.names.Nodup)
    (entered : valuesInto assignment known objectives = .ok found) :
    found.names.Nodup := by
  induction objectives generalizing known with
  | nil =>
      cases entered
      exact distinct
  | cons objective rest inductionHypothesis =>
      obtain ⟨value, -, entered⟩ := bind_eq_ok entered
      exact inductionHypothesis (Table.nodup_names_insert distinct objective.name value) entered

/-- The objectives stand by their names in the table of their values, as does what was there. -/
theorem mem_names_of_valuesInto_eq_ok
    {known found : Table α}
    (entered : valuesInto assignment known objectives = .ok found)
    {name : String}
    (member : name ∈ known.names ∨ ∃ objective ∈ objectives, objective.name = name) :
    name ∈ found.names := by
  induction objectives generalizing known with
  | nil =>
      cases entered
      simpa using member
  | cons objective rest inductionHypothesis =>
      obtain ⟨value, -, entered⟩ := bind_eq_ok entered
      refine inductionHypothesis entered ?_
      rw [Table.mem_names_iff, Table.get?_insert]
      rcases member with isKnown | ⟨other, isObjective, rfl⟩
      · left
        split
        · simp
        · exact (Table.mem_names_iff known name).mp isKnown
      · rcases List.mem_cons.mp isObjective with rfl | inRest
        · left
          simp
        · exact Or.inr ⟨other, inRest, rfl⟩

/-- The cost of objectives is that of their values, whatever else a table of these holds. -/
theorem cost_merge
    {found : Table α}
    (valued : values objectives assignment = .ok found)
    (table : Table α) :
    cost objectives (table.merge found) = cost objectives found := by
  have noneKnown : (Table.empty : Table α).names.Nodup := List.nodup_nil
  have distinct : found.names.Nodup := nodup_names_of_valuesInto_eq_ok noneKnown valued
  have sameValues :
      ∀ objective ∈ objectives, valueOf (table.merge found) objective = valueOf found objective := by
    intro objective member
    have isThere : objective.name ∈ found.names :=
      mem_names_of_valuesInto_eq_ok valued (Or.inr ⟨objective, member, rfl⟩)
    unfold valueOf
    rw [Table.get?_merge_of_mem table distinct isThere]
  unfold cost score
  congr 2
  exact List.map_congr_left fun objective member => by rw [sameValues objective member]

end Objectives

namespace Sensitivity

theorem exists_slacksOn_eq_ok
    {metrics : Assignment α}
    {constraints : List (Constraint α)}
    (valued : ∀ constraint ∈ constraints, ∃ value, constraint.evaluate metrics = .ok value)
    (tolerance : α) :
    ∃ slacks, slacksOn tolerance metrics constraints = .ok slacks := by
  induction constraints with
  | nil =>
      exact ⟨[], rfl⟩
  | cons constraint rest inductionHypothesis =>
      obtain ⟨value, isValue⟩ := valued constraint (by simp)
      obtain ⟨slacks, areSlacks⟩ :=
        inductionHypothesis fun other member =>
          valued other (List.mem_cons_of_mem constraint member)
      simp [slacksOn, isValue, areSlacks, bind, Except.bind, pure, Except.pure]

/-- A plan has prices and slacks where its objectives and constraints have values. -/
theorem exists_ofMetrics_eq_ok
    {problem : Problem α}
    {metrics : Assignment α}
    (valued : problem.IsValuedOn metrics)
    (tolerance : α) :
    ∃ sensitivity, ofMetrics problem metrics tolerance = .ok sensitivity := by
  obtain ⟨values, areValues⟩ := Objectives.exists_values_eq_ok valued.objectives
  obtain ⟨slacks, areSlacks⟩ :=
    exists_slacksOn_eq_ok valued.constraints tolerance
  simp [ofMetrics, areValues, areSlacks, bind, Except.bind, pure, Except.pure]

end Sensitivity

end Optima
