import Mathlib
import Optima.Proofs.Routing.Account
import Optima.Proofs.Scalar.Exact

namespace Optima

/-!
# Routing loses nothing

What a solution says of the locations, of the violations and of the demand left
unserved, for every problem, all parameters and every moment at which the search
is stopped.
-/

namespace Violation

end Violation

namespace Constraints

variable {α : Type} [Scalar α]

end Constraints

namespace Objectives

variable {α : Type} [Scalar α]

/-- The values of objectives stand under the names of the objectives. -/
theorem mem_names_of_valuesInto
    {assignment : Assignment α}
    {objectives : List (Objective α)}
    {known found : Table α}
    (valued : valuesInto assignment known objectives = .ok found)
    {name : String}
    (member : name ∈ found.names) :
    name ∈ known.names ∨ ∃ objective ∈ objectives, objective.name = name := by
  induction objectives generalizing known with
  | nil =>
      simp only [valuesInto, Except.ok.injEq] at valued
      subst found
      exact Or.inl member
  | cons objective rest inductionHypothesis =>
      unfold valuesInto at valued
      obtain ⟨value, -, valued⟩ := bind_eq_ok valued
      rcases inductionHypothesis valued with isKnown | isLater
      · rcases known.mem_names_insert value isKnown with isThis | isEarlier
        · exact Or.inr ⟨objective, by simp, isThis.symm⟩
        · exact Or.inl isEarlier
      · obtain ⟨later, inRest, sameName⟩ := isLater
        exact Or.inr ⟨later, List.mem_cons_of_mem objective inRest, sameName⟩

end Objectives

namespace Routing

variable {α : Type} [Scalar α] {fleet : Fleet α} {progress : Progress α} {outcome : Solution α}
  {problem : Problem α} {tolerance : α}

namespace Reports

/-- The demand left unserved is reported, unless an objective takes its name. -/
theorem get?_unserved_demand
    (reports : Reports problem tolerance fleet progress outcome)
    (nameFree : ∀ objective ∈ problem.objectives, objective.name ≠ "unserved_demand") :
    outcome.objectiveValues.get? "unserved_demand" =
      some (fleet.network.loadOf progress.unserved) := by
  obtain ⟨values, valued, isMerged⟩ := reports.objectiveValues_eq
  have notAmongValues : "unserved_demand" ∉ values.entries.map (·.1) := by
    intro member
    rcases Objectives.mem_names_of_valuesInto valued member with isKnown | isObjective
    · simp [Table.names, EmptyCollection.emptyCollection, Table.empty] at isKnown
    · obtain ⟨objective, inProblem, sameName⟩ := isObjective
      exact nameFree objective inProblem sameName
  rw [isMerged, Table.merge, Table.get?_insertAll_of_not_mem _ _ notAmongValues]
  simp [Fleet.metrics, Table.get?, List.lookup_cons]

end Reports

variable [Elementary α]

end Routing

end Optima
