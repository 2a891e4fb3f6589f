import Optima.Proofs.Routing.Account
import Optima.Proofs.Search.Verdict
import Optima.Proofs.Search.Watch

namespace Optima

/-!
# The end of a routing search

A routing search ends within its limits, and its status is not wrong.
-/

/-!
## Improvement within a budget

The local search counts an iteration whenever it looks for a better plan, and never
starts one that the limit does not allow.  The number that bounds its recursion is never
used up.
-/

namespace Routing

variable {α : Type} [Scalar α] {fleet : Fleet α} {budget : Budget α} {start : Watch α}
  {remaining : Nat} {progress after : Progress α} {interruption? : Option Interruption}

/-- A search is within its limits where it ends. -/
structure Progress.EndsWithin (budget : Budget α) (start : Watch α) (after : Progress α)
    (interruption? : Option Interruption) : Prop where
  within : after.iterations ≤ budget.maxIterations
  precedes : start.Precedes after.watch
  areDue :
    ∀ interruption, interruption? = some interruption →
      interruption.IsDue budget start after.iterations after.watch

/-- Entering a plan into the history reads the clock and counts nothing. -/
theorem Progress.precedes_of_record_eq_ok
    (precedes : start.Precedes progress.watch)
    (isRecorded : Progress.record fleet progress = .ok after) :
    after.iterations = progress.iterations ∧ start.Precedes after.watch := by
  obtain ⟨cost, -, isRecorded⟩ := bind_eq_ok isRecorded
  cases isRecorded
  exact ⟨rfl, precedes.lookAtClock⟩

/-- The local search ends within its limits. -/
theorem endsWithin_of_improve_eq_ok
    (precedes : start.Precedes progress.watch)
    (within : progress.iterations ≤ budget.maxIterations)
    (improved : improve fleet budget remaining progress = .ok (interruption?, after)) :
    after.EndsWithin budget start interruption? := by
  induction remaining generalizing progress with
  | zero =>
      unfold improve at improved
      split at improved
      · rename_i interruption watch isInterrupted
        cases improved
        obtain ⟨stillPrecedes, areDue⟩ := Budget.of_interruption precedes within isInterrupted
        exact ⟨within, stillPrecedes, areDue⟩
      · rename_i watch goesOn
        cases improved
        exact ⟨within, (Budget.of_interruption precedes within goesOn).1, nofun⟩
  | succ remaining inductionHypothesis =>
      unfold improve at improved
      split at improved
      · rename_i interruption watch isInterrupted
        cases improved
        obtain ⟨stillPrecedes, areDue⟩ := Budget.of_interruption precedes within isInterrupted
        exact ⟨within, stillPrecedes, areDue⟩
      · rename_i watch goesOn
        have stillPrecedes := (Budget.of_interruption precedes within goesOn).1
        have isBelow := Budget.lt_of_interruption_eq_none goesOn
        dsimp only at improved
        obtain ⟨plan?, -, improved⟩ := bind_eq_ok improved
        split at improved
        · cases improved
          exact ⟨isBelow, stillPrecedes, nofun⟩
        · obtain ⟨recorded, isRecorded, improved⟩ := bind_eq_ok improved
          obtain ⟨sameCount, looksOn⟩ := Progress.precedes_of_record_eq_ok stillPrecedes isRecorded
          exact inductionHypothesis looksOn (sameCount ▸ isBelow) improved

/-- Allowing more steps than the limit does changes nothing. -/
theorem improve_add
    (enough : budget.maxIterations ≤ progress.iterations + remaining)
    (extra : Nat) :
    improve fleet budget (remaining + extra) progress = improve fleet budget remaining progress := by
  induction remaining generalizing progress with
  | zero =>
      unfold improve
      split
      · rfl
      · rename_i watch goesOn
        have isBelow := Budget.lt_of_interruption_eq_none goesOn
        omega
  | succ remaining inductionHypothesis =>
      rw [Nat.succ_add]
      unfold improve
      split
      · rfl
      · refine bind_congr fun plan? => ?_
        cases plan? with
        | none => rfl
        | some plan =>
            dsimp only
            cases isRecorded :
                Progress.record fleet
                  { progress with iterations := progress.iterations + 1, watch := _, plan := plan }
              with
            | error failure => rfl
            | ok recorded =>
                have sameCount : recorded.iterations = progress.iterations + 1 :=
                  (Progress.precedes_of_record_eq_ok (.refl _) isRecorded).1
                exact inductionHypothesis (by omega)

/-- A search ends within its limits. -/
theorem endsWithin_of_search_eq_ok
    {parameters : RoutingParameters α}
    {watch : Watch α}
    (precedes : start.Precedes watch)
    (searched : search parameters fleet watch = .ok (interruption?, after)) :
    after.EndsWithin ⟨parameters.maxIterations, parameters.timeLimit⟩ start interruption? := by
  unfold search at searched
  obtain ⟨started, isRecorded, searched⟩ := bind_eq_ok searched
  obtain ⟨sameCount, looksOn⟩ := Progress.precedes_of_record_eq_ok precedes isRecorded
  have within : started.iterations ≤ parameters.maxIterations := by
    rw [sameCount]
    exact Nat.zero_le _
  split at searched
  · exact endsWithin_of_improve_eq_ok looksOn within searched
  · cases searched
    exact ⟨within, looksOn, nofun⟩

/-- The solution of a search that ends within its limits honours them. -/
theorem solution_honours
    {problem : Problem α}
    {parameters : RoutingParameters α}
    {outcome : Solution α}
    (ends :
      progress.EndsWithin ⟨parameters.maxIterations, parameters.timeLimit⟩ start interruption?)
    (told : solution problem parameters fleet interruption? progress = .ok outcome) :
    outcome.Honours parameters.toSharedParameters start := by
  obtain ⟨isStatus, isAccount⟩ := closes_of_solution_eq_ok told
  have within : outcome.account.iterations ≤ parameters.maxIterations := by
    rw [isAccount]
    exact Int.ofNat_le.mpr ends.within
  split at isStatus
  · cases interruption? with
    | none => exact .of_other within (by simp [isStatus, statusWithout])
    | some interruption =>
        refine .of_interruption (by rw [isAccount]) ends.within ends.precedes
          (ends.areDue interruption rfl) (by rw [isAccount]) (isStatus.trans ?_) ?_
        · cases interruption <;> simp [statusWithout, Interruption.status?]
        · rintro rfl
          simp only [isAccount, details, decide_true, ↓reduceIte]
          exact Table.get?_ofList_append_cons _ [] _ (by simp)
  · exact .of_other within (by simp [isStatus])

/-- A solve that returns honours the limits of its parameters. -/
theorem solve_honours
    [Elementary α]
    {problem : RoutingProblem α}
    {parameters : RoutingParameters α}
    {outcome : Solution α}
    (solved : solve problem parameters start = .ok outcome) :
    outcome.Honours parameters.toSharedParameters start := by
  unfold solve solveOn at solved
  dsimp only at solved
  split at solved
  · rename_i isCancelled
    cases solved
    exact .of_cancelled (Int.natCast_nonneg _) ((Watch.Precedes.refl start).sawFlag isCancelled)
      rfl
  · obtain ⟨⟨interruption?, progress⟩, searched, told⟩ := bind_eq_ok (settled_eq_ok solved)
    exact solution_honours
      (endsWithin_of_search_eq_ok (Watch.Precedes.refl start).lookAtFlag searched) told

end Routing

/-!
## What a routing search tells

The status of a plan is positive only where nothing is reported against it.  Then no location
is left unserved, so all of them are stops of the reported routes, and the metrics of the plan
are those under which all constraints hold.
-/

/-- An outcome has no violations, reports routes that come to all locations, and tells the metrics
of a plan under which all constraints hold. -/
def RoutingProblem.IsSolvedBy {α : Type} [Scalar α] [Elementary α] (problem : RoutingProblem α)
    (averageSpeed tolerance : α) (outcome : Solution α) : Prop :=
  let fleet : Fleet α := ⟨problem.network averageSpeed, problem.vehicles, problem.objectives⟩
  outcome.violations = [] ∧
    Routing.reportedUnserved? outcome = some [] ∧
    ∃ plan,
      fleet.Drivable plan ∧
        Routing.reportedRoutes? outcome = some (Routing.reportOf fleet plan) ∧
        ((Routing.reportOf fleet plan).flatMap (·.stops)).Perm
          (problem.locations.map (·.identifier)) ∧
        (∃ values,
          Objectives.values problem.objectives (.ofNumbers (fleet.metrics plan [])) = .ok values ∧
            outcome.objectiveValues = (Table.mk (fleet.metrics plan [])).merge values) ∧
        Constraints.AllHold tolerance (.ofNumbers (fleet.metrics plan [])) problem.constraints

namespace Routing

variable {α : Type} [Scalar α]

/-- Nothing is reported against a solution with a positive status. -/
theorem violations_eq_nil_of_isPositive
    {problem : Problem α}
    {parameters : RoutingParameters α}
    {fleet : Fleet α}
    {interruption? : Option Interruption}
    {progress : Progress α}
    {outcome : Solution α}
    (told : solution problem parameters fleet interruption? progress = .ok outcome)
    (isPositive : outcome.status.IsPositive) :
    outcome.violations = [] := by
  rw [(closes_of_solution_eq_ok told).isStatus] at isPositive
  split at isPositive
  · rename_i noViolation
    exact List.isEmpty_iff.mp noViolation
  · exact isPositive.elim

/-- A solve with a positive status solves the problem. -/
theorem isSolvedBy_of_solve_eq_ok
    [Elementary α]
    [MeasuringScalar α]
    {problem : RoutingProblem α}
    {parameters : RoutingParameters α}
    {watch : Watch α}
    {outcome : Solution α}
    (solved : solve problem parameters watch = .ok outcome)
    (isPositive : outcome.status.IsPositive) :
    problem.IsSolvedBy parameters.averageSpeed parameters.tolerance outcome := by
  unfold solve solveOn at solved
  dsimp only at solved
  split at solved
  · cases solved
    exact isPositive.elim
  · obtain ⟨⟨interruption?, progress⟩, searched, told⟩ := bind_eq_ok (settled_eq_ok solved)
    have sound := (Progress.Sound.search searched).1.plan_sound
    have noViolation := violations_eq_nil_of_isPositive told isPositive
    obtain ⟨isReported, areUnserved, ⟨missed, areMissed, areViolations⟩, areValues, -⟩ :=
      reports_of_solution_eq_ok told
    rw [noViolation] at areViolations
    obtain ⟨noneListed, rfl⟩ := List.append_eq_nil_iff.mp areViolations.symm
    have noneUnserved : progress.unserved = [] := by
      have isSorted := List.mergeSort_perm progress.unserved fun a b => decide (a ≤ b)
      rw [List.map_eq_nil_iff.mp noneListed] at isSorted
      exact isSorted.symm.eq_nil
    rw [noneUnserved] at areUnserved areMissed areValues sound
    refine ⟨noViolation, by simpa using areUnserved, progress.plan, sound.drivable, isReported,
      ?_, areValues, Constraints.violations_eq_nil_iff.mp areMissed⟩
    have accounted := sound.accounted
    rw [List.append_nil] at accounted
    rw [flatMap_stops_reportOf sound.drivable, ← problem.map_identifier_customers]
    exact accounted.map _

end Routing

end Optima
