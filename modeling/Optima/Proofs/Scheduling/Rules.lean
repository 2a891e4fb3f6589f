import Optima.Proofs.Scheduling.Calendar
import Optima.Proofs.Scheduling.Exact
import Optima.Proofs.Scheduling.Solve

namespace Optima

/-!
# What every schedule keeps to

A schedule respects the rules of its tasks and the capacities of its resources.
-/

/-!
## Every schedule respects the rules of its tasks

The options of a task are made to follow its rules: its duration and windows, the
horizon, its requirements, and the ends of what it waits for.  A schedule is built
of options only, so all its placements follow the rules of their tasks.
-/

namespace SchedulingProblem

variable {α : Type} [Scalar α]

/-- The rules that a task sets for the placement that is reported of it. -/
structure KeepsRules (problem : SchedulingProblem α) (task : Task α)
    (placement : Scheduling.ReportedPlacement α) : Prop where
  task_eq : placement.task = task.identifier
  finish_eq : placement.finish = placement.start + task.duration
  horizon_start_le : problem.horizon.start ≤ placement.start
  finish_le : placement.finish ≤ problem.horizon.finish + Scalar.slack
  required :
    task.windowsOf .required ≠ [] →
      ∃ window ∈ task.windowsOf .required,
        window.start ≤ placement.start ∧ placement.finish ≤ window.finish
  forbidden :
    ∀ window ∈ task.windowsOf .forbidden,
      ¬ (placement.start < window.finish ∧ window.start < placement.finish)
  meets : ∃ chosen, problem.Meets task chosen placement.resources

/-- What an option grants a task that is ready within the horizon are its rules. -/
theorem keepsRules_of_grants
    [OrderedScalar α]
    {problem : SchedulingProblem α}
    {calendar : Calendar α}
    {task : Task α}
    {ready : α}
    {placement : Placement α}
    (hasBegun : problem.horizon.start ≤ ready)
    (grants : problem.Grants calendar task ready placement) :
    problem.KeepsRules task (.ofPlacement placement) := by
  have allowed := grants.allowed
  simp only [Task.allows, Bool.and_eq_true, Bool.or_eq_true] at allowed
  obtain ⟨inRequired, notForbidden⟩ := allowed
  refine ⟨grants.task_eq, grants.finish_eq, hasBegun.trans grants.ready_le,
    grants.finish_le, ?_, ?_, grants.meets⟩
  · intro someRequired
    have isInside := inRequired.resolve_left fun isEmpty =>
      someRequired (List.isEmpty_iff.mp isEmpty)
    obtain ⟨window, member, surrounds⟩ := List.any_eq_true.mp isInside
    simp only [Bool.and_eq_true, decide_eq_true_eq] at surrounds
    exact ⟨window, member, surrounds⟩
  · intro window member overlaps
    rw [Bool.not_eq_true', List.any_eq_false] at notForbidden
    apply notForbidden window member
    rw [Bool.and_eq_true, decide_eq_true_eq, decide_eq_true_eq]
    exact overlaps

/-- What holds of a reported placement among others: it follows the rules of its task, and what
the task waits for has ended before it. -/
def IsLawful (problem : SchedulingProblem α)
    (placements : List (Scheduling.ReportedPlacement α))
    (placement : Scheduling.ReportedPlacement α) : Prop :=
  ∃ task ∈ problem.tasks,
    problem.KeepsRules task placement ∧
      ∀ dependency ∈ task.dependencies,
        ∃ earlier ∈ placements,
          earlier.task = dependency ∧ earlier.finish ≤ placement.start

/-- What is lawful among placements is lawful among more of them. -/
theorem IsLawful.of_subset
    {problem : SchedulingProblem α}
    {placements others : List (Scheduling.ReportedPlacement α)}
    {placement : Scheduling.ReportedPlacement α}
    (lawful : problem.IsLawful placements placement)
    (areAmong : placements ⊆ others) :
    problem.IsLawful others placement := by
  obtain ⟨task, inProblem, keepsRules, haveEnded⟩ := lawful
  refine ⟨task, inProblem, keepsRules, ?_⟩
  intro dependency isDependency
  obtain ⟨earlier, inPlacements, hasEnded⟩ := haveEnded dependency isDependency
  exact ⟨earlier, areAmong inPlacements, hasEnded⟩

end SchedulingProblem

namespace Scheduling

variable {α : Type} [Scalar α]

/-- Placements that have been granted one after the other are of different tasks. -/
theorem GrantedInTurn.nodup
    {problem : SchedulingProblem α}
    {placements : List (Placement α)}
    (granted : GrantedInTurn problem placements) :
    (placements.map (·.task)).Nodup := by
  induction granted with
  | nil =>
      exact List.nodup_nil
  | concat grantedBefore inProblem isNew hasBegun haveEnded grants inductionHypothesis =>
      rw [List.map_append, List.map_singleton, nodup_append_singleton_iff]
      exact ⟨inductionHypothesis, isNew⟩

variable [OrderedScalar α]

/-- Placements that have been granted one after the other are all lawful. -/
theorem GrantedInTurn.isLawful
    {problem : SchedulingProblem α}
    {placements : List (Placement α)}
    (granted : GrantedInTurn problem placements) :
    ∀ placement ∈ placements,
      problem.IsLawful (placements.map .ofPlacement) (.ofPlacement placement) := by
  induction granted with
  | nil =>
      simp
  | @concat placements task ready placement grantedBefore inProblem isNew hasBegun haveEnded
      grants inductionHypothesis =>
      have stillThere :
          placements.map ReportedPlacement.ofPlacement ⊆
            (placements ++ [placement]).map ReportedPlacement.ofPlacement := by
        rw [List.map_append]
        exact List.subset_append_left _ _
      intro other member
      rcases List.mem_append.mp member with inEarlier | isThis
      · exact (inductionHypothesis other inEarlier).of_subset stillThere
      · obtain rfl := List.mem_singleton.mp isThis
        refine ⟨task, inProblem, SchedulingProblem.keepsRules_of_grants hasBegun grants, ?_⟩
        intro dependency isDependency
        obtain ⟨earlier, inPlacements, isOf, endsBefore⟩ := haveEnded dependency isDependency
        exact ⟨.ofPlacement earlier, stillThere (List.mem_map_of_mem inPlacements), isOf,
          endsBefore.trans grants.ready_le⟩

/--
A solve never asks for the end of a task that is not placed, and never takes back what
is not booked.  The schedule that it reports, wherever it was stopped, places no task
twice, and each as the rules of the task and the ends of what it waits for allow.
-/
theorem solve_respects_tasks
    (problem : SchedulingProblem α)
    (valid : problem.Valid)
    (parameters : SchedulingParameters α)
    (watch : Watch α) :
    (∀ cause, attempt problem parameters watch ≠ .error (.lapse cause)) ∧
      ∀ outcome,
        solve problem parameters watch = .ok outcome →
          ∃ placements,
            reportedSchedule? outcome = some placements ∧
              (placements.map (·.task)).Nodup ∧
              ∀ placement ∈ placements, problem.IsLawful placements placement := by
  constructor
  · intro cause lapsed
    have delivered :=
      attempt_delivers valid.tasks_ne_nil parameters watch
    rw [lapsed] at delivered
    exact delivered
  · intro outcome solved
    obtain ⟨placements, reported, granted, isReported, samePlacements⟩ :=
      exists_granted_of_solve_eq_ok valid solved
    refine ⟨reported, isReported, ?_, ?_⟩
    · rw [(samePlacements.map (·.task)).nodup_iff, List.map_map]
      exact granted.nodup
    · intro placement member
      obtain ⟨origin, inPlacements, rfl⟩ :=
        List.mem_map.mp (samePlacements.subset member)
      exact (granted.isLawful origin inPlacements).of_subset samePlacements.symm.subset

/-- The schedule of the workshop respects its tasks. -/
theorem workshopProblem_respects_tasks :
    (∀ cause,
        attempt workshopProblem plainParameters Routing.quietWatch ≠ .error (.lapse cause)) ∧
      ∃ outcome placements,
        solve workshopProblem plainParameters Routing.quietWatch = .ok outcome ∧
          reportedSchedule? outcome = some placements ∧
          placements.length = 3 ∧
          (placements.map (·.task)).Nodup ∧
          ∀ placement ∈ placements, workshopProblem.IsLawful placements placement := by
  obtain ⟨outcome, placements, solved, isReported, samePlacements⟩ :=
    exists_solve_workshopProblem
  obtain ⟨neverLapses, respects⟩ :=
    solve_respects_tasks workshopProblem workshopProblem_valid plainParameters
      Routing.quietWatch
  obtain ⟨reported, isReportedToo, distinct, lawful⟩ := respects outcome solved
  obtain rfl := Option.some.inj (isReported.symm.trans isReportedToo)
  exact ⟨neverLapses, outcome, placements, solved, isReported, samePlacements.length_eq,
    distinct, lawful⟩

end Scheduling

/-!
## No schedule overbooks a resource

An option is only taken where its resources have room beside all the placements made
before it.  Placements are taken back in the opposite order, so what a schedule
holds at a moment is what the options found there, one after the other, and the last
of them has been measured against all the others.
-/

namespace Scheduling

variable {α : Type} [Scalar α]

/-- What is held of the resources of a problem is at most what there is. -/
structure WithinCapacity (problem : SchedulingProblem α)
    (placements : List (ReportedPlacement α)) : Prop where
  /-- Where a resource is there, no more is held of it than its capacity. -/
  total_le :
    ∀ resource ∈ problem.resources, ∀ moment capacity,
      resource.capacityAt? moment = some capacity →
        Scalar.total (quantitiesHeld placements resource.identifier moment) ≤
          capacity + Scalar.slack
  /-- Where a resource is not there, nothing holds it. -/
  none_held :
    ∀ resource ∈ problem.resources, ∀ moment,
      resource.capacityAt? moment = none →
        quantitiesHeld placements resource.identifier moment = []
  /-- Where resources are not shared, one placement at most holds a resource. -/
  length_le_one :
    problem.preferences.allowSharing = false →
      ∀ resource ∈ problem.resources, ∀ moment,
        (quantitiesHeld placements resource.identifier moment).length ≤ 1

/-- What one placement more holds comes after what the others hold. -/
theorem quantitiesHeld_append_singleton
    (placements : List (ReportedPlacement α))
    (placement : ReportedPlacement α)
    (resource : String)
    (moment : α) :
    quantitiesHeld (placements ++ [placement]) resource moment =
      if placement.holds resource moment = true then
        quantitiesHeld placements resource moment ++ [placement.quantityOf resource]
      else quantitiesHeld placements resource moment := by
  by_cases holds : placement.holds resource moment = true
  · simp [quantitiesHeld, List.filter_append, holds]
  · simp [quantitiesHeld, List.filter_append, holds]

variable [ExactScalar α]

/-- Within capacity does not depend on the order of the placements. -/
theorem WithinCapacity.perm
    {problem : SchedulingProblem α}
    {placements others : List (ReportedPlacement α)}
    (within : WithinCapacity problem placements)
    (samePlacements : others.Perm placements) :
    WithinCapacity problem others := by
  have sameHeld : ∀ resource moment,
      (quantitiesHeld others resource moment).Perm
        (quantitiesHeld placements resource moment) := by
    intro resource moment
    exact (samePlacements.filter _).map _
  refine ⟨?_, ?_, ?_⟩
  · intro resource member moment capacity isCapacity
    rw [Scalar.total_eq_sum, (sameHeld resource.identifier moment).sum_eq,
      ← Scalar.total_eq_sum]
    exact within.total_le resource member moment capacity isCapacity
  · intro resource member moment notThere
    have noneHeld := within.none_held resource member moment notThere
    exact (noneHeld ▸ sameHeld resource.identifier moment).eq_nil
  · intro notShared resource member moment
    rw [(sameHeld resource.identifier moment).length_eq]
    exact within.length_le_one notShared resource member moment

/-- A placement that meets the requirements of a task uses something of each of its resources. -/
theorem usesEachOnce_of_meets
    {problem : SchedulingProblem α}
    (valid : problem.Valid)
    {task : Task α}
    (inProblem : task ∈ problem.tasks)
    {chosen : List (Resource α)}
    {placement : Placement α}
    (meets : problem.Meets task chosen placement.resources) :
    UsesEachOnce placement := by
  refine ⟨meets.books.nodup, ?_⟩
  intro use inUses
  have isServed :=
    (SchedulingProblem.quantitiesServed_ne_nil_iff _ _).mpr
      ((meets.books.mem_names_iff use.1).mp (List.mem_map_of_mem inUses))
  rw [meets.books.quantity_eq use inUses, Scalar.total_eq_sum]
  refine List.sum_pos _ ?_ isServed
  intro quantity inServed
  obtain ⟨⟨requirement, resource⟩, inServices, rfl⟩ := List.mem_map.mp inServed
  have inRequirements := (List.of_mem_zip (List.mem_of_mem_filter inServices)).1
  exact valid.quantity_pos task inProblem requirement inRequirements

/-- An option leaves what is held within capacity. -/
theorem WithinCapacity.place
    {problem : SchedulingProblem α}
    (valid : problem.Valid)
    {placements : List (Placement α)}
    (within : WithinCapacity problem (placements.map .ofPlacement))
    (usesEachOnce : ∀ placement ∈ placements, UsesEachOnce placement)
    {placement : Placement α}
    (placementUses : UsesEachOnce placement)
    (fits :
      ∀ use ∈ placement.resources,
        (Calendar.mk problem.resources problem.preferences.allowSharing placements).fits
          use.1 use.2 placement.start placement.finish = true) :
    WithinCapacity problem ((placements ++ [placement]).map .ofPlacement) := by
  -- Where the placement holds a resource, the resource has room for it beside the others.
  have hasRoom : ∀ resource ∈ problem.resources, ∀ moment,
      (ReportedPlacement.ofPlacement placement).holds resource.identifier moment = true →
        (∃ limit,
          resource.capacityAt? moment = some limit ∧
            Scalar.total
                (quantitiesHeld (placements.map .ofPlacement) resource.identifier moment ++
                  [(ReportedPlacement.ofPlacement placement).quantityOf resource.identifier]) ≤
              limit + Scalar.slack) ∧
          (problem.preferences.allowSharing = false →
            quantitiesHeld (placements.map .ofPlacement) resource.identifier moment = []) := by
    intro resource member moment holds
    obtain ⟨uses, afterStart, beforeFinish⟩ := holds_ofPlacement_iff.mp holds
    obtain ⟨⟨name, quantity⟩, inUses, sameName⟩ := List.any_eq_true.mp uses
    obtain rfl : name = resource.identifier := by simpa using sameName
    have fitsHere := fits _ inUses
    have isResource := SchedulingProblem.resource?_eq_some_of_mem valid.references member
    unfold SchedulingProblem.resource? at isResource
    simp only [Calendar.fits, Calendar.resource?, isResource] at fitsHere
    obtain ⟨⟨limit, isLimit, totalBelow⟩, alone⟩ :=
      exists_capacity_of_hasRoom usesEachOnce fitsHere afterStart beforeFinish
    refine ⟨⟨limit, isLimit, ?_⟩, alone⟩
    rw [(quantityOf_ofPlacement placementUses.nodup inUses).1]
    simpa [Scalar.total] using totalBelow
  rw [List.map_append, List.map_singleton]
  refine ⟨?_, ?_, ?_⟩
  · intro resource member moment capacity isCapacity
    rw [quantitiesHeld_append_singleton]
    split
    · rename_i holds
      obtain ⟨⟨limit, isLimit, totalBelow⟩, -⟩ := hasRoom resource member moment holds
      obtain rfl := Option.some.inj (isLimit.symm.trans isCapacity)
      exact totalBelow
    · exact within.total_le resource member moment capacity isCapacity
  · intro resource member moment notThere
    rw [quantitiesHeld_append_singleton]
    split
    · rename_i holds
      obtain ⟨⟨limit, isLimit, -⟩, -⟩ := hasRoom resource member moment holds
      simp [notThere] at isLimit
    · exact within.none_held resource member moment notThere
  · intro notShared resource member moment
    rw [quantitiesHeld_append_singleton]
    split
    · rename_i holds
      simp [(hasRoom resource member moment holds).2 notShared]
    · exact within.length_le_one notShared resource member moment

/-- Before anything is placed, nothing is held. -/
theorem WithinCapacity.nil
    {problem : SchedulingProblem α}
    (valid : problem.Valid) :
    WithinCapacity problem [] := by
  refine ⟨?_, fun _ _ _ _ => rfl, fun _ _ _ _ => Nat.zero_le 1⟩
  intro resource member moment capacity isCapacity
  have isNonneg : 0 ≤ capacity := by
    obtain ⟨whole, windows⟩ := valid.capacity_nonneg resource member
    unfold Resource.capacityAt? at isCapacity
    split at isCapacity
    · exact Option.some.inj isCapacity ▸ whole
    · obtain ⟨window, isOpen, rfl⟩ :=
        List.mem_map.mp (Scalar.mem_of_largest?_eq_some isCapacity)
      exact windows window (List.mem_of_mem_filter isOpen)
  exact isNonneg.trans (Scalar.le_add_slack capacity)

/-- Placements that have been granted one after the other are within capacity. -/
theorem GrantedInTurn.withinCapacity
    {problem : SchedulingProblem α}
    (valid : problem.Valid)
    {placements : List (Placement α)}
    (granted : GrantedInTurn problem placements) :
    WithinCapacity problem (placements.map .ofPlacement) ∧
      ∀ placement ∈ placements, UsesEachOnce placement := by
  induction granted with
  | nil =>
      exact ⟨.nil valid, by simp⟩
  | concat grantedBefore inProblem isNew hasBegun haveEnded grants inductionHypothesis =>
      obtain ⟨within, usesEachOnce⟩ := inductionHypothesis
      obtain ⟨chosen, meets⟩ := grants.meets
      have placementUses := usesEachOnce_of_meets valid inProblem meets
      refine ⟨within.place valid usesEachOnce placementUses grants.fits, ?_⟩
      intro other member
      rcases List.mem_append.mp member with inEarlier | isThis
      · exact usesEachOnce other inEarlier
      · exact List.mem_singleton.mp isThis ▸ placementUses

/--
In exact numbers, no resource is overbooked by the schedule that a solution reports,
wherever the search was stopped: at every moment the placements that hold a resource
for more than the slack on either side are within its capacity, and if resources are
not shared there is at most one of them.
-/
theorem solve_overbooks_no_resource
    (problem : SchedulingProblem α)
    (valid : problem.Valid)
    (parameters : SchedulingParameters α)
    (watch : Watch α)
    (outcome : Solution α)
    (solved : solve problem parameters watch = .ok outcome) :
    ∃ placements,
      reportedSchedule? outcome = some placements ∧ WithinCapacity problem placements := by
  obtain ⟨placements, reported, granted, isReported, samePlacements⟩ :=
    exists_granted_of_solve_eq_ok valid solved
  exact ⟨reported, isReported, (granted.withinCapacity valid).1.perm samePlacements⟩

/-- The schedule of the workshop overbooks nobody. -/
theorem workshopProblem_overbooks_no_resource :
    ∃ outcome placements,
      solve workshopProblem plainParameters Routing.quietWatch = .ok outcome ∧
        reportedSchedule? outcome = some placements ∧
        placements.length = 3 ∧
        WithinCapacity workshopProblem placements := by
  obtain ⟨outcome, placements, solved, isReported, samePlacements⟩ :=
    exists_solve_workshopProblem
  obtain ⟨reported, isReportedToo, within⟩ :=
    solve_overbooks_no_resource workshopProblem workshopProblem_valid plainParameters
      Routing.quietWatch outcome solved
  obtain rfl := Option.some.inj (isReported.symm.trans isReportedToo)
  exact ⟨outcome, placements, solved, isReported, samePlacements.length_eq, within⟩

end Scheduling

end Optima
