import Optima.Proofs.Table
import Optima.Scheduling.Solve

namespace Optima

/-!
# What a solution reports of its schedule

The schedule of a solution stands in its details as documents.  They are read back
here, and what is read are the placements of the report that the solution is made
of, in the order of their starts.
-/

namespace Scheduling

variable {α : Type}

/-- A placement as a solution reports it. -/
structure ReportedPlacement (α : Type) where
  task : String
  start : α
  finish : α
  resources : List (String × α)
  cost : α

namespace ReportedPlacement

/-- Read the use of a resource. -/
def readUse? (document : Document α) : Option (String × α) := do
  return (← document.textAt? "resource_id", ← (document.valueAt "quantity").number?)

/-- Read a placement. -/
def read? (document : Document α) : Option (ReportedPlacement α) := do
  return {
    task := ← document.textAt? "task_id"
    start := ← (document.valueAt "start").number?
    finish := ← (document.valueAt "end").number?
    resources := ← (document.itemsAt "resources").mapM readUse?
    cost := ← (document.valueAt "cost").number?
  }

/-- What is reported of a placement. -/
def ofPlacement (placement : Placement α) : ReportedPlacement α where
  task := placement.task
  start := placement.start
  finish := placement.finish
  resources := placement.resources
  cost := placement.cost

/-- A placement is read back as it was written. -/
theorem read?_placementDocument
    (placement : Placement α) :
    read? (placementDocument placement) = some (ofPlacement placement) := by
  have usesBack :
      (Document.listOf useDocument placement.resources).items.mapM readUse? =
        some (placement.resources.map id) :=
    Document.mapM_listOf placement.resources fun use _ => rfl
  rw [List.map_id] at usesBack
  simp only [read?, placementDocument, Document.textAt?, Document.itemsAt,
    Document.valueAt, Document.field?, List.lookup_cons]
  simp [usesBack, Document.text?, Document.number?, ofPlacement]

end ReportedPlacement

/-- The schedule that a solution reports; a solution that says nothing of it has an empty one. -/
def reportedSchedule? (solution : Solution α) : Option (List (ReportedPlacement α)) :=
  match solution.account.details.get? "schedule" with
  | none => some []
  | some document => document.items.mapM ReportedPlacement.read?

variable [Scalar α]

namespace ReportedPlacement

/-- Whether a placement holds a resource at a moment that is not within the slack of its ends. -/
def holds (placement : ReportedPlacement α) (resource : String) (moment : α) : Bool :=
  placement.resources.any (·.1 == resource)
    && placement.start + Scalar.slack ≤ moment
    && decide (moment < placement.finish - Scalar.slack)

/-- The quantity that a placement uses of a resource. -/
def quantityOf (placement : ReportedPlacement α) (resource : String) : α :=
  Scalar.total ((placement.resources.filter (·.1 == resource)).map (·.2))

end ReportedPlacement

/-- The quantities that placements hold of a resource at a moment. -/
def quantitiesHeld (placements : List (ReportedPlacement α)) (resource : String) (moment : α) :
    List α :=
  (placements.filter (·.holds resource moment)).map (·.quantityOf resource)

/-- What a solution takes over from the report that it is made of. -/
structure Takes (report : Report α) (runtime : α) (outcome : Solution α) : Prop where
  isStatus : outcome.status = report.status
  areViolations : outcome.violations = report.violations
  areIterations : outcome.account.iterations = report.iterations
  isRuntime : outcome.account.runtime = runtime
  areDetails :
    ∃ shown, "cancelled" ∉ shown.map (·.1) ∧
      outcome.account.details = Table.ofList (report.details ++ shown)
  isBare :
    report.placements = [] →
      outcome = { Solution.bare outcome.problem report.status outcome.account with
        violations := report.violations }

theorem takes_of_solution_eq_ok
    {problem : SchedulingProblem α}
    {tolerance runtime : α}
    {report : Report α}
    {outcome : Solution α}
    (told : solution problem tolerance runtime report = .ok outcome) :
    Takes report runtime outcome := by
  unfold solution at told
  dsimp only at told
  split at told
  · cases told
    exact ⟨rfl, rfl, rfl, rfl, ⟨[], by simp, by rw [List.append_nil]; rfl⟩, fun _ => rfl⟩
  · rename_i somePlaced
    obtain ⟨values, -, told⟩ := bind_eq_ok told
    obtain ⟨sensitivity, -, told⟩ := bind_eq_ok told
    cases told
    refine ⟨rfl, rfl, rfl, rfl, ⟨_, ?_, rfl⟩, fun nonePlaced => ?_⟩
    · simp
    · exact absurd (List.isEmpty_iff.mpr nonePlaced) somePlaced

/-- A solution reports the placements that it is made of. -/
theorem reportedSchedule?_of_solution
    {problem : SchedulingProblem α}
    {tolerance runtime : α}
    {report : Report α}
    {outcome : Solution α}
    (silent : "schedule" ∉ report.details.map (·.1))
    (ended : solution problem tolerance runtime report = .ok outcome) :
    ∃ placements,
      reportedSchedule? outcome = some placements ∧
        placements.Perm (report.placements.map .ofPlacement) := by
  unfold solution at ended
  dsimp only at ended
  split at ended
  · rename_i isEmpty
    simp only [pure, Except.pure, Except.ok.injEq] at ended
    subst outcome
    refine ⟨[], ?_, by simp [List.isEmpty_iff.mp isEmpty]⟩
    have nothingThere :=
      Table.get?_insertAll_of_not_mem Table.empty report.details silent
    simp only [reportedSchedule?, Solution.bare, Table.ofList, nothingThere, Table.get?_empty]
  · obtain ⟨values, -, ended⟩ := bind_eq_ok ended
    obtain ⟨sensitivity, -, ended⟩ := bind_eq_ok ended
    simp only [pure, Except.pure, Except.ok.injEq] at ended
    subst outcome
    refine ⟨(report.placements.mergeSort earlierFirst).map .ofPlacement, ?_,
      (List.mergeSort_perm report.placements earlierFirst).map _⟩
    have scheduleThere :
        (Table.ofList (report.details ++
            [("schedule", .listOf placementDocument
              (report.placements.mergeSort earlierFirst))])).get? "schedule" =
          some (.listOf placementDocument (report.placements.mergeSort earlierFirst)) := by
      simp [Table.ofList, Table.insertAll]
    simp only [reportedSchedule?, scheduleThere]
    exact Document.mapM_listOf _ fun placement _ =>
      ReportedPlacement.read?_placementDocument placement

end Scheduling

end Optima
