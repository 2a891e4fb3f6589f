import Optima.Proofs.Scheduling.Verdict
import Optima.Proofs.Search.Naming

namespace Optima

/-!
# Scheduling finds its names

Every schedule is measured by the same metrics, and a rule that reads these and nothing else
misses no name.  The ends of tasks are looked up by name as well.  A search knows the end of each
placed task, and it takes back the latest one only, so the end of an earlier task is never lost.
-/

namespace NamingFailure

variable {α : Type}

instance : NamingFailure Lapse where
  MissesName
    | .unfinished _ => True
    | _ => False

instance : NamingFailure (Scheduling.SearchFailure α) where
  MissesName
    | .lapse cause => MissesName cause
    | .evaluation cause => MissesName cause

end NamingFailure

namespace Scheduling

section Failures

variable {α β : Type}

theorem findsNames_lapse
    {computation : Except Lapse β}
    (finds : FindsNames computation) :
    FindsNames (computation.mapError SearchFailure.lapse : Except (SearchFailure α) β) :=
  finds.mapError fun _ => id

theorem findsNames_evaluation
    {computation : Except (EvalFailure α) β}
    (finds : FindsNames computation) :
    FindsNames (computation.mapError SearchFailure.evaluation) :=
  finds.mapError fun _ => id

/-- A failure of the search is told as a failure that misses a name only if it does. -/
theorem missesName_of_toSolveFailure
    {failure : SearchFailure α}
    (misses : NamingFailure.MissesName failure.toSolveFailure) :
    NamingFailure.MissesName failure := by
  rcases failure with cause | cause <;> cases cause <;> exact misses

end Failures

end Scheduling

namespace Schedule

variable {α : Type} {schedule : Schedule α}

/-- The ends of all placed tasks are known. -/
def KnowsEnds (schedule : Schedule α) : Prop :=
  ∀ placement ∈ schedule.placements, placement.task ∈ schedule.finished.names

theorem KnowsEnds.start
    (problem : SchedulingProblem α) :
    (Schedule.start problem).KnowsEnds :=
  nofun

theorem KnowsEnds.place
    (knows : schedule.KnowsEnds)
    (placement : Placement α) :
    (schedule.place placement).KnowsEnds := by
  intro other member
  rw [Table.mem_names_iff]
  simp only [Schedule.place, Table.get?_insert]
  split
  · exact Option.some_ne_none _
  · rename_i isOther
    rcases List.mem_append.mp member with isEarlier | isLatest
    · exact (Table.mem_names_iff _ _).mp (knows other isEarlier)
    · exact absurd (congrArg Placement.task (List.mem_singleton.mp isLatest)) isOther

variable [Scalar α]

/-- Taking the latest placement back leaves the ends of other tasks. -/
theorem KnowsEnds.withdraw
    {earlier : Schedule α}
    (knows : schedule.KnowsEnds)
    (distinct : (schedule.placements.map (·.task)).Nodup)
    (withdrawn : schedule.withdraw = .ok earlier) :
    earlier.KnowsEnds := by
  unfold Schedule.withdraw at withdrawn
  split at withdrawn
  · cases withdrawn
  · rename_i latest isLatest
    split at withdrawn
    · cases withdrawn
    · split at withdrawn
      · cases withdrawn
      · cases withdrawn
        have shape : schedule.placements.dropLast ++ [latest] = schedule.placements := by
          rw [List.getLast?_eq_some_iff] at isLatest
          obtain ⟨others, isSplit⟩ := isLatest
          rw [isSplit, List.dropLast_concat]
        intro other member
        have isKnown := knows other (List.dropLast_subset _ member)
        have isOther : other.task ≠ latest.task := by
          rw [← shape, List.map_append, List.nodup_append] at distinct
          exact distinct.2.2 _ (List.mem_map_of_mem member) _ (by simp)
        simp only [Table.names, Table.erase, List.mem_map, List.mem_filter] at isKnown ⊢
        obtain ⟨entry, isEntry, isName⟩ := isKnown
        exact ⟨entry, ⟨isEntry, by simpa [isName] using isOther⟩, isName⟩

theorem findsNames_withdraw
    (knows : schedule.KnowsEnds) :
    FindsNames schedule.withdraw := by
  unfold Schedule.withdraw
  split
  · exact findsNames_error id
  · rename_i latest isLatest
    split
    · exact findsNames_error id
    · have isKnown := knows latest (List.mem_of_getLast? isLatest)
      rw [← Table.contains_iff_mem_names] at isKnown
      rw [isKnown]
      exact findsNames_ok _

/-- A task has options where the ends of all tasks that it waits for are known. -/
theorem findsNames_options
    {problem : SchedulingProblem α}
    {maxCandidates : Nat}
    {task : Task α}
    (allFinished : ∀ dependency ∈ task.dependencies, dependency ∈ schedule.finished.names) :
    FindsNames (schedule.options problem maxCandidates task) := by
  obtain ⟨ready, isReady⟩ := problem.exists_readyTime_eq_ok allFinished
  rw [Schedule.options, SchedulingProblem.options, isReady]
  exact findsNames_ok _

end Schedule

variable {α : Type} [Scalar α]

/-- The metrics of placements have a number for each of their names. -/
theorem SchedulingProblem.covers_metricsOf
    (problem : SchedulingProblem α)
    (placements : List (Placement α)) :
    (problem.metricsOf placements).Covers metricNames :=
  Assignment.covers_ofNumbers fun _ member => member

namespace Scheduling

/-- A pass looks up the ends of placed tasks only. -/
theorem findsNames_greedy
    {problem : SchedulingProblem α}
    {maxCandidates : Nat}
    (schedule : Schedule α)
    (order : List (Task α)) :
    FindsNames (greedy problem maxCandidates schedule order) := by
  induction order generalizing schedule with
  | nil => exact findsNames_ok _
  | cons task rest inductionHypothesis =>
      unfold greedy
      dsimp only
      split
      · exact (inductionHypothesis _).bind fun _ _ => findsNames_ok _
      · rename_i noneMissing
        have allFinished : ∀ dependency ∈ task.dependencies,
            dependency ∈ schedule.finished.names := by
          simpa [missingPrerequisites, Table.contains_iff_mem_names] using noneMissing
        refine (Schedule.findsNames_options allFinished).bind fun options _ => ?_
        cases options with
        | nil => exact (inductionHypothesis _).bind fun _ _ => findsNames_ok _
        | cons placement _ => exact inductionHypothesis _

variable {setting : Setting α} {order : List (Task α)} {state : Descent α}

section Knowing

variable (ordered : setting.problem.OrderedTasks order)

include ordered

omit [Scalar α] in
theorem Descent.InTurn.nodup_tasks
    (inTurn : state.InTurn order) :
    (state.schedule.placements.map (·.task)).Nodup := by
  rw [inTurn.placed]
  exact ordered.nodup_take _

/-- A search that knows the ends of all placed tasks still does after a turn. -/
theorem knowsEnds_of_turn
    {next : Descent α}
    (inTurn : state.InTurn order)
    (knows : state.schedule.KnowsEnds)
    (turned : turn setting order state = .ok (.onward next)) :
    next.schedule.KnowsEnds := by
  have distinct := inTurn.nodup_tasks ordered
  cases turnDone_of_turn turned with
  | kept isComplete outcome withdrawn => exact knows.withdraw distinct withdrawn
  | back isNext untried withdrawn => exact knows.withdraw distinct withdrawn
  | tried isNext untried goesOn => exact knows.place _

/-- The next task has options, for all tasks that it waits for are placed. -/
theorem findsNames_untriedOf
    {task : Task α}
    (inTurn : state.InTurn order)
    (knows : state.schedule.KnowsEnds)
    (isNext : order[state.schedule.placements.length]? = some task) :
    FindsNames (state.untriedOf setting task) := by
  unfold Descent.untriedOf
  split
  · refine FindsNames.map (Schedule.findsNames_options fun dependency member => ?_) _
    have isPlaced := ordered.dependencies_mem isNext dependency member
    rw [← inTurn.placed] at isPlaced
    obtain ⟨placement, isThere, rfl⟩ := List.mem_map.mp isPlaced
    exact knows placement isThere
  · exact findsNames_ok _

end Knowing

section Reading

variable (readsOnly : setting.problem.toProblem.ReadsOnly SchedulingProblem.metricNames)

include readsOnly

theorem findsNames_judge
    (placements : List (Placement α))
    (progress : Progress α) :
    FindsNames (judge setting.problem setting.tolerance placements progress) := by
  have covers := setting.problem.covers_metricsOf placements
  refine (Objectives.findsNames_costOf readsOnly.objectives covers).bind fun _ _ => ?_
  refine (Constraints.findsNames_totalFrom readsOnly.constraints covers 0).bind fun _ _ => ?_
  refine (Constraints.findsNames_feasible readsOnly.constraints covers).bind
    fun isFeasible _ => ?_
  split <;> exact findsNames_ok _

theorem findsNames_judged
    (report : Report α) :
    FindsNames (judged setting report) :=
  (Constraints.findsNames_violations readsOnly.constraints
    (setting.problem.covers_metricsOf report.placements)).bind fun _ _ => findsNames_ok _

/-- A turn misses no name where the ends of all placed tasks are known. -/
theorem findsNames_turn
    (ordered : setting.problem.OrderedTasks order)
    (inTurn : state.InTurn order)
    (knows : state.schedule.KnowsEnds) :
    FindsNames (turn setting order state) := by
  have findsEarlier := findsNames_lapse (α := α) (Schedule.findsNames_withdraw knows)
  unfold turn
  dsimp only
  split
  · refine (findsNames_evaluation (findsNames_judge readsOnly _ _)).bind fun outcome _ => ?_
    obtain ⟨halt?, judged⟩ := outcome
    cases halt? with
    | some halt => exact findsNames_ok _
    | none => exact findsEarlier.bind fun _ _ => findsNames_ok _
  · rename_i task isNext
    refine (findsNames_lapse (findsNames_untriedOf ordered inTurn knows isNext)).bind
      fun found _ => ?_
    obtain ⟨options, others⟩ := found
    cases options with
    | nil =>
        dsimp only
        split
        · exact findsNames_ok _
        · exact findsEarlier.bind fun _ _ => findsNames_ok _
    | cons placement rest =>
        dsimp only
        split <;> exact findsNames_ok _

/-- However long a search goes on, no name is missed. -/
theorem findsNames_run
    (ordered : setting.problem.OrderedTasks order)
    (inTurn : state.InTurn order)
    (knows : state.schedule.KnowsEnds) :
    FindsNames (run setting order state) := by
  fun_induction run setting order state with
  | case1 state failure turned =>
      exact findsNames_error (findsNames_turn readsOnly ordered inTurn knows failure turned)
  | case2 state halt? progress turned => exact findsNames_ok _
  | case3 state next turned inductionHypothesis =>
      exact inductionHypothesis (inTurn_of_turn inTurn turned)
        (knowsEnds_of_turn ordered inTurn knows turned)

theorem findsNames_greedyReport
    (interruption? : Option Interruption)
    (report : Report α) :
    FindsNames (greedyReport setting order interruption? report) := by
  refine (findsNames_lapse (findsNames_greedy _ _)).bind fun passed _ => ?_
  obtain ⟨schedule, unplaced⟩ := passed
  dsimp only
  split
  · exact findsNames_evaluation (findsNames_judged readsOnly _)
  · split
    · exact findsNames_ok _
    · exact findsNames_evaluation (findsNames_judged readsOnly _)

theorem findsNames_reportOn
    (halt? : Option (Halt α))
    (progress : Progress α) :
    FindsNames (reportOn setting order halt? progress) := by
  unfold reportOn
  dsimp only
  split
  · exact findsNames_evaluation (findsNames_judged readsOnly _)
  · exact findsNames_evaluation (findsNames_judged readsOnly _)
  · exact findsNames_greedyReport readsOnly _ _

theorem findsNames_searchUnlessCancelled
    (watch : Watch α) :
    FindsNames (searchUnlessCancelled setting watch) := by
  unfold searchUnlessCancelled
  dsimp only
  split
  · exact findsNames_ok _
  · unfold search
    dsimp only
    split
    · exact findsNames_ok _
    · have atStart :
          (Descent.start setting.problem watch.lookAtFlag.2).InTurn setting.problem.order.1 :=
        ⟨rfl, trivial, .inl rfl⟩
      have findsEnd := findsNames_run readsOnly setting.problem.orderedTasks_order atStart
        (.start setting.problem)
      exact findsEnd.bind fun ending _ =>
        (findsNames_reportOn readsOnly ending.1 ending.2).bind fun _ _ => findsNames_ok _

end Reading

section Solving

variable {problem : SchedulingProblem α} {parameters : SchedulingParameters α} {watch : Watch α}
  (readsOnly : problem.toProblem.ReadsOnly SchedulingProblem.metricNames)

include readsOnly

/-- What is told of placements misses no metric. -/
theorem findsNames_solution
    (tolerance runtime : α)
    (report : Report α) :
    FindsNames (solution problem tolerance runtime report) := by
  have covers := problem.covers_metricsOf report.placements
  unfold solution
  dsimp only
  split
  · exact findsNames_ok _
  · exact (Objectives.findsNames_values readsOnly.objectives covers).bind fun _ _ =>
      (Sensitivity.findsNames_ofMetrics readsOnly covers tolerance).bind fun _ _ =>
        findsNames_ok _

/-- Scheduling finds its names where the rules of a problem read those of its metrics. -/
theorem findsNames_solve :
    FindsNames (solve problem parameters watch) := by
  refine FindsNames.mapError ?_ fun _ => missesName_of_toSolveFailure
  refine FindsNames.bind ?_ fun outcome _ =>
    findsNames_evaluation (findsNames_solution readsOnly _ _ outcome.1)
  exact findsNames_searchUnlessCancelled readsOnly watch

end Solving

end Scheduling

end Optima
