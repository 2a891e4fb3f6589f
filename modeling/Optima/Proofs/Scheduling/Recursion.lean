import Optima.Proofs.Scheduling.Search

namespace Optima

/-!
# The search is a recursion over the tasks

The search keeps by hand what a recursion would keep for it: the options that are
left of each task, and the schedule to go back to.  `explore` is that recursion.  It
goes through the options of the next task, and below each of them through the rest
of the tasks.
-/

namespace Scheduling

variable {α : Type} [Scalar α]

/-- The progress once a task has run out of options; nothing is counted at the first task. -/
def Progress.goneBack (progress : Progress α) (schedule : Schedule α) : Progress α :=
  if schedule.placements.isEmpty then progress
  else { progress with backtracks := progress.backtracks + 1 }

/-- Try options one after the other until a search below one of them halts. -/
def exploreOptions (budget : Budget α)
    (below : Schedule α → Progress α → Except (SearchFailure α) (Option (Halt α) × Progress α))
    (schedule : Schedule α) :
    List (Placement α) → Progress α → Except (SearchFailure α) (Option (Halt α) × Progress α)
  | [], progress => .ok (none, progress.goneBack schedule)
  | placement :: rest, progress =>
    match budget.interruption progress.iterations progress.watch with
    | (some interruption, watch) =>
      .ok (some (.interrupted interruption), { progress with watch := watch })
    | (none, watch) => do
      let iterations := progress.iterations + 1
      let (halt?, after) ← below (schedule.place placement)
        { progress with iterations := iterations, watch := watch }
      match halt? with
      | some halt => return (some halt, after)
      | none => exploreOptions budget below schedule rest after

/-- Search below a schedule for the placements of the tasks that are left. -/
def explore (setting : Setting α) :
    List (Task α) → Schedule α → Progress α →
      Except (SearchFailure α) (Option (Halt α) × Progress α)
  | [], schedule, progress =>
    (judge setting.problem setting.tolerance schedule.placements progress).mapError .evaluation
  | task :: rest, schedule, progress => do
    let options ←
      (schedule.options setting.problem setting.maxCandidates task).mapError .lapse
    exploreOptions setting.budget (explore setting rest) schedule options progress

/-- How the search goes on once everything below a schedule has been tried: it halts, or it takes
the last placement back. -/
def resume (setting : Setting α) (order : List (Task α)) (schedule : Schedule α)
    (untried : List (List (Placement α))) :
    Option (Halt α) × Progress α → Except (SearchFailure α) (Option (Halt α) × Progress α)
  | (some halt, progress) => .ok (some halt, progress)
  | (none, progress) =>
    if schedule.placements.isEmpty then .ok (none, progress)
    else do
      let earlier ← schedule.withdraw.mapError .lapse
      run setting order ⟨earlier, untried, progress⟩

variable {setting : Setting α} {order : List (Task α)}

/-- Judging a complete schedule is what the recursion does at its end. -/
theorem run_eq_judge_resume
    {schedule : Schedule α}
    {untried : List (List (Placement α))}
    (isComplete : order[schedule.placements.length]? = none)
    (somePlaced : schedule.placements ≠ [])
    (progress : Progress α) :
    run setting order ⟨schedule, untried, progress⟩ =
      explore setting [] schedule progress >>= resume setting order schedule untried := by
  have turned :
      turn setting order ⟨schedule, untried, progress⟩ =
        (explore setting [] schedule progress >>= fun (halt?, judged) =>
          match halt? with
          | some halt => pure (.ended halt judged)
          | none => do
            let earlier ← schedule.withdraw.mapError .lapse
            return .onward ⟨earlier, untried, judged⟩) := by
    unfold turn explore
    dsimp only
    split
    · rfl
    · rename_i isTask
      cases isComplete.symm.trans isTask
  cases judged : explore setting [] schedule progress with
  | error cause =>
      rw [judged] at turned
      exact run_eq_of_turn_error turned
  | ok outcome =>
      obtain ⟨halt?, after⟩ := outcome
      rw [judged] at turned
      cases halt? with
      | some halt =>
          exact run_eq_of_turn_ended turned
      | none =>
          have notEmpty : schedule.placements.isEmpty = false := by simpa using somePlaced
          cases withdrawn : schedule.withdraw with
          | error lapse =>
              rw [withdrawn] at turned
              rw [run_eq_of_turn_error turned]
              simp [bind, Except.bind, resume, notEmpty, withdrawn, Except.mapError]
          | ok earlier =>
              rw [withdrawn] at turned
              rw [run_eq_of_turn_onward turned]
              simp [bind, Except.bind, resume, notEmpty, withdrawn, Except.mapError]

section Options

variable {schedule : Schedule α} {untried others : List (List (Placement α))} {task : Task α}
  {progress : Progress α}

/-- Where the options of a task are used up, the search goes back. -/
theorem run_eq_resume_of_noneUntried
    (isNext : order[schedule.placements.length]? = some task)
    (noneUntried :
      Descent.untriedOf setting ⟨schedule, untried, progress⟩ task = .ok ([], others)) :
    run setting order ⟨schedule, untried, progress⟩ =
      resume setting order schedule others (none, progress.goneBack schedule) := by
  cases isEmpty : schedule.placements.isEmpty with
  | true =>
      have turned :
          turn setting order ⟨schedule, untried, progress⟩ = .ok (.ended none progress) := by
        simp [turn, isNext, noneUntried, isEmpty, bind, Except.bind, Except.mapError, pure,
          Except.pure]
      rw [run_eq_of_turn_ended turned]
      simp [resume, Progress.goneBack, isEmpty]
  | false =>
      cases withdrawn : schedule.withdraw with
      | error lapse =>
          have turned :
              turn setting order ⟨schedule, untried, progress⟩ = .error (.lapse lapse) := by
            simp [turn, isNext, noneUntried, isEmpty, withdrawn, bind, Except.bind,
              Except.mapError]
          rw [run_eq_of_turn_error turned]
          simp [bind, Except.bind, resume, isEmpty, withdrawn, Except.mapError]
      | ok earlier =>
          have turned :
              turn setting order ⟨schedule, untried, progress⟩ =
                .ok (.onward ⟨earlier, others,
                  { progress with backtracks := progress.backtracks + 1 }⟩) := by
            simp [turn, isNext, noneUntried, isEmpty, withdrawn, bind, Except.bind,
              Except.mapError, pure, Except.pure]
          rw [run_eq_of_turn_onward turned]
          simp [bind, Except.bind, resume, Progress.goneBack, isEmpty, withdrawn,
            Except.mapError]

/-- Where a task has an option left, the search stops at a limit or goes below that option. -/
theorem run_eq_of_untried_cons
    {placement : Placement α}
    {remaining : List (Placement α)}
    (isNext : order[schedule.placements.length]? = some task)
    (someUntried :
      Descent.untriedOf setting ⟨schedule, untried, progress⟩ task =
        .ok (placement :: remaining, others)) :
    run setting order ⟨schedule, untried, progress⟩ =
      match setting.budget.interruption progress.iterations progress.watch with
      | (some interruption, watch) =>
        .ok (some (.interrupted interruption), { progress with watch := watch })
      | (none, watch) =>
        run setting order ⟨schedule.place placement, remaining :: others,
          { progress with iterations := progress.iterations + 1, watch := watch }⟩ := by
  cases outcome : setting.budget.interruption progress.iterations progress.watch with
  | mk interruption? watch =>
      cases interruption? with
      | some interruption =>
          refine run_eq_of_turn_ended ?_
          simp [turn, isNext, someUntried, outcome, bind, Except.bind, Except.mapError, pure,
            Except.pure]
      | none =>
          refine run_eq_of_turn_onward ?_
          simp [turn, isNext, someUntried, outcome, bind, Except.bind, Except.mapError, pure,
            Except.pure]

end Options

variable [OrderedScalar α]

/-- Going through the options that are left of a task is what the recursion does with them, as
long as it does so below each of them. -/
theorem run_eq_exploreOptions_resume
    {tasks rest : List (Task α)}
    {task : Task α}
    {schedule : Schedule α}
    {others : List (List (Placement α))}
    (ordered : setting.problem.OrderedTasks order)
    (isSplit : order = tasks ++ task :: rest)
    (trail : Trail setting.problem setting.maxCandidates tasks schedule others)
    (below : ∀ {passed remaining : List (Placement α)} {placement : Placement α},
      schedule.options setting.problem setting.maxCandidates task =
          .ok (passed ++ placement :: remaining) →
        ∀ progress,
          run setting order ⟨schedule.place placement, remaining :: others, progress⟩ =
            explore setting rest (schedule.place placement) progress >>=
              resume setting order (schedule.place placement) (remaining :: others))
    {passed remaining : List (Placement α)}
    (found : schedule.options setting.problem setting.maxCandidates task =
      .ok (passed ++ remaining))
    (progress : Progress α) :
    run setting order ⟨schedule, remaining :: others, progress⟩ =
      exploreOptions setting.budget (explore setting rest) schedule remaining progress >>=
        resume setting order schedule others := by
  have placed := trail.length_eq.1
  have isNext : order[schedule.placements.length]? = some task := by
    rw [isSplit, placed, List.getElem?_append_right (Nat.le_refl _)]
    simp
  have distinct : ((tasks ++ [task]).map (·.identifier)).Nodup := by
    have isTake : order.take (tasks.length + 1) = tasks ++ [task] := by
      simp [isSplit, List.take_append]
    exact isTake ▸ ordered.nodup_take _
  rw [List.map_append, List.map_singleton, nodup_append_singleton_iff] at distinct
  have kept := trail.kept distinct.1
  induction remaining generalizing passed progress with
  | nil =>
      have noneUntried :
          Descent.untriedOf setting ⟨schedule, [] :: others, progress⟩ task =
            .ok ([], others) := by
        simp [Descent.untriedOf, placed, trail.length_eq.2]
      exact run_eq_resume_of_noneUntried isNext noneUntried
  | cons placement remaining inductionHypothesis =>
      have someUntried :
          Descent.untriedOf setting ⟨schedule, (placement :: remaining) :: others, progress⟩
              task = .ok (placement :: remaining, others) := by
        simp [Descent.untriedOf, placed, trail.length_eq.2]
      have foundLater :
          schedule.options setting.problem setting.maxCandidates task =
            .ok ((passed ++ [placement]) ++ remaining) := by
        simpa using found
      obtain ⟨ready, -, -, grants⟩ := exists_grants_of_options found
      have comesBack : (schedule.place placement).withdraw = .ok schedule :=
        kept.withdraw_place (grants.task_eq ▸ distinct.2)
      rw [run_eq_of_untried_cons isNext someUntried]
      unfold exploreOptions
      split
      · rfl
      · rw [below found]
        dsimp only
        cases explore setting rest (schedule.place placement) _ with
        | error cause => rfl
        | ok result =>
            obtain ⟨halt?, after⟩ := result
            cases halt? with
            | some halt => rfl
            | none =>
                have notEmpty : (schedule.place placement).placements.isEmpty = false := by
                  simp [Schedule.place]
                simp only [bind, Except.bind, resume, notEmpty, comesBack, Except.mapError]
                exact inductionHypothesis foundLater after

/-- From wherever it has come to for the first time, the search does what the recursion does, and
then goes back. -/
theorem run_eq_explore_resume
    {tasks rest : List (Task α)}
    {schedule : Schedule α}
    {untried : List (List (Placement α))}
    (ordered : setting.problem.OrderedTasks order)
    (nonempty : order ≠ [])
    (isSplit : order = tasks ++ rest)
    (trail : Trail setting.problem setting.maxCandidates tasks schedule untried)
    (progress : Progress α) :
    run setting order ⟨schedule, untried, progress⟩ =
      explore setting rest schedule progress >>= resume setting order schedule untried := by
  have placed := trail.length_eq.1
  induction rest generalizing tasks schedule untried progress with
  | nil =>
      rw [List.append_nil] at isSplit
      have isComplete : order[schedule.placements.length]? = none := by
        rw [placed, isSplit, List.getElem?_eq_none_iff]
      have somePlaced : schedule.placements ≠ [] := by
        rw [← List.length_pos_iff, placed, ← isSplit]
        exact List.length_pos_iff.mpr nonempty
      exact run_eq_judge_resume isComplete somePlaced progress
  | cons task rest inductionHypothesis =>
      have isNext : order[schedule.placements.length]? = some task := by
        rw [isSplit, placed, List.getElem?_append_right (Nat.le_refl _)]
        simp
      have below :
          ∀ {passed remaining : List (Placement α)} {placement : Placement α},
            schedule.options setting.problem setting.maxCandidates task =
                .ok (passed ++ placement :: remaining) →
              ∀ progress,
                run setting order ⟨schedule.place placement, remaining :: untried, progress⟩ =
                  explore setting rest (schedule.place placement) progress >>=
                    resume setting order (schedule.place placement)
                      (remaining :: untried) := by
        intro passed remaining placement found progress
        have oneMore := trail.place found
        exact inductionHypothesis (by simpa using isSplit) oneMore progress oneMore.length_eq.1
      have untriedNow :
          Descent.untriedOf setting ⟨schedule, untried, progress⟩ task =
            (schedule.options setting.problem setting.maxCandidates task).map (·, untried) := by
        simp [Descent.untriedOf, placed, trail.length_eq.2]
      cases found : schedule.options setting.problem setting.maxCandidates task with
      | error lapse =>
          have turned :
              turn setting order ⟨schedule, untried, progress⟩ = .error (.lapse lapse) := by
            simp [turn, isNext, untriedNow, found, Except.map, bind, Except.bind,
              Except.mapError]
          rw [run_eq_of_turn_error turned]
          simp [explore, found, bind, Except.bind, Except.mapError]
      | ok options =>
          -- A task that the search comes to has all of its options left.
          have untriedThen :
              Descent.untriedOf setting ⟨schedule, options :: untried, progress⟩ task =
                .ok (options, untried) := by
            simp [Descent.untriedOf, placed, trail.length_eq.2]
          have sameTurn :
              turn setting order ⟨schedule, untried, progress⟩ =
                turn setting order ⟨schedule, options :: untried, progress⟩ := by
            simp only [turn, isNext, untriedNow, untriedThen, found, Except.map]
          have foundAll :
              schedule.options setting.problem setting.maxCandidates task =
                .ok ([] ++ options) := found
          rw [run_congr sameTurn,
            run_eq_exploreOptions_resume ordered isSplit trail below foundAll]
          simp [explore, found, bind, Except.bind, Except.mapError]

/-- The search is the recursion over the tasks. -/
theorem run_start_eq_explore
    (ordered : setting.problem.OrderedTasks order)
    (nonempty : order ≠ [])
    (watch : Watch α) :
    run setting order (.start setting.problem watch) =
      explore setting order (.start setting.problem) (.start watch) := by
  have goesOn :=
    run_eq_explore_resume ordered nonempty (List.nil_append order).symm .start (.start watch)
  unfold Descent.start
  rw [goesOn]
  cases explore setting order (.start setting.problem) (.start watch) with
  | error cause => rfl
  | ok outcome =>
      obtain ⟨halt?, progress⟩ := outcome
      cases halt? <;> rfl

end Scheduling

end Optima
