import Optima.Scheduling.Schedule

namespace Optima

/-!
# Search for a schedule

The search goes depth first over the options of each task: a task that has run out
of options sends it back to the task before.  The first complete schedule that
satisfies the constraints is taken.  Where the search finds no complete schedule at
all, every task takes its first option, and the tasks that cannot be placed are
reported.
-/

namespace Scheduling

variable {α : Type} [Scalar α]

/-- What the turns of a search use up: iterations, and placements where it goes back. -/
def Descent.rank (setting : Setting α) (state : Descent α) : Nat × Nat :=
  (setting.budget.maxIterations - state.progress.iterations, state.schedule.placements.length)

/-- Taking a placement back leaves fewer placements. -/
theorem length_withdraw_lt
    {schedule earlier : Schedule α}
    (withdrawn : schedule.withdraw = .ok earlier) :
    earlier.placements.length < schedule.placements.length := by
  unfold Schedule.withdraw at withdrawn
  split at withdrawn
  · simp at withdrawn
  · rename_i placement isLast
    have nonempty : schedule.placements ≠ [] := by
      intro isEmpty
      simp [isEmpty] at isLast
    have positive := List.length_pos_iff.mpr nonempty
    split at withdrawn
    · simp at withdrawn
    · split at withdrawn
      · simp at withdrawn
      · simp only [Except.ok.injEq] at withdrawn
        subst earlier
        simp only [List.length_dropLast]
        omega

/-- Judging a schedule is not an iteration. -/
theorem iterations_judge
    {problem : SchedulingProblem α}
    {tolerance : α}
    {placements : List (Placement α)}
    {progress judged : Progress α}
    {halt? : Option (Halt α)}
    (outcome : judge problem tolerance placements progress = .ok (halt?, judged)) :
    judged.iterations = progress.iterations := by
  unfold judge at outcome
  simp only [bind, Except.bind, pure, Except.pure] at outcome
  repeat' split at outcome
  all_goals simp_all
  all_goals
    obtain ⟨-, rfl⟩ := outcome
    rfl

/-- A search that is not interrupted has iterations left. -/
theorem iterations_lt_of_interruption
    {budget : Budget α}
    {iterations : Nat}
    {watch looked : Watch α}
    (goesOn : budget.interruption iterations watch = (none, looked)) :
    iterations < budget.maxIterations := by
  unfold Budget.interruption at goesOn
  split at goesOn
  · simp at goesOn
  · simp only [Prod.mk.injEq, Option.map_eq_none_iff] at goesOn
    unfold Budget.exhausted at goesOn
    split at goesOn
    · simp at goesOn
    · omega

/-- What a turn that does not lapse has done. -/
inductive TurnDone (setting : Setting α) (order : List (Task α)) (state : Descent α) :
    Turn α → Prop where
  /-- A complete schedule is taken. -/
  | taken {halt : Halt α} {judged : Progress α}
      (isComplete : order[state.schedule.placements.length]? = none)
      (outcome : judge setting.problem setting.tolerance state.schedule.placements
        state.progress = .ok (some halt, judged)) :
      TurnDone setting order state (.ended (some halt) judged)
  /-- A complete schedule is kept, and the search goes on from its last task. -/
  | kept {earlier : Schedule α} {judged : Progress α}
      (isComplete : order[state.schedule.placements.length]? = none)
      (outcome : judge setting.problem setting.tolerance state.schedule.placements
        state.progress = .ok (none, judged))
      (withdrawn : state.schedule.withdraw = .ok earlier) :
      TurnDone setting order state (.onward { state with schedule := earlier, progress := judged })
  /-- The first task has no option left. -/
  | exhausted {task : Task α} {others : List (List (Placement α))}
      (isNext : order[state.schedule.placements.length]? = some task)
      (untried : state.untriedOf setting task = .ok ([], others))
      (isFirst : state.schedule.placements = []) :
      TurnDone setting order state (.ended none state.progress)
  /-- A task has no option left, and the search goes back to the task before it. -/
  | back {task : Task α} {others : List (List (Placement α))} {earlier : Schedule α}
      (isNext : order[state.schedule.placements.length]? = some task)
      (untried : state.untriedOf setting task = .ok ([], others))
      (withdrawn : state.schedule.withdraw = .ok earlier) :
      TurnDone setting order state (.onward ⟨earlier, others,
        { state.progress with backtracks := state.progress.backtracks + 1 }⟩)
  /-- A limit is reached. -/
  | interrupted {task : Task α} {placement : Placement α} {rest : List (Placement α)}
      {others : List (List (Placement α))} {interruption : Interruption} {watch : Watch α}
      (isNext : order[state.schedule.placements.length]? = some task)
      (untried : state.untriedOf setting task = .ok (placement :: rest, others))
      (stops : setting.budget.interruption state.progress.iterations state.progress.watch
        = (some interruption, watch)) :
      TurnDone setting order state
        (.ended (some (.interrupted interruption)) { state.progress with watch := watch })
  /-- An option is tried. -/
  | tried {task : Task α} {placement : Placement α} {rest : List (Placement α)}
      {others : List (List (Placement α))} {watch : Watch α}
      (isNext : order[state.schedule.placements.length]? = some task)
      (untried : state.untriedOf setting task = .ok (placement :: rest, others))
      (goesOn : setting.budget.interruption state.progress.iterations state.progress.watch
        = (none, watch)) :
      TurnDone setting order state (.onward ⟨state.schedule.place placement, rest :: others,
        { state.progress with iterations := state.progress.iterations + 1, watch := watch }⟩)

/-- Whatever a turn leads to has been done in one of these ways. -/
theorem turnDone_of_turn
    {setting : Setting α}
    {order : List (Task α)}
    {state : Descent α}
    {next : Turn α}
    (turned : turn setting order state = .ok next) :
    TurnDone setting order state next := by
  unfold turn at turned
  dsimp only at turned
  split at turned
  · rename_i isComplete
    obtain ⟨⟨halt?, judged⟩, outcome, turned⟩ := bind_eq_ok turned
    have outcome := mapError_eq_ok outcome
    cases halt? with
    | some halt =>
      cases turned
      exact .taken isComplete outcome
    | none =>
      obtain ⟨earlier, withdrawn, turned⟩ := bind_eq_ok turned
      cases turned
      exact .kept isComplete outcome (mapError_eq_ok withdrawn)
  · rename_i task isNext
    obtain ⟨⟨options, others⟩, untried, turned⟩ := bind_eq_ok turned
    have untried := mapError_eq_ok untried
    cases options with
    | nil =>
      dsimp only at turned
      split at turned
      · rename_i isFirst
        cases turned
        exact .exhausted isNext untried (List.isEmpty_iff.mp isFirst)
      · obtain ⟨earlier, withdrawn, turned⟩ := bind_eq_ok turned
        cases turned
        exact .back isNext untried (mapError_eq_ok withdrawn)
    | cons placement rest =>
      dsimp only at turned
      split at turned
      · rename_i interruption watch stops
        cases turned
        exact .interrupted isNext untried stops
      · rename_i watch goesOn
        cases turned
        exact .tried isNext untried goesOn

/-- Every turn uses up an iteration, or leaves fewer placements. -/
theorem rank_lt_of_turn
    {setting : Setting α}
    {order : List (Task α)}
    {state next : Descent α}
    (turned : turn setting order state = .ok (.onward next)) :
    Prod.Lex (· < ·) (· < ·) (next.rank setting) (state.rank setting) := by
  cases turnDone_of_turn turned with
  | kept isComplete outcome withdrawn =>
    simp only [Descent.rank, iterations_judge outcome]
    exact .right _ (length_withdraw_lt withdrawn)
  | back isNext untried withdrawn => exact .right _ (length_withdraw_lt withdrawn)
  | tried isNext untried goesOn =>
    have remaining := iterations_lt_of_interruption goesOn
    apply Prod.Lex.left
    dsimp only
    omega

/-- Take turns until the search is over. -/
def run (setting : Setting α) (order : List (Task α)) (state : Descent α) :
    Except (SearchFailure α) (Option (Halt α) × Progress α) :=
  match _ : turn setting order state with
  | .error cause => .error cause
  | .ok (.ended halt? progress) => .ok (halt?, progress)
  | .ok (.onward next) => run setting order next
termination_by state.rank setting
decreasing_by exact rank_lt_of_turn ‹_›

/-- Why a task is not placed. -/
inductive Unplaced where
  | blocked (task : String) (prerequisites : List String)
  | withoutOption (task : String)
  deriving Repr, DecidableEq

/-- The tasks that one waits for and that are not placed. -/
def missingPrerequisites (schedule : Schedule α) (task : Task α) : List String :=
  task.dependencies.filter fun dependency => !schedule.finished.contains dependency

/-- Place each task at its first option, and report the tasks that cannot be placed. -/
def greedy (problem : SchedulingProblem α) (maxCandidates : Nat) :
    Schedule α → List (Task α) → Except Lapse (Schedule α × List Unplaced)
  | schedule, [] => .ok (schedule, [])
  | schedule, task :: rest => do
    let missing := missingPrerequisites schedule task
    if !missing.isEmpty then
      let (outcome, unplaced) ← greedy problem maxCandidates schedule rest
      return (outcome, .blocked task.identifier missing :: unplaced)
    else
      match ← schedule.options problem maxCandidates task with
      | [] =>
        let (outcome, unplaced) ← greedy problem maxCandidates schedule rest
        return (outcome, .withoutOption task.identifier :: unplaced)
      | placement :: _ => greedy problem maxCandidates (schedule.place placement) rest

end Scheduling

end Optima
