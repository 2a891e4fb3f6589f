import Mathlib
import Optima.Proofs.Problem.Evaluation
import Optima.Proofs.Scheduling.Recursion
import Optima.Proofs.Search.Watch

namespace Optima

/-!
# The tree of options

Level by level the options of the tasks make a tree, whose leaves are the complete
schedules.  A recursion that is not interrupted finds the first leaf that satisfies
the constraints; where there is none it has kept the first leaf of all, and it tries
no option twice.
-/

namespace Scheduling

variable {α : Type}

/-- What there is below a schedule in the tree of options. -/
structure Survey (α : Type) where
  /-- The complete schedules in lexicographic order of the options that lead to them. -/
  complete : List (List (Placement α))
  /-- Number of options, at all levels together. -/
  size : Nat

/-- What there is below the options of one task. -/
def Survey.join (branches : List (Survey α)) : Survey α :=
  ⟨branches.flatMap (·.complete), (branches.map fun branch => branch.size + 1).sum⟩

theorem Survey.complete_join_cons
    (branch : Survey α)
    (branches : List (Survey α)) :
    (join (branch :: branches)).complete = branch.complete ++ (join branches).complete := by
  simp [join]

theorem Survey.size_join_cons
    (branch : Survey α)
    (branches : List (Survey α)) :
    (join (branch :: branches)).size = branch.size + 1 + (join branches).size := by
  simp [join]

variable [Scalar α]

/-- Survey the tree of options: at each level the options of the next task, given the placements
above it. -/
def survey (problem : SchedulingProblem α) (maxCandidates : Nat) :
    List (Task α) → Schedule α → Except Lapse (Survey α)
  | [], schedule => .ok ⟨[schedule.placements], 0⟩
  | task :: rest, schedule => do
    let options ← schedule.options problem maxCandidates task
    let branches ← options.mapM fun placement =>
      survey problem maxCandidates rest (schedule.place placement)
    return .join branches

/-- The metrics of placements violate no constraint. -/
def Meets (problem : SchedulingProblem α) (tolerance : α) (placements : List (Placement α)) :
    Prop :=
  Constraints.AllHold tolerance (problem.metricsOf placements) problem.constraints

/-- What a search has done that has gone through a part of the tree, or halted in it. -/
structure Explored (setting : Setting α) (part : Survey α) (before : Progress α)
    (halt? : Option (Halt α)) (after : Progress α) : Prop where
  found :
    ∀ placements,
      halt? = some (.found placements) →
        IsFirst (Meets setting.problem setting.tolerance) part.complete placements
  through :
    halt? = none →
      (∀ placements ∈ part.complete, ¬ Meets setting.problem setting.tolerance placements) ∧
        after.fallback = before.fallback.or part.complete.head?
  iterations_le : after.iterations ≤ before.iterations + part.size
  isQuiet :
    before.watch.IsQuiet setting.budget.timeLimit →
      after.watch.IsQuiet setting.budget.timeLimit
  notInterrupted :
    before.watch.IsQuiet setting.budget.timeLimit →
      before.iterations + part.size ≤ setting.budget.maxIterations →
        ∀ interruption, halt? ≠ some (.interrupted interruption)

namespace Explored

variable {setting : Setting α} {before middle after : Progress α} {halt? : Option (Halt α)}
  {branch : Survey α} {branches : List (Survey α)} {interruption? : Option Interruption}
  {watch : Watch α}

/-- Going through no option does nothing. -/
theorem nothing
    (schedule : Schedule α) :
    Explored setting (.join []) before none (before.goneBack schedule) := by
  unfold Progress.goneBack
  split
  · exact ⟨nofun, fun _ => by simp [Survey.join], by simp, id, fun _ _ => nofun⟩
  · exact ⟨nofun, fun _ => by simp [Survey.join], by simp, id, fun _ _ => nofun⟩

/-- A search that is interrupted before its next option has gone through nothing. -/
theorem interrupted
    {interruption : Interruption}
    (outcome : setting.budget.interruption before.iterations before.watch =
      (some interruption, watch)) :
    Explored setting (.join (branch :: branches)) before (some (.interrupted interruption))
      { before with watch := watch } where
  found := nofun
  through := nofun
  iterations_le := Nat.le_add_right _ _
  isQuiet beforeQuiet := (beforeQuiet.of_interruption outcome).1
  notInterrupted beforeQuiet enough := by
    rw [Survey.size_join_cons] at enough
    have none := (beforeQuiet.of_interruption outcome).2 (by omega)
    exact absurd none (Option.some_ne_none interruption)

/-- A search that halts below an option has not gone through those after it. -/
theorem first
    {halt : Halt α}
    (outcome : setting.budget.interruption before.iterations before.watch = (none, watch))
    (below : Explored setting branch
      { before with iterations := before.iterations + 1, watch := watch } (some halt) after) :
    Explored setting (.join (branch :: branches)) before (some halt) after where
  found placements isFound := by
    rw [Survey.complete_join_cons]
    exact (below.found placements isFound).append_right _
  through := nofun
  iterations_le := by
    have belowLe := below.iterations_le
    rw [Survey.size_join_cons]
    dsimp only at belowLe
    omega
  isQuiet beforeQuiet := below.isQuiet (beforeQuiet.of_interruption outcome).1
  notInterrupted beforeQuiet enough := by
    rw [Survey.size_join_cons] at enough
    exact below.notInterrupted (beforeQuiet.of_interruption outcome).1 (by dsimp only; omega)

/-- After an option without success a search goes through those after it. -/
theorem next
    (outcome : setting.budget.interruption before.iterations before.watch = (none, watch))
    (below : Explored setting branch
      { before with iterations := before.iterations + 1, watch := watch } none middle)
    (others : Explored setting (.join branches) middle halt? after) :
    Explored setting (.join (branch :: branches)) before halt? after where
  found placements isFound := by
    rw [Survey.complete_join_cons]
    exact (others.found placements isFound).append_left (below.through rfl).1
  through isThrough := by
    obtain ⟨noneBelow, belowKept⟩ := below.through rfl
    obtain ⟨noneAfter, laterKept⟩ := others.through isThrough
    rw [Survey.complete_join_cons]
    refine ⟨?_, ?_⟩
    · intro placements member
      rcases List.mem_append.mp member with inBranch | inOthers
      · exact noneBelow placements inBranch
      · exact noneAfter placements inOthers
    · rw [laterKept, belowKept, Option.or_assoc, List.head?_append]
  iterations_le := by
    have belowLe := below.iterations_le
    have laterLe := others.iterations_le
    rw [Survey.size_join_cons]
    dsimp only at belowLe
    omega
  isQuiet beforeQuiet :=
    others.isQuiet (below.isQuiet (beforeQuiet.of_interruption outcome).1)
  notInterrupted beforeQuiet enough := by
    have belowLe := below.iterations_le
    rw [Survey.size_join_cons] at enough
    dsimp only at belowLe
    exact others.notInterrupted (below.isQuiet (beforeQuiet.of_interruption outcome).1)
      (by omega)

end Explored

/-- The progress with one more point of the history. -/
def Progress.recorded (progress : Progress α) (cost violation : α) : Progress α :=
  { progress with
    history := ⟨progress.iterations, cost, violation, progress.watch.lookAtClock.1⟩
      :: progress.history
    watch := progress.watch.lookAtClock.2 }

/-- What a complete schedule leads to, by its cost, its violation and the verdict on it. -/
def Progress.judged (progress : Progress α) (placements : List (Placement α))
    (cost violation : α) : Bool → Option (Halt α) × Progress α
  | true => (some (.found placements), progress.recorded cost violation)
  | false =>
    (none, { progress.recorded cost violation with
      fallback := progress.fallback.or (some placements) })

variable {setting : Setting α}

/-- A complete schedule that has a value is taken or kept. -/
theorem exists_judge_explored
    {placements : List (Placement α)}
    (valued : setting.problem.toProblem.IsValuedOn (setting.problem.metricsOf placements))
    (progress : Progress α) :
    ∃ halt? judged,
      judge setting.problem setting.tolerance placements progress = .ok (halt?, judged) ∧
        Explored setting ⟨[placements], 0⟩ progress halt? judged := by
  obtain ⟨values, areValues⟩ := Objectives.exists_values_eq_ok valued.objectives
  obtain ⟨violation, isViolation⟩ :=
    Constraints.exists_totalFrom_eq_ok setting.tolerance valued.constraints 0
  obtain ⟨verdict, isVerdict⟩ :=
    Constraints.exists_feasible_eq_ok setting.tolerance valued.constraints
  have outcome :
      judge setting.problem setting.tolerance placements progress =
        .ok (progress.judged placements
          (Objectives.cost setting.problem.objectives values) violation verdict) := by
    simp only [judge, Objectives.costOf, areValues, Except.map, Constraints.totalViolation,
      isViolation, isVerdict, bind, Except.bind, pure, Except.pure]
    cases verdict <;> rfl
  cases verdict with
  | true =>
      have meets : Meets setting.problem setting.tolerance placements :=
        Constraints.feasible_eq_ok_true_iff.mp isVerdict
      refine ⟨_, _, outcome, ?_, nofun, Nat.le_refl _, fun beforeQuiet => beforeQuiet.lookAtClock,
        fun _ _ => nofun⟩
      intro others isFound
      simp only [Option.some.injEq, Halt.found.injEq] at isFound
      exact isFound ▸ isFirst_singleton meets
  | false =>
      have misses : ¬ Meets setting.problem setting.tolerance placements := by
        intro meets
        rw [Constraints.feasible_eq_ok_true_iff.mpr meets] at isVerdict
        simp at isVerdict
      refine ⟨_, _, outcome, nofun, fun _ => ⟨by simpa using misses, rfl⟩, Nat.le_refl _,
        fun beforeQuiet => beforeQuiet.lookAtClock, fun _ _ => nofun⟩

/-- Going through options explores what there is below them. -/
theorem exists_exploreOptions_explored
    {rest : List (Task α)}
    {schedule : Schedule α}
    {options : List (Placement α)}
    {branches : List (Survey α)}
    (below : ∀ placement ∈ options, ∀ branch,
      survey setting.problem setting.maxCandidates rest (schedule.place placement) =
          .ok branch →
        branch ∈ branches →
          ∀ progress, ∃ halt? after,
            explore setting rest (schedule.place placement) progress = .ok (halt?, after) ∧
              Explored setting branch progress halt? after)
    (surveyed : (options.mapM fun placement =>
      survey setting.problem setting.maxCandidates rest (schedule.place placement)) =
        .ok branches)
    (progress : Progress α) :
    ∃ halt? after,
      exploreOptions setting.budget (explore setting rest) schedule options progress =
          .ok (halt?, after) ∧
        Explored setting (.join branches) progress halt? after := by
  induction options generalizing branches progress with
  | nil =>
      cases surveyed
      exact ⟨none, _, rfl, .nothing schedule⟩
  | cons placement options inductionHypothesis =>
      rw [List.mapM_cons] at surveyed
      obtain ⟨branch, isBranch, surveyed⟩ := bind_eq_ok surveyed
      obtain ⟨others, areOthers, surveyed⟩ := bind_eq_ok surveyed
      cases surveyed
      rw [exploreOptions]
      cases outcome : setting.budget.interruption progress.iterations progress.watch with
      | mk interruption? watch =>
          cases interruption? with
          | some interruption =>
              exact ⟨_, _, rfl, .interrupted outcome⟩
          | none =>
              obtain ⟨halt?, middle, isBelow, belowExplored⟩ :=
                below placement List.mem_cons_self branch isBranch List.mem_cons_self
                  { progress with iterations := progress.iterations + 1, watch := watch }
              cases halt? with
              | some halt =>
                  refine ⟨some halt, middle, ?_, .first outcome belowExplored⟩
                  simp [isBelow, bind, Except.bind, pure, Except.pure]
              | none =>
                  obtain ⟨halt?, after, areLater, laterExplored⟩ :=
                    inductionHypothesis
                      (fun later member laterBranch isLater inOthers =>
                        below later (List.mem_cons_of_mem placement member) laterBranch isLater
                          (List.mem_cons_of_mem branch inOthers))
                      areOthers middle
                  refine ⟨halt?, after, ?_, .next outcome belowExplored laterExplored⟩
                  simpa [isBelow, bind, Except.bind] using areLater

/-- The recursion explores the tree of options, as long as the complete schedules have values. -/
theorem exists_explore_explored
    (setting : Setting α)
    {rest : List (Task α)}
    {schedule : Schedule α}
    {tree : Survey α}
    (surveyed : survey setting.problem setting.maxCandidates rest schedule = .ok tree)
    (valued : ∀ placements ∈ tree.complete,
      setting.problem.toProblem.IsValuedOn (setting.problem.metricsOf placements))
    (progress : Progress α) :
    ∃ halt? after,
      explore setting rest schedule progress = .ok (halt?, after) ∧
        Explored setting tree progress halt? after := by
  induction rest generalizing schedule tree progress with
  | nil =>
      cases surveyed
      obtain ⟨halt?, judged, outcome, explored⟩ :=
        exists_judge_explored (valued schedule.placements (by simp)) progress
      exact ⟨halt?, judged, by simp [explore, outcome, Except.mapError], explored⟩
  | cons task rest inductionHypothesis =>
      obtain ⟨options, found, surveyed⟩ := bind_eq_ok surveyed
      obtain ⟨branches, areBranches, surveyed⟩ := bind_eq_ok surveyed
      cases surveyed
      obtain ⟨halt?, after, outcome, explored⟩ :=
        exists_exploreOptions_explored
          (fun placement _ branch isBranch inBranches progress =>
            inductionHypothesis isBranch
              (fun placements member =>
                valued placements (List.mem_flatMap.mpr ⟨branch, inBranches, member⟩))
              progress)
          areBranches progress
      exact ⟨halt?, after, by simpa [explore, found, bind, Except.bind, Except.mapError] using
        outcome, explored⟩

/-- The tree below a schedule that has been built option by option can be surveyed. -/
theorem exists_survey_eq_ok
    [OrderedScalar α]
    {problem : SchedulingProblem α}
    {maxCandidates : Nat}
    {order tasks rest : List (Task α)}
    {schedule : Schedule α}
    {untried : List (List (Placement α))}
    (ordered : problem.OrderedTasks order)
    (isSplit : order = tasks ++ rest)
    (trail : Trail problem maxCandidates tasks schedule untried) :
    ∃ tree, survey problem maxCandidates rest schedule = .ok tree := by
  induction rest generalizing tasks schedule untried with
  | nil =>
      exact ⟨_, rfl⟩
  | cons task rest inductionHypothesis =>
      have isNext : order[tasks.length]? = some task := by
        simp [isSplit]
      have areTasks : order.take tasks.length = tasks := by
        simp [isSplit]
      have kept := trail.kept (areTasks ▸ ordered.nodup_take tasks.length)
      obtain ⟨options, found⟩ :=
        kept.exists_options maxCandidates
          (areTasks ▸ ordered.dependencies_mem isNext)
      have below :
          ∀ placement ∈ options,
            ∃ branch, survey problem maxCandidates rest (schedule.place placement) =
              .ok branch := by
        intro placement member
        obtain ⟨passed, remaining, rfl⟩ := List.append_of_mem member
        exact inductionHypothesis (by simpa using isSplit) (trail.place found)
      obtain ⟨branches, areBranches⟩ := exists_mapM_eq_ok below
      exact ⟨.join branches, by
        simp [survey, found, areBranches, bind, Except.bind, pure, Except.pure]⟩

/-- Where each task can be placed at its first option, the schedule is one of the complete ones. -/
theorem mem_complete_of_greedy
    {problem : SchedulingProblem α}
    {maxCandidates : Nat}
    {rest : List (Task α)}
    {schedule outcome : Schedule α}
    {tree : Survey α}
    (isGreedy : greedy problem maxCandidates schedule rest = .ok (outcome, []))
    (surveyed : survey problem maxCandidates rest schedule = .ok tree) :
    outcome.placements ∈ tree.complete := by
  induction rest generalizing schedule tree with
  | nil =>
      cases isGreedy
      cases surveyed
      simp
  | cons task rest inductionHypothesis =>
      obtain ⟨options, found, surveyed⟩ := bind_eq_ok surveyed
      obtain ⟨branches, areBranches, surveyed⟩ := bind_eq_ok surveyed
      cases surveyed
      unfold greedy at isGreedy
      dsimp only at isGreedy
      split at isGreedy
      · obtain ⟨⟨blocked, unplaced⟩, -, isGreedy⟩ := bind_eq_ok isGreedy
        simp [pure, Except.pure] at isGreedy
      · obtain ⟨again, foundAgain, isGreedy⟩ := bind_eq_ok isGreedy
        obtain rfl : options = again := Except.ok.inj (found.symm.trans foundAgain)
        cases options with
        | nil =>
            obtain ⟨⟨skipped, unplaced⟩, -, isGreedy⟩ := bind_eq_ok isGreedy
            simp [pure, Except.pure] at isGreedy
        | cons placement others =>
            obtain ⟨branch, inBranches, isBranch⟩ :=
              exists_of_mem_of_mapM_eq_ok areBranches List.mem_cons_self
            exact List.mem_flatMap.mpr
              ⟨branch, inBranches, inductionHypothesis isGreedy isBranch⟩

end Scheduling

end Optima
