import Optima.Proofs.Scheduling.Order
import Optima.Proofs.Scheduling.Trail
import Optima.Scheduling.Search

namespace Optima

/-!
# Wherever the search stands, a trail leads there

A turn of the search either adds a task to the trail or goes back along it, so the
schedule that it stands at is always one that was built option by option, and so is
every complete schedule that it takes or keeps.  It follows that the search never
asks for what it does not have: the end of a task that is not placed, or a booking
that was not made.
-/

namespace Scheduling

variable {α : Type}

/-- A computation does not lapse, and every result that it has is good. -/
def Delivers {β : Type} (good : β → Prop) : Except (SearchFailure α) β → Prop
  | .ok result => good result
  | .error (.lapse _) => False
  | .error (.evaluation _) => True

namespace Delivers

variable {β γ : Type} {good : β → Prop} {better : γ → Prop}

/-- What is delivered is handed on. -/
theorem bind
    {first : Except (SearchFailure α) β}
    {next : β → Except (SearchFailure α) γ}
    (delivered : Delivers good first)
    (handedOn : ∀ result, good result → Delivers better (next result)) :
    Delivers better (first >>= next) := by
  cases first with
  | ok result =>
      exact handedOn result delivered
  | error failure =>
      cases failure with
      | lapse cause => exact delivered
      | evaluation cause => trivial

/-- An evaluation that fails is no lapse. -/
theorem of_evaluation
    {computation : Except (EvalFailure α) β}
    (results : ∀ result, computation = .ok result → good result) :
    Delivers good (computation.mapError .evaluation) := by
  cases computation with
  | ok result => exact results result rfl
  | error failure => trivial

/-- What follows an evaluation may rely on its result. -/
theorem evaluation_bind
    {computation : Except (EvalFailure α) β}
    {next : β → Except (SearchFailure α) γ}
    (handedOn : ∀ result, computation = .ok result → Delivers better (next result)) :
    Delivers better (computation.mapError .evaluation >>= next) :=
  (of_evaluation fun _ computed => computed).bind handedOn

/-- What follows a step that does not lapse may rely on its result. -/
theorem lapse_bind
    {computation : Except Lapse β}
    {result : β}
    {next : β → Except (SearchFailure α) γ}
    (computed : computation = .ok result)
    (handedOn : Delivers better (next result)) :
    Delivers better (computation.mapError .lapse >>= next) := by
  subst computed
  exact handedOn

end Delivers

variable [Scalar α]

/-- A complete schedule has been built option by option. -/
def IsComplete (setting : Setting α) (order : List (Task α)) (placements : List (Placement α)) :
    Prop :=
  ∃ schedule untried,
    Trail setting.problem setting.maxCandidates order schedule untried ∧
      schedule.placements = placements

/-- Where a search stands: at a task that it comes to for the first time, or at one to which it
has gone back. -/
inductive Stands (setting : Setting α) (order : List (Task α)) :
    Schedule α → List (List (Placement α)) → Prop where
  | arrived {schedule : Schedule α} {untried : List (List (Placement α))}
      (trail : Trail setting.problem setting.maxCandidates
        (order.take schedule.placements.length) schedule untried) :
      Stands setting order schedule untried
  | returned {schedule : Schedule α} {others : List (List (Placement α))} {task : Task α}
      {passed remaining : List (Placement α)}
      (trail : Trail setting.problem setting.maxCandidates
        (order.take schedule.placements.length) schedule others)
      (isNext : order[schedule.placements.length]? = some task)
      (found : schedule.options setting.problem setting.maxCandidates task =
        .ok (passed ++ remaining)) :
      Stands setting order schedule (remaining :: others)

/-- The complete schedule that a search keeps, if any, has been built option by option. -/
def Progress.Sound (setting : Setting α) (order : List (Task α)) (progress : Progress α) : Prop :=
  ∀ placements, progress.fallback = some placements → IsComplete setting order placements

/-- The invariant of the search. -/
structure Descent.Sound (setting : Setting α) (order : List (Task α)) (state : Descent α) :
    Prop where
  stands : Stands setting order state.schedule state.untried
  progress_sound : state.progress.Sound setting order

/-- The end of a search is sound: a schedule that it takes has been built option by option. -/
structure EndsSoundly (setting : Setting α) (order : List (Task α)) (halt? : Option (Halt α))
    (progress : Progress α) : Prop where
  found : ∀ placements, halt? = some (.found placements) → IsComplete setting order placements
  progress_sound : progress.Sound setting order

/-- What a turn leads to is sound. -/
def Turn.Sound (setting : Setting α) (order : List (Task α)) : Turn α → Prop
  | .onward state => state.Sound setting order
  | .ended halt? progress => EndsSoundly setting order halt? progress

/-- Judging a schedule takes it or keeps it, unless another is kept already. -/
theorem of_judge_eq_ok
    {problem : SchedulingProblem α}
    {tolerance : α}
    {placements : List (Placement α)}
    {progress judged : Progress α}
    {halt? : Option (Halt α)}
    (outcome : judge problem tolerance placements progress = .ok (halt?, judged)) :
    halt? = some (.found placements) ∧ judged.fallback = progress.fallback ∨
      halt? = none ∧ judged.fallback = progress.fallback.or (some placements) := by
  obtain ⟨cost, -, outcome⟩ := bind_eq_ok outcome
  obtain ⟨violation, -, outcome⟩ := bind_eq_ok outcome
  obtain ⟨isFeasible, -, outcome⟩ := bind_eq_ok outcome
  cases isFeasible with
  | true =>
      cases outcome
      exact Or.inl ⟨rfl, rfl⟩
  | false =>
      cases outcome
      exact Or.inr ⟨rfl, rfl⟩

/-- A complete schedule that the search stands at has been built option by option. -/
theorem Stands.isComplete
    {setting : Setting α}
    {order : List (Task α)}
    {schedule : Schedule α}
    {untried : List (List (Placement α))}
    (stands : Stands setting order schedule untried)
    (noNext : order[schedule.placements.length]? = none) :
    Trail setting.problem setting.maxCandidates order schedule untried := by
  cases stands with
  | arrived trail =>
      rwa [List.take_of_length_le (List.getElem?_eq_none_iff.mp noNext)] at trail
  | returned trail isNext found =>
      simp [noNext] at isNext

/-- The search starts at the empty schedule with nothing kept. -/
theorem Descent.Sound.start
    (setting : Setting α)
    (order : List (Task α))
    (watch : Watch α) :
    (Descent.start setting.problem watch).Sound setting order := by
  refine ⟨.arrived .start, ?_⟩
  intro placements isKept
  simp [Descent.start, Progress.start] at isKept

section Loop

variable {setting : Setting α} {order : List (Task α)} {state next : Descent α}

theorem run_eq_of_turn_error
    {cause : SearchFailure α}
    (turned : turn setting order state = .error cause) :
    run setting order state = .error cause := by
  rw [run]
  split <;> simp_all

theorem run_eq_of_turn_ended
    {halt? : Option (Halt α)}
    {progress : Progress α}
    (turned : turn setting order state = .ok (.ended halt? progress)) :
    run setting order state = .ok (halt?, progress) := by
  rw [run]
  split <;> simp_all

theorem run_eq_of_turn_onward
    (turned : turn setting order state = .ok (.onward next)) :
    run setting order state = run setting order next := by
  conv_lhs => rw [run]
  split <;> simp_all

/-- Where the turns are alike, so is all that follows. -/
theorem run_congr
    {other : Descent α}
    (sameTurn : turn setting order state = turn setting order other) :
    run setting order state = run setting order other := by
  cases turned : turn setting order other with
  | error cause =>
      rw [run_eq_of_turn_error turned, run_eq_of_turn_error (sameTurn.trans turned)]
  | ok outcome =>
      cases outcome with
      | ended halt? progress =>
          rw [run_eq_of_turn_ended turned, run_eq_of_turn_ended (sameTurn.trans turned)]
      | onward next =>
          rw [run_eq_of_turn_onward turned, run_eq_of_turn_onward (sameTurn.trans turned)]

end Loop

section Turns

variable [OrderedScalar α] {setting : Setting α} {order : List (Task α)}

/-- Wherever a search stands, the next task has options that come after those passed over. -/
theorem Stands.untriedOf
    (ordered : setting.problem.OrderedTasks order)
    {state : Descent α}
    {task : Task α}
    (stands : Stands setting order state.schedule state.untried)
    (isNext : order[state.schedule.placements.length]? = some task) :
    ∃ passed remaining others,
      state.untriedOf setting task = .ok (remaining, others) ∧
        Trail setting.problem setting.maxCandidates
          (order.take state.schedule.placements.length) state.schedule others ∧
        state.schedule.options setting.problem setting.maxCandidates task =
          .ok (passed ++ remaining) := by
  obtain ⟨schedule, untried, progress⟩ := state
  dsimp only at stands isNext ⊢
  -- The two cases differ in the number of lists: one for each placement, or one more.
  cases stands with
  | arrived trail =>
      obtain ⟨options, found⟩ :=
        (trail.kept (ordered.nodup_take _)).exists_options setting.maxCandidates
          (ordered.dependencies_mem isNext)
      refine ⟨[], options, untried, ?_, trail, found⟩
      have sameLength : untried.length = schedule.placements.length := by
        rw [trail.length_eq.1, trail.length_eq.2]
      simp [Descent.untriedOf, sameLength, found, Except.map]
  | @returned others _ passed remaining trail isTask found =>
      obtain rfl := Option.some.inj (isTask.symm.trans isNext)
      refine ⟨passed, remaining, others, ?_, trail, found⟩
      have oneMore : (remaining :: others).length ≠ schedule.placements.length := by
        rw [List.length_cons, trail.length_eq.1, trail.length_eq.2]
        exact Nat.succ_ne_self _
      simp only [Descent.untriedOf, if_neg oneMore, List.headD_cons, List.tail_cons]

/-- Going back from a schedule with placements leads to where its last task was placed. -/
theorem Trail.withdraw
    (ordered : setting.problem.OrderedTasks order)
    {schedule : Schedule α}
    {untried : List (List (Placement α))}
    (trail : Trail setting.problem setting.maxCandidates
      (order.take schedule.placements.length) schedule untried)
    (nonempty : schedule.placements ≠ []) :
    ∃ earlier, schedule.withdraw = .ok earlier ∧ Stands setting order earlier untried := by
  have distinct := ordered.nodup_take schedule.placements.length
  have placed := trail.length_eq.1
  -- The trail is taken apart at its end, so its tasks have to be a variable first.
  generalize taken : order.take schedule.placements.length = tasks at trail distinct placed
  cases trail with
  | start =>
      exact absurd rfl nonempty
  | @place tasks earlier others task passed rest placement trail found =>
      obtain ⟨ready, -, -, grants⟩ := exists_grants_of_options found
      rw [List.map_append, List.map_singleton, nodup_append_singleton_iff] at distinct
      have kept := trail.kept distinct.1
      refine ⟨earlier, kept.withdraw_place (grants.task_eq ▸ distinct.2), ?_⟩
      have isSplit :
          order = tasks ++ task :: order.drop (earlier.place placement).placements.length := by
        rw [← List.singleton_append, ← List.append_assoc, ← taken, List.take_append_drop]
      have sameLength := trail.length_eq.1
      have earlierTasks : order.take earlier.placements.length = tasks := by
        rw [isSplit, sameLength, List.take_left]
      have isNext : order[earlier.placements.length]? = some task := by
        rw [isSplit, sameLength, List.getElem?_append_right (Nat.le_refl _)]
        simp
      have foundAgain :
          earlier.options setting.problem setting.maxCandidates task =
            .ok ((passed ++ [placement]) ++ rest) := by
        simpa using found
      exact .returned (by rwa [earlierTasks]) isNext foundAgain

/-- Judging a complete schedule ends the search soundly, or goes back from it. -/
theorem judge_delivers
    (ordered : setting.problem.OrderedTasks order)
    (nonempty : order ≠ [])
    {state : Descent α}
    (sound : state.Sound setting order)
    (noNext : order[state.schedule.placements.length]? = none) :
    Delivers (Turn.Sound setting order) (turn setting order state) := by
  have trail := sound.stands.isComplete noNext
  have isComplete : IsComplete setting order state.schedule.placements :=
    ⟨state.schedule, state.untried, trail, rfl⟩
  have somePlaced : state.schedule.placements ≠ [] := by
    intro nothing
    rw [nothing] at noNext
    simp [nonempty] at noNext
  rw [← List.take_of_length_le (List.getElem?_eq_none_iff.mp noNext)] at trail
  obtain ⟨earlier, withdrawn, earlierStands⟩ := trail.withdraw ordered somePlaced
  unfold turn
  simp only [noNext]
  refine Delivers.evaluation_bind ?_
  rintro ⟨halt?, judged⟩ outcome
  rcases of_judge_eq_ok outcome with ⟨rfl, sameFallback⟩ | ⟨rfl, newFallback⟩
  · refine ⟨?_, ?_⟩
    · intro placements isFound
      simp only [Option.some.injEq, Halt.found.injEq] at isFound
      exact isFound ▸ isComplete
    · intro placements isKept
      rw [sameFallback] at isKept
      exact sound.progress_sound placements isKept
  · refine Delivers.lapse_bind withdrawn ⟨earlierStands, ?_⟩
    intro placements isKept
    rw [newFallback, Option.or_eq_some_iff] at isKept
    rcases isKept with isEarlier | ⟨-, isThis⟩
    · exact sound.progress_sound placements isEarlier
    · exact Option.some.inj isThis ▸ isComplete

/-- A turn keeps the invariant, and does not lapse. -/
theorem turn_delivers
    (ordered : setting.problem.OrderedTasks order)
    (nonempty : order ≠ [])
    {state : Descent α}
    (sound : state.Sound setting order) :
    Delivers (Turn.Sound setting order) (turn setting order state) := by
  cases isNext : order[state.schedule.placements.length]? with
  | none =>
      exact judge_delivers ordered nonempty sound isNext
  | some task =>
      obtain ⟨passed, remaining, others, isUntried, trail, found⟩ :=
        sound.stands.untriedOf ordered isNext
      unfold turn
      simp only [isNext]
      refine Delivers.lapse_bind isUntried ?_
      cases remaining with
      | nil =>
          dsimp only
          split
          · exact ⟨nofun, sound.progress_sound⟩
          · rename_i somePlaced
            obtain ⟨earlier, withdrawn, earlierStands⟩ :=
              trail.withdraw ordered fun isEmpty => somePlaced (by simp [isEmpty])
            exact Delivers.lapse_bind withdrawn ⟨earlierStands, sound.progress_sound⟩
      | cons placement rest =>
          dsimp only
          split
          · exact ⟨nofun, sound.progress_sound⟩
          · have oneMore :
                order.take (state.schedule.place placement).placements.length =
                  order.take state.schedule.placements.length ++ [task] := by
              simp [Schedule.place, List.take_add_one, isNext]
            refine ⟨.arrived ?_, sound.progress_sound⟩
            rw [oneMore]
            exact .place trail found

/-- The search keeps its invariant to its end, and does not lapse. -/
theorem run_delivers
    (ordered : setting.problem.OrderedTasks order)
    (nonempty : order ≠ [])
    {state : Descent α}
    (sound : state.Sound setting order) :
    Delivers (fun (halt?, progress) => EndsSoundly setting order halt? progress)
      (run setting order state) := by
  fun_induction run setting order state with
  | case1 state failure turned =>
      have delivered := turn_delivers ordered nonempty sound
      rw [turned] at delivered
      cases failure with
      | lapse cause => exact delivered
      | evaluation cause => trivial
  | case2 state halt? progress turned =>
      have delivered := turn_delivers ordered nonempty sound
      rw [turned] at delivered
      exact delivered
  | case3 state next turned inductionHypothesis =>
      have delivered := turn_delivers ordered nonempty sound
      rw [turned] at delivered
      exact inductionHypothesis delivered

/-- Placing each task at its first option does not lapse, and builds a schedule option by
option from the tasks that it can place. -/
theorem exists_greedy_eq_ok
    {problem : SchedulingProblem α}
    {maxCandidates : Nat}
    {tasks : List (Task α)}
    {schedule : Schedule α}
    {untried : List (List (Placement α))}
    (trail : Trail problem maxCandidates tasks schedule untried)
    (rest : List (Task α))
    (distinct : ((tasks ++ rest).map (·.identifier)).Nodup) :
    ∃ outcome unplaced placed left,
      greedy problem maxCandidates schedule rest = .ok (outcome, unplaced) ∧
        Trail problem maxCandidates (tasks ++ placed) outcome left ∧
        placed.Sublist rest := by
  induction rest generalizing tasks schedule untried with
  | nil =>
      exact ⟨schedule, [], [], untried, rfl, by simpa using trail, .slnil⟩
  | cons task rest inductionHypothesis =>
      have kept := trail.kept (distinct.sublist ((List.sublist_append_left _ _).map _))
      have withoutTask : ((tasks ++ rest).map (·.identifier)).Nodup :=
        distinct.sublist
          (((List.Sublist.refl tasks).append (List.sublist_cons_self task rest)).map _)
      -- A task that is blocked or has no option is skipped: the rest goes on from here.
      obtain ⟨skipped, unplaced, placed, left, isSkipped, skippedTrail, placedRest⟩ :=
        inductionHypothesis trail withoutTask
      have placedOthers := placedRest.trans (List.sublist_cons_self task rest)
      unfold greedy
      by_cases noneMissing : (missingPrerequisites schedule task).isEmpty = true
      · have allPlaced : ∀ dependency ∈ task.dependencies,
            dependency ∈ tasks.map (·.identifier) := by
          intro dependency member
          rw [← kept.names_finished, ← Table.contains_iff_mem_names]
          have notMissing := List.isEmpty_iff.mp noneMissing
          rw [missingPrerequisites, List.filter_eq_nil_iff] at notMissing
          simpa using notMissing dependency member
        obtain ⟨options, found⟩ := kept.exists_options maxCandidates allPlaced
        simp only [noneMissing, found]
        cases options with
        | nil =>
            refine ⟨skipped, .withoutOption task.identifier :: unplaced, placed, left, ?_,
              skippedTrail, placedOthers⟩
            simp [isSkipped, bind, Except.bind, pure, Except.pure]
        | cons placement others =>
            have foundFirst :
                schedule.options problem maxCandidates task =
                  .ok ([] ++ placement :: others) := found
            have oneMore := trail.place foundFirst
            obtain ⟨outcome, unplaced, placed, left, isPlaced, placedTrail, placedRest⟩ :=
              inductionHypothesis oneMore (by simpa using distinct)
            refine ⟨outcome, unplaced, task :: placed, left, ?_, by simpa using placedTrail,
              placedRest.cons_cons task⟩
            simp [isPlaced, bind, Except.bind]
      · refine ⟨skipped,
          .blocked task.identifier (missingPrerequisites schedule task) :: unplaced,
          placed, left, ?_, skippedTrail, placedOthers⟩
        simp [noneMissing, isSkipped, bind, Except.bind, pure, Except.pure]

end Turns

end Scheduling

end Optima
