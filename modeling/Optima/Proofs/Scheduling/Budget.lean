import Optima.Proofs.Scheduling.Reported
import Optima.Proofs.Search.Watch

namespace Optima

/-!
# Search within a budget

The search for a schedule counts an iteration whenever it tries an option, and never tries
one that the limit does not allow.  A pass in which each task takes its first option counts
nothing, also where it follows an interruption.
-/

namespace Scheduling

variable {α : Type} [Scalar α] {start : Watch α} {budget : Budget α}

/-- A search is within its limits. -/
structure Progress.IsWithin (budget : Budget α) (start : Watch α) (progress : Progress α) :
    Prop where
  within : progress.iterations ≤ budget.maxIterations
  precedes : start.Precedes progress.watch

/-- A search is within its limits where it ends, and what interrupts it is due. -/
structure EndsWithin (budget : Budget α) (start : Watch α) (halt? : Option (Halt α))
    (progress : Progress α) : Prop extends progress.IsWithin budget start where
  areDue :
    ∀ interruption, halt? = some (.interrupted interruption) →
      interruption.IsDue budget start progress.iterations progress.watch

/-- Judging a schedule reads the clock, and interrupts nothing. -/
theorem endsWithin_of_judge_eq_ok
    {problem : SchedulingProblem α}
    {tolerance : α}
    {placements : List (Placement α)}
    {progress judged : Progress α}
    {halt? : Option (Halt α)}
    (isWithin : progress.IsWithin budget start)
    (outcome : judge problem tolerance placements progress = .ok (halt?, judged)) :
    EndsWithin budget start halt? judged := by
  obtain ⟨cost, -, outcome⟩ := bind_eq_ok outcome
  obtain ⟨violation, -, outcome⟩ := bind_eq_ok outcome
  obtain ⟨isFeasible, -, outcome⟩ := bind_eq_ok outcome
  cases isFeasible with
  | true =>
      cases outcome
      exact ⟨⟨isWithin.within, isWithin.precedes.lookAtClock⟩, nofun⟩
  | false =>
      cases outcome
      exact ⟨⟨isWithin.within, isWithin.precedes.lookAtClock⟩, nofun⟩

/-- What a turn leads to is within the limits. -/
def Turn.IsWithin (budget : Budget α) (start : Watch α) : Turn α → Prop
  | .onward state => state.progress.IsWithin budget start
  | .ended halt? progress => EndsWithin budget start halt? progress

/-- A turn of a search that is within its limits stays within them. -/
theorem isWithin_of_turn
    {setting : Setting α}
    {order : List (Task α)}
    {state : Descent α}
    {next : Turn α}
    (isWithin : state.progress.IsWithin setting.budget start)
    (turned : turn setting order state = .ok next) :
    next.IsWithin setting.budget start := by
  cases turnDone_of_turn turned with
  | taken isComplete outcome => exact endsWithin_of_judge_eq_ok isWithin outcome
  | kept isComplete outcome withdrawn =>
      exact (endsWithin_of_judge_eq_ok isWithin outcome).toIsWithin
  | exhausted isNext untried isFirst => exact ⟨isWithin, nofun⟩
  | back isNext untried withdrawn => exact ⟨isWithin.within, isWithin.precedes⟩
  | interrupted isNext untried stops =>
      obtain ⟨stillPrecedes, areDue⟩ :=
        Budget.of_interruption isWithin.precedes isWithin.within stops
      refine ⟨⟨isWithin.within, stillPrecedes⟩, ?_⟩
      rintro _ ⟨⟩
      exact areDue _ rfl
  | tried isNext untried goesOn =>
      exact ⟨Budget.lt_of_interruption_eq_none goesOn,
        (Budget.of_interruption isWithin.precedes isWithin.within goesOn).1⟩

/-- A search ends within its limits. -/
theorem endsWithin_of_run_eq_ok
    {setting : Setting α}
    {order : List (Task α)}
    {state : Descent α}
    {halt? : Option (Halt α)}
    {progress : Progress α}
    (isWithin : state.progress.IsWithin setting.budget start)
    (searched : run setting order state = .ok (halt?, progress)) :
    EndsWithin setting.budget start halt? progress := by
  fun_induction run setting order state with
  | case1 state failure turned => cases searched
  | case2 state halt? progress turned =>
      cases searched
      exact isWithin_of_turn isWithin turned
  | case3 state next turned inductionHypothesis =>
      exact inductionHypothesis (isWithin_of_turn isWithin turned) searched

/-- What a report says of the end of a search, at which its watch shows the end. -/
inductive Report.Tells (budget : Budget α) (start now : Watch α) (report : Report α) : Prop where
  | other (isOther : report.status = .feasible ∨ report.status = .infeasible)
  | interrupted {interruption : Interruption}
      (isDue : interruption.IsDue budget start report.iterations now)
      (isStatus : report.status = interruption.status?.getD .iterationLimit)
      (told :
        interruption = .cancelled →
          ∃ before, report.details = before ++ [("cancelled", .boolean true)])
  | cancelled
      (sawFlag : start.SawFlag now)
      (isStatus : report.status = .cancelled)
      (nonePlaced : report.placements = [])
      (noneMissed : report.violations = [])

/-- A report is within the limits of its search. -/
structure Report.IsWithin (budget : Budget α) (start now : Watch α) (report : Report α) :
    Prop where
  within : report.iterations ≤ budget.maxIterations
  tells : report.Tells budget start now

/-- Judging a report changes its status to infeasible at most. -/
theorem of_judged_eq_ok
    {setting : Setting α}
    {report final : Report α}
    (isJudged : judged setting report = .ok final) :
    final.iterations = report.iterations ∧ final.details = report.details ∧
      (final.status = report.status ∨ final.status = .infeasible) := by
  obtain ⟨missed, -, isJudged⟩ := bind_eq_ok isJudged
  cases isJudged
  refine ⟨rfl, rfl, ?_⟩
  dsimp only
  split
  · exact .inl rfl
  · exact .inr rfl

/-- A report that is judged tells what it told before, or that it is infeasible. -/
theorem Report.IsWithin.judged
    {setting : Setting α}
    {now : Watch α}
    {report final : Report α}
    (isWithin : report.IsWithin budget start now)
    (notCancelled : report.status ≠ .cancelled)
    (isJudged : Scheduling.judged setting report = .ok final) :
    final.IsWithin budget start now := by
  obtain ⟨sameCount, sameDetails, isStatus⟩ := of_judged_eq_ok isJudged
  refine ⟨sameCount ▸ isWithin.within, ?_⟩
  rcases isStatus with sameStatus | isInfeasible
  · cases isWithin.tells with
    | other isOther => exact .other (sameStatus ▸ isOther)
    | interrupted isDue wasStatus told =>
        exact .interrupted (sameCount ▸ isDue) (sameStatus.trans wasStatus) (sameDetails ▸ told)
    | cancelled sawFlag wasStatus nonePlaced noneMissed => exact absurd wasStatus notCancelled
  · exact .other (.inr isInfeasible)

/-- The report on a search without a complete schedule is within the limits of the search. -/
theorem isWithin_of_greedyReport_eq_ok
    {setting : Setting α}
    {order : List (Task α)}
    {interruption? : Option Interruption}
    {now : Watch α}
    {report final : Report α}
    (within : report.iterations ≤ budget.maxIterations)
    (areDue :
      ∀ interruption, interruption? = some interruption →
        interruption.IsDue budget start report.iterations now)
    (isBare : report.placements = [] ∧ report.violations = [])
    (isReport : greedyReport setting order interruption? report = .ok final) :
    final.IsWithin budget start now := by
  have isStatus (interruption : Interruption) :
      greedyStatus (some interruption) = interruption.status?.getD .iterationLimit := by
    cases interruption <;> rfl
  obtain ⟨⟨schedule, unplaced⟩, -, isReport⟩ := bind_eq_ok isReport
  dsimp only at isReport
  split at isReport
  · rename_i allPlaced
    refine Report.IsWithin.judged ?_ ?_ (mapError_eq_ok isReport)
    · refine ⟨within, ?_⟩
      cases interruption? with
      | none => exact .other (.inl rfl)
      | some interruption =>
          refine .interrupted (areDue interruption rfl) (isStatus interruption) ?_
          rintro rfl
          exact ⟨_, rfl⟩
    · cases interruption? with
      | none => nofun
      | some interruption =>
          dsimp only
          rw [isStatus interruption]
          exact (areDue interruption rfl).ne_cancelled
  · split at isReport
    · rename_i isCancelled
      cases isReport
      exact ⟨within, .cancelled (areDue _ isCancelled) rfl isBare.1 isBare.2⟩
    · refine Report.IsWithin.judged ?_ ?_ (mapError_eq_ok isReport)
      · exact ⟨within, .other (.inr rfl)⟩
      · nofun

/-- The report on the end of a search is within the limits of the search. -/
theorem isWithin_of_reportOn_eq_ok
    {setting : Setting α}
    {order : List (Task α)}
    {halt? : Option (Halt α)}
    {progress : Progress α}
    {report : Report α}
    (ends : EndsWithin budget start halt? progress)
    (isReport : reportOn setting order halt? progress = .ok report) :
    report.IsWithin budget start progress.watch := by
  unfold reportOn at isReport
  dsimp only at isReport
  split at isReport
  · refine Report.IsWithin.judged ?_ ?_ (mapError_eq_ok isReport)
    · exact ⟨ends.within, .other (.inl rfl)⟩
    · nofun
  · refine Report.IsWithin.judged ?_ ?_ (mapError_eq_ok isReport)
    · exact ⟨ends.within, .other (.inr rfl)⟩
    · nofun
  · refine isWithin_of_greedyReport_eq_ok ?_ ?_ ?_ isReport
    · exact ends.within
    · intro interruption isInterrupted
      obtain ⟨halt, isHalt, isInterruption⟩ := Option.bind_eq_some_iff.mp isInterrupted
      cases halt with
      | found placements => cases isInterruption
      | interrupted other =>
          cases isInterruption
          exact ends.areDue interruption isHalt
    · exact ⟨rfl, rfl⟩

/-- The report of a search is within its limits. -/
theorem isWithin_of_searchUnlessCancelled_eq_ok
    {setting : Setting α}
    {report : Report α}
    {now : Watch α}
    (isReport : searchUnlessCancelled setting start = .ok (report, now)) :
    start.Precedes now ∧ report.IsWithin setting.budget start now := by
  have looksOn := (Watch.Precedes.refl start).lookAtFlag
  unfold searchUnlessCancelled at isReport
  dsimp only at isReport
  split at isReport
  · rename_i isCancelled
    cases isReport
    exact ⟨looksOn, Nat.zero_le _,
      .cancelled ((Watch.Precedes.refl start).sawFlag isCancelled) rfl rfl rfl⟩
  · unfold search at isReport
    dsimp only at isReport
    split at isReport
    · cases isReport
      exact ⟨looksOn, Nat.zero_le _, .other (.inr rfl)⟩
    · obtain ⟨⟨halt?, progress⟩, searched, isReport⟩ := bind_eq_ok isReport
      obtain ⟨told, isTold, isReport⟩ := bind_eq_ok isReport
      cases isReport
      have ends : EndsWithin setting.budget start halt? progress :=
        endsWithin_of_run_eq_ok ⟨Nat.zero_le _, looksOn⟩ searched
      exact ⟨ends.precedes, isWithin_of_reportOn_eq_ok ends isTold⟩

/-- The solution of a report that is within limits honours them. -/
theorem solution_honours
    {problem : SchedulingProblem α}
    {parameters : SharedParameters α}
    {tolerance : α}
    {now : Watch α}
    {report : Report α}
    {outcome : Solution α}
    (precedes : start.Precedes now)
    (isWithin : report.IsWithin ⟨parameters.maxIterations, parameters.timeLimit⟩ start now)
    (told : solution problem tolerance now.lookAtClock.1 report = .ok outcome) :
    outcome.Honours parameters start := by
  obtain ⟨isStatus, areViolations, areIterations, isRuntime, ⟨shown, notShown, areDetails⟩, isBare⟩ :=
    takes_of_solution_eq_ok told
  have within : outcome.account.iterations ≤ parameters.maxIterations := by
    rw [areIterations]
    exact Int.ofNat_le.mpr isWithin.within
  cases isWithin.tells with
  | other isOther =>
      exact .of_other within (.inr (isStatus ▸ isOther))
  | interrupted isDue wasStatus told =>
      refine .of_interruption areIterations isWithin.within precedes isDue isRuntime
        (isStatus.trans wasStatus) fun isCancelled => ?_
      obtain ⟨before, isLast⟩ := told isCancelled
      rw [areDetails, isLast, List.append_assoc, List.singleton_append]
      exact Table.get?_ofList_append_cons _ _ _ notShown
  | cancelled sawFlag wasStatus nonePlaced noneMissed =>
      have isCancelled := isBare nonePlaced
      rw [wasStatus, noneMissed] at isCancelled
      exact .of_cancelled within sawFlag isCancelled

/-- A solve that returns honours the limits of its parameters. -/
theorem solve_honours
    {problem : SchedulingProblem α}
    {parameters : SchedulingParameters α}
    {outcome : Solution α}
    (solved : solve problem parameters start = .ok outcome) :
    outcome.Honours parameters.toSharedParameters start := by
  obtain ⟨⟨report, now⟩, isReport, told⟩ := bind_eq_ok (mapError_eq_ok solved)
  obtain ⟨precedes, isWithin⟩ := isWithin_of_searchUnlessCancelled_eq_ok isReport
  exact solution_honours precedes isWithin (mapError_eq_ok told)

end Scheduling

end Optima
