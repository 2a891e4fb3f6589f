import Optima.Problem.Parameters
import Optima.Search.Watch

namespace Optima

/-!
# Watches

A search looks at its watch while it goes on, and is stopped by what it sees there.
-/

section Quiet

/-!
## Watches that never stop a search

A search whose flag stays down and whose time does not run out is stopped by its
number of iterations only.
-/

variable {α : Type} [Scalar α]

/-- The flag is down at every look, and the clock never shows the limit. -/
structure Watch.IsQuiet (watch : Watch α) (timeLimit : Option α) : Prop where
  flag_down : ∀ look, watch.cancelled look = false
  in_time : ∀ limit, timeLimit = some limit → ∀ look, ¬ limit ≤ watch.elapsed look

namespace Watch.IsQuiet

variable {watch : Watch α} {timeLimit : Option α}

theorem lookAtClock
    (isQuiet : watch.IsQuiet timeLimit) :
    watch.lookAtClock.2.IsQuiet timeLimit :=
  ⟨isQuiet.flag_down, isQuiet.in_time⟩

theorem lookAtFlag
    (isQuiet : watch.IsQuiet timeLimit) :
    watch.lookAtFlag.2.IsQuiet timeLimit :=
  ⟨isQuiet.flag_down, isQuiet.in_time⟩

/-- Looking at the limits finds none that is reached while there are iterations left. -/
theorem of_exhausted
    {budget : Budget α}
    {iterations : Nat}
    {looked : Watch α}
    {status? : Option SolutionStatus}
    (isQuiet : watch.IsQuiet budget.timeLimit)
    (outcome : budget.exhausted iterations watch = (status?, looked)) :
    looked.IsQuiet budget.timeLimit ∧
      (iterations < budget.maxIterations → status? = none) := by
  unfold Budget.exhausted at outcome
  split at outcome
  · rename_i noneLeft
    obtain ⟨-, rfl⟩ := Prod.mk.inj outcome
    exact ⟨isQuiet, fun someLeft => absurd noneLeft (Nat.not_le.mpr someLeft)⟩
  · split at outcome
    · obtain ⟨rfl, rfl⟩ := Prod.mk.inj outcome
      exact ⟨isQuiet, fun _ => rfl⟩
    · rename_i limit isLimit
      have inTime : ¬ limit ≤ watch.lookAtClock.1 :=
        isQuiet.in_time limit isLimit watch.clockLooks
      obtain ⟨rfl, rfl⟩ := Prod.mk.inj outcome
      exact ⟨isQuiet.lookAtClock, fun _ => if_neg inTime⟩

/-- Nothing interrupts a search that has iterations left, as long as the watch is quiet. -/
theorem of_interruption
    {budget : Budget α}
    {iterations : Nat}
    {looked : Watch α}
    {interruption? : Option Interruption}
    (isQuiet : watch.IsQuiet budget.timeLimit)
    (outcome : budget.interruption iterations watch = (interruption?, looked)) :
    looked.IsQuiet budget.timeLimit ∧
      (iterations < budget.maxIterations → interruption? = none) := by
  have isDown : watch.lookAtFlag = (false, watch.lookAtFlag.2) :=
    Prod.ext (isQuiet.flag_down watch.flagLooks) rfl
  unfold Budget.interruption at outcome
  rw [isDown] at outcome
  obtain ⟨rfl, rfl⟩ := Prod.mk.inj outcome
  obtain ⟨stillQuiet, notExhausted⟩ := isQuiet.lookAtFlag.of_exhausted rfl
  refine ⟨stillQuiet, ?_⟩
  intro someLeft
  rw [notExhausted someLeft, Option.map_none]

end Watch.IsQuiet

end Quiet

/-!
## Limits are observed

A watch only goes forward: later looks come after earlier ones, and what the clock and the
flag show does not change.  A search that is interrupted has seen the reason for it: the
flag up at a look, the limit on the clock at a look, or its iterations used up.
-/

variable {α : Type}

namespace Watch

/-- A watch has been looked at some more times. -/
structure Precedes (earlier later : Watch α) : Prop where
  sameClock : later.elapsed = earlier.elapsed
  sameFlag : later.cancelled = earlier.cancelled
  clockLooks_le : earlier.clockLooks ≤ later.clockLooks
  flagLooks_le : earlier.flagLooks ≤ later.flagLooks

/-- At a look between two states of a watch its flag was up. -/
def SawFlag (start now : Watch α) : Prop :=
  ∃ look, start.flagLooks ≤ look ∧ look < now.flagLooks ∧ start.cancelled look = true

/-- At a look between two states of a watch its clock showed a time, or a later one. -/
def SawTime [Scalar α] (start now : Watch α) (limit : α) : Prop :=
  ∃ look, start.clockLooks ≤ look ∧ look < now.clockLooks ∧ limit ≤ start.elapsed look

variable {start earlier later watch : Watch α}

namespace Precedes

theorem refl
    (watch : Watch α) :
    watch.Precedes watch :=
  ⟨rfl, rfl, Nat.le_refl _, Nat.le_refl _⟩

theorem trans
    (first : start.Precedes earlier)
    (second : earlier.Precedes later) :
    start.Precedes later where
  sameClock := second.sameClock.trans first.sameClock
  sameFlag := second.sameFlag.trans first.sameFlag
  clockLooks_le := Nat.le_trans first.clockLooks_le second.clockLooks_le
  flagLooks_le := Nat.le_trans first.flagLooks_le second.flagLooks_le

theorem lookAtClock
    (precedes : start.Precedes watch) :
    start.Precedes watch.lookAtClock.2 :=
  precedes.trans ⟨rfl, rfl, Nat.le_succ _, Nat.le_refl _⟩

theorem lookAtFlag
    (precedes : start.Precedes watch) :
    start.Precedes watch.lookAtFlag.2 :=
  precedes.trans ⟨rfl, rfl, Nat.le_refl _, Nat.le_succ _⟩

/-- A look at the flag that finds it up has seen it. -/
theorem sawFlag
    (precedes : start.Precedes watch)
    (isUp : watch.lookAtFlag.1 = true) :
    start.SawFlag watch.lookAtFlag.2 := by
  refine ⟨watch.flagLooks, precedes.flagLooks_le, Nat.lt_succ_self _, ?_⟩
  rw [← precedes.sameFlag]
  exact isUp

/-- A look at the clock that finds a limit reached has seen it. -/
theorem sawTime
    [Scalar α]
    (precedes : start.Precedes watch)
    {limit : α}
    (isReached : limit ≤ watch.lookAtClock.1) :
    start.SawTime watch.lookAtClock.2 limit := by
  refine ⟨watch.clockLooks, precedes.clockLooks_le, Nat.lt_succ_self _, ?_⟩
  rw [← precedes.sameClock]
  exact isReached

end Precedes

theorem SawFlag.mono
    (sawFlag : start.SawFlag earlier)
    (precedes : earlier.Precedes later) :
    start.SawFlag later := by
  obtain ⟨look, isLater, isEarlier, isUp⟩ := sawFlag
  exact ⟨look, isLater, Nat.lt_of_lt_of_le isEarlier precedes.flagLooks_le, isUp⟩

theorem SawTime.mono
    [Scalar α]
    {limit : α}
    (sawTime : start.SawTime earlier limit)
    (precedes : earlier.Precedes later) :
    start.SawTime later limit := by
  obtain ⟨look, isLater, isEarlier, isReached⟩ := sawTime
  exact ⟨look, isLater, Nat.lt_of_lt_of_le isEarlier precedes.clockLooks_le, isReached⟩

end Watch

variable [Scalar α]

/-- What a search has to have seen, after a number of iterations, to be interrupted. -/
def Interruption.IsDue (budget : Budget α) (start : Watch α) (iterations : Nat)
    (now : Watch α) : Interruption → Prop
  | .cancelled => start.SawFlag now
  | .exhausted .iterationLimit => iterations = budget.maxIterations
  | .exhausted .timeLimit =>
    ∃ limit, budget.timeLimit = some limit ∧ start.SawTime now limit
  | .exhausted _ => False

/-- What is due stays so at later looks. -/
theorem Interruption.IsDue.mono
    {budget : Budget α}
    {start earlier later : Watch α}
    {iterations : Nat}
    {interruption : Interruption}
    (isDue : interruption.IsDue budget start iterations earlier)
    (precedes : earlier.Precedes later) :
    interruption.IsDue budget start iterations later := by
  match interruption, isDue with
  | .cancelled, sawFlag => exact Watch.SawFlag.mono sawFlag precedes
  | .exhausted .iterationLimit, isReached => exact isReached
  | .exhausted .timeLimit, ⟨limit, isLimit, sawTime⟩ =>
      exact ⟨limit, isLimit, Watch.SawTime.mono sawTime precedes⟩

/-- A search that is interrupted ends at a limit, and is not told to be cancelled. -/
theorem Interruption.IsDue.ne_cancelled
    {budget : Budget α}
    {start now : Watch α}
    {iterations : Nat}
    {interruption : Interruption}
    (isDue : interruption.IsDue budget start iterations now) :
    interruption.status?.getD .iterationLimit ≠ .cancelled := by
  match interruption, isDue with
  | .cancelled, _ => nofun
  | .exhausted .iterationLimit, _ => nofun
  | .exhausted .timeLimit, _ => nofun

/-- Where a quiet watch is looked at, only the limit on the iterations interrupts a search. -/
theorem Watch.IsQuiet.eq_of_isDue
    {budget : Budget α}
    {start now : Watch α}
    {iterations : Nat}
    {interruption : Interruption}
    (isQuiet : start.IsQuiet budget.timeLimit)
    (isDue : interruption.IsDue budget start iterations now) :
    iterations = budget.maxIterations := by
  match interruption, isDue with
  | .cancelled, ⟨look, _, _, isUp⟩ =>
      rw [isQuiet.flag_down look] at isUp
      cases isUp
  | .exhausted .iterationLimit, isReached =>
      exact isReached
  | .exhausted .timeLimit, ⟨limit, isLimit, look, _, _, isReached⟩ =>
      exact absurd isReached (isQuiet.in_time limit isLimit look)

namespace Budget

variable {budget : Budget α} {start watch looked : Watch α} {iterations : Nat}

/-- Where no limit is found reached there are iterations left. -/
theorem lt_of_exhausted_eq_none
    (outcome : budget.exhausted iterations watch = (none, looked)) :
    iterations < budget.maxIterations := by
  unfold exhausted at outcome
  split at outcome
  · cases outcome
  · rename_i someLeft
    exact Nat.lt_of_not_le someLeft

/-- A limit that is found reached is reached. -/
theorem of_exhausted
    {status? : Option SolutionStatus}
    (precedes : start.Precedes watch)
    (within : iterations ≤ budget.maxIterations)
    (outcome : budget.exhausted iterations watch = (status?, looked)) :
    start.Precedes looked ∧
      ∀ status, status? = some status →
        (Interruption.exhausted status).IsDue budget start iterations looked := by
  unfold exhausted at outcome
  split at outcome
  · rename_i noneLeft
    obtain ⟨rfl, rfl⟩ := Prod.mk.inj outcome
    refine ⟨precedes, ?_⟩
    rintro _ ⟨⟩
    exact Nat.le_antisymm within noneLeft
  · split at outcome
    · obtain ⟨rfl, rfl⟩ := Prod.mk.inj outcome
      exact ⟨precedes, nofun⟩
    · rename_i limit isLimit
      obtain ⟨rfl, rfl⟩ := Prod.mk.inj outcome
      refine ⟨precedes.lookAtClock, ?_⟩
      intro status isStatus
      split at isStatus
      · rename_i isReached
        cases isStatus
        exact ⟨limit, isLimit, precedes.sawTime isReached⟩
      · cases isStatus

/-- Where nothing interrupts a search there are iterations left. -/
theorem lt_of_interruption_eq_none
    (outcome : budget.interruption iterations watch = (none, looked)) :
    iterations < budget.maxIterations := by
  unfold interruption at outcome
  split at outcome
  · cases outcome
  · exact lt_of_exhausted_eq_none
      (Prod.ext (Option.map_eq_none_iff.mp (Prod.mk.inj outcome).1) rfl)

/-- What interrupts a search is due. -/
theorem of_interruption
    {interruption? : Option Interruption}
    (precedes : start.Precedes watch)
    (within : iterations ≤ budget.maxIterations)
    (outcome : budget.interruption iterations watch = (interruption?, looked)) :
    start.Precedes looked ∧
      ∀ interruption, interruption? = some interruption →
        interruption.IsDue budget start iterations looked := by
  unfold interruption at outcome
  split at outcome
  · rename_i seen isUp
    obtain ⟨rfl, rfl⟩ := Prod.mk.inj outcome
    obtain ⟨isFlag, rfl⟩ := Prod.mk.inj isUp
    refine ⟨precedes.lookAtFlag, ?_⟩
    rintro _ ⟨⟩
    exact precedes.sawFlag isFlag
  · rename_i seen isDown
    obtain ⟨-, rfl⟩ := Prod.mk.inj isDown
    obtain ⟨rfl, rfl⟩ := Prod.mk.inj outcome
    obtain ⟨stillPrecedes, areDue⟩ := of_exhausted precedes.lookAtFlag within rfl
    refine ⟨stillPrecedes, ?_⟩
    intro interruption isSome
    obtain ⟨status, isStatus, rfl⟩ := Option.map_eq_some_iff.mp isSome
    exact areDue status isStatus

end Budget

/-- A solution of a search keeps to its limits: it takes no more iterations than it may, the
limit that it names was reached, and where it says that it was cancelled it was. -/
structure Solution.Honours (outcome : Solution α) (parameters : SharedParameters α)
    (watch : Watch α) : Prop where
  within : outcome.account.iterations ≤ parameters.maxIterations
  ofIterationLimit :
    outcome.status = .iterationLimit →
      outcome.account.iterations = parameters.maxIterations ∨
        (∃ look, watch.flagLooks ≤ look ∧ watch.cancelled look = true) ∧
          outcome.account.details.get? "cancelled" = some (.boolean true)
  /-- The limit was seen on the clock before it was read for the runtime. -/
  ofTimeLimit :
    outcome.status = .timeLimit →
      ∃ limit look last,
        parameters.timeLimit = some limit ∧ watch.clockLooks ≤ look ∧ look < last ∧
          limit ≤ watch.elapsed look ∧ outcome.account.runtime = watch.elapsed last
  ofCancelled :
    outcome.status = .cancelled →
      (∃ look, watch.flagLooks ≤ look ∧ watch.cancelled look = true) ∧
        outcome.objectiveValues = {} ∧ outcome.variableValues = {} ∧
          outcome.violations = [] ∧ outcome.alternatives = []

namespace Solution.Honours

variable {outcome : Solution α} {parameters : SharedParameters α} {watch now : Watch α}
  {iterations : Nat}

/-- A solution that names no limit and was not cancelled has only its iterations to keep to. -/
theorem of_other
    (within : outcome.account.iterations ≤ parameters.maxIterations)
    (isOther :
      outcome.status = .optimal ∨ outcome.status = .feasible ∨ outcome.status = .infeasible) :
    outcome.Honours parameters watch where
  within := within
  ofIterationLimit isStatus := by
    rw [isStatus] at isOther
    simp at isOther
  ofTimeLimit isStatus := by
    rw [isStatus] at isOther
    simp at isOther
  ofCancelled isStatus := by
    rw [isStatus] at isOther
    simp at isOther

/-- A solution that was cancelled has nothing to tell. -/
theorem of_cancelled
    (within : outcome.account.iterations ≤ parameters.maxIterations)
    (sawFlag : watch.SawFlag now)
    (isBare : outcome = .bare outcome.problem .cancelled outcome.account) :
    outcome.Honours parameters watch := by
  obtain ⟨look, isLater, -, isUp⟩ := sawFlag
  rw [isBare]
  exact ⟨within, nofun, nofun, fun _ => ⟨⟨look, isLater, isUp⟩, rfl, rfl, rfl, rfl⟩⟩

/-- A solution that names the limit at which its search was interrupted. -/
theorem of_interruption
    {interruption : Interruption}
    (areIterations : outcome.account.iterations = iterations)
    (within : iterations ≤ parameters.maxIterations)
    (precedes : watch.Precedes now)
    (isDue :
      interruption.IsDue ⟨parameters.maxIterations, parameters.timeLimit⟩ watch iterations now)
    (isRuntime : outcome.account.runtime = now.lookAtClock.1)
    (isStatus : outcome.status = interruption.status?.getD .iterationLimit)
    (told :
      interruption = .cancelled →
        outcome.account.details.get? "cancelled" = some (.boolean true)) :
    outcome.Honours parameters watch := by
  have isWithin : outcome.account.iterations ≤ parameters.maxIterations := by
    rw [areIterations]
    exact Int.ofNat_le.mpr within
  match interruption, isDue with
  | .cancelled, ⟨look, isLater, _, isUp⟩ =>
      have isLimit : outcome.status = .iterationLimit := isStatus
      exact ⟨isWithin, fun _ => .inr ⟨⟨look, isLater, isUp⟩, told rfl⟩, by simp [isLimit],
        by simp [isLimit]⟩
  | .exhausted .iterationLimit, isReached =>
      have isLimit : outcome.status = .iterationLimit := isStatus
      have areAll : outcome.account.iterations = parameters.maxIterations := by
        rw [areIterations]
        exact congrArg Int.ofNat isReached
      exact ⟨isWithin, fun _ => .inl areAll, by simp [isLimit], by simp [isLimit]⟩
  | .exhausted .timeLimit, ⟨limit, isTimeLimit, look, isLater, isEarlier, isReached⟩ =>
      have isLimit : outcome.status = .timeLimit := isStatus
      refine ⟨isWithin, by simp [isLimit], fun _ => ?_, by simp [isLimit]⟩
      refine ⟨limit, look, now.clockLooks, isTimeLimit, isLater, isEarlier, isReached, ?_⟩
      rw [isRuntime, ← precedes.sameClock]
      rfl

end Solution.Honours

end Optima
