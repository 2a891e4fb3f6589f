import Optima.Proofs.Evolution.Succession
import Optima.Proofs.Search.Watch
import Optima.Proofs.Table

namespace Optima

/-!
# Generations within a budget

Both evolutionary strategies stop by the same rule, so what holds where a run stops is
said once: there are as many generations as the limit allows at most, and the reason that
is told was seen.  The number of generations that bounds the recursion never ends a run.
-/

namespace Evolution

variable {α : Type} [Scalar α] {candidates : Candidates α} {parameters : GeneticParameters α}
  {start : Watch α} {trace recorded : Trace α} {stop : StopReason}

/-- What a run has to have seen that stops for a reason. -/
def StopReason.IsDue (parameters : GeneticParameters α) (start : Watch α) (trace : Trace α) :
    StopReason → Prop
  | .settled => True
  | .interrupted interruption =>
    interruption.IsDue ⟨parameters.maxIterations, parameters.timeLimit⟩ start trace.generations
      trace.watch

/-- A run is within its limits where it stops for a reason. -/
structure Trace.StopsWithin (parameters : GeneticParameters α) (start : Watch α)
    (trace : Trace α) (stop : StopReason) : Prop where
  within : trace.generations ≤ parameters.maxIterations
  precedes : start.Precedes trace.watch
  isDue : stop.IsDue parameters start trace

namespace Trace

/-- Recording a generation counts it and reads the clock. -/
theorem of_record_eq_ok
    {best : Member α}
    {violation : α}
    (precedes : start.Precedes trace.watch)
    (isRecorded : trace.record candidates best violation = .ok recorded) :
    recorded.generations = trace.generations + 1 ∧ start.Precedes recorded.watch := by
  obtain ⟨value, -, isRecorded⟩ := bind_eq_ok isRecorded
  cases isRecorded
  exact ⟨rfl, precedes.lookAtClock⟩

/-- A run that does not stop has generations left. -/
theorem lt_of_stop?_eq_none
    {looked : Watch α}
    (goesOn : trace.stop? parameters = (none, looked)) :
    trace.generations < parameters.maxIterations := by
  unfold stop? at goesOn
  dsimp only at goesOn
  split at goesOn
  · cases goesOn
  · split at goesOn
    · cases goesOn
    · rename_i notExhausted
      exact Budget.lt_of_exhausted_eq_none notExhausted

/-- What a run stops for is due, and the watch only goes forward. -/
theorem of_stop?
    {stop? : Option StopReason}
    {looked : Watch α}
    (precedes : start.Precedes trace.watch)
    (within : trace.generations ≤ parameters.maxIterations)
    (outcome : trace.stop? parameters = (stop?, looked)) :
    start.Precedes looked ∧
      ∀ stop, stop? = some stop →
        ({ trace with watch := looked } : Trace α).StopsWithin parameters start stop := by
  unfold Trace.stop? at outcome
  dsimp only at outcome
  split at outcome
  · obtain ⟨rfl, rfl⟩ := Prod.mk.inj outcome
    refine ⟨precedes, ?_⟩
    rintro _ ⟨⟩
    exact ⟨within, precedes, trivial⟩
  · split at outcome
    · rename_i isExhausted
      obtain ⟨rfl, rfl⟩ := Prod.mk.inj outcome
      obtain ⟨stillPrecedes, areDue⟩ := Budget.of_exhausted precedes within isExhausted
      refine ⟨stillPrecedes, ?_⟩
      rintro _ ⟨⟩
      exact ⟨within, stillPrecedes, areDue _ rfl⟩
    · rename_i checked notExhausted
      obtain ⟨rfl, rfl⟩ := Prod.mk.inj outcome
      have stillPrecedes := (Budget.of_exhausted precedes within notExhausted).1
      refine ⟨stillPrecedes.lookAtFlag, ?_⟩
      intro stop isStop
      split at isStop
      · rename_i isUp
        cases isStop
        exact ⟨within, stillPrecedes.lookAtFlag, stillPrecedes.sawFlag isUp⟩
      · cases isStop

end Trace

/-- A solution at the end of a run that stops within its limits honours them. -/
theorem Shows.honours
    {algorithm : Algorithm}
    {primary : Member α}
    {before : List (String × Document α)}
    {outcome : Solution α}
    (isShown : Shows candidates algorithm primary trace stop
      (before ++ endDetails parameters trace stop) outcome)
    (stops : trace.StopsWithin parameters start stop) :
    outcome.Honours parameters.toSharedParameters start := by
  have within : outcome.account.iterations ≤ parameters.maxIterations := by
    rw [isShown.isAccount]
    exact Int.ofNat_le.mpr stops.within
  cases isFeasible : primary.evaluation.isFeasible with
  | false =>
      exact .of_other within (.inr (.inr (by simp [isShown.isStatus, isFeasible])))
  | true =>
      have isStatus : outcome.status = stop.status := by
        simp [isShown.isStatus, isFeasible]
      cases stop with
      | settled =>
          exact .of_other within (.inr (.inl isStatus))
      | interrupted interruption =>
          refine .of_interruption ?_ stops.within stops.precedes stops.isDue ?_ ?_ ?_
          · rw [isShown.isAccount]
          · rw [isShown.isAccount]
          · rw [isStatus]
            cases interruption <;> rfl
          · rintro rfl
            rw [isShown.isAccount]
            simp only [endDetails, StopReason.isCancelled, decide_true, ↓reduceIte,
              ← List.append_assoc]
            exact Table.get?_ofList_append_cons _ [] _ (by simp)

/-- A solution of a run that was cancelled before it began honours its limits. -/
theorem cancelledAtStart_honours
    {watch : Watch α}
    (problem : Problem α)
    (algorithm : Algorithm)
    (runtime : α)
    (isCancelled : watch.lookAtFlag.1 = true) :
    (cancelledAtStart problem algorithm runtime).Honours parameters.toSharedParameters watch :=
  .of_cancelled (Int.natCast_nonneg _) ((Watch.Precedes.refl watch).sawFlag isCancelled) rfl

end Evolution

namespace Genetic

open Evolution

variable {α γ : Type} [Scalar α] [RandomSource γ α] {candidates : Candidates α}
  {parameters : GeneticParameters α} {remaining : Nat} {population : List (List α)}
  {trace : Trace α} {source : γ} {start : Watch α}

/-- A run stops within its limits. -/
theorem stopsWithin_of_evolve_eq_ok
    {ending : Ending α}
    (precedes : start.Precedes trace.watch)
    (someLeft : trace.generations < parameters.maxIterations)
    (enough : parameters.maxIterations ≤ trace.generations + remaining)
    (returned : evolve candidates parameters remaining population trace source = .ok ending) :
    ending.trace.StopsWithin parameters start ending.stop := by
  induction remaining generalizing population trace source with
  | zero => omega
  | succ further inductionHypothesis =>
      unfold evolve at returned
      obtain ⟨members, -, returned⟩ := bind_eq_ok returned
      split at returned
      · cases returned
      · obtain ⟨recorded, isRecorded, returned⟩ := bind_eq_ok returned
        obtain ⟨isNext, stillPrecedes⟩ := Trace.of_record_eq_ok precedes isRecorded
        obtain ⟨looksOn, areDue⟩ :=
          Trace.of_stop? stillPrecedes (by omega) (Prod.eta (recorded.stop? parameters)).symm
        dsimp only at returned
        split at returned
        · rename_i stop isStop
          cases returned
          exact areDue stop isStop
        · rename_i goesOn
          have isBelow := Trace.lt_of_stop?_eq_none (Prod.ext goesOn rfl)
          refine inductionHypothesis ?_ ?_ ?_ returned
          · exact looksOn
          · exact isBelow
          · dsimp only
            omega

/-- Two runs are alike if they are whenever another generation follows. -/
theorem evolve_congr
    {first second : Nat}
    (alike :
      ∀ (next : List (List α)) (current : Trace α) (rest : γ),
        current.generations = trace.generations + 1 →
          current.generations < parameters.maxIterations →
            ∃ further other,
              first = further + 1 ∧ second = other + 1 ∧
                evolve candidates parameters further next current rest =
                  evolve candidates parameters other next current rest) :
    evolve candidates parameters first population trace source =
      evolve candidates parameters second population trace source := by
  unfold evolve
  refine bind_congr fun members => ?_
  cases best? members with
  | none => rfl
  | some best =>
      dsimp only
      cases isRecorded : trace.record candidates best best.evaluation.violation with
      | error breakdown => rfl
      | ok recorded =>
          cases isStop : (recorded.stop? parameters).1 with
          | some stop => simp [isStop, bind, Except.bind]
          | none =>
              have isNext := (Trace.of_record_eq_ok (.refl _) isRecorded).1
              have isBelow := Trace.lt_of_stop?_eq_none (Prod.ext isStop rfl)
              obtain ⟨further, other, rfl, rfl, same⟩ :=
                alike _ { recorded with watch := (recorded.stop? parameters).2 } _ isNext isBelow
              simpa only [isStop, bind, Except.bind] using same

/-- Allowing more generations than the limit does changes nothing. -/
theorem evolve_add
    (enough : parameters.maxIterations ≤ trace.generations + remaining)
    (extra : Nat) :
    evolve candidates parameters (remaining + extra) population trace source =
      evolve candidates parameters remaining population trace source := by
  induction remaining generalizing population trace source with
  | zero =>
      refine evolve_congr fun next current rest isNext isBelow => ?_
      omega
  | succ further inductionHypothesis =>
      refine evolve_congr fun next current rest isNext isBelow => ?_
      exact ⟨further + extra, further, Nat.succ_add _ _, rfl, inductionHypothesis (by omega)⟩

section Solving

variable {δ : Type} [SeededSource δ α] {problem : Problem α} {outcome : Solution α}

/-- A solve that returns honours the limits of its parameters. -/
theorem solve_honours
    (someIteration : 0 < parameters.maxIterations)
    (solved : solve δ problem parameters start = .ok outcome) :
    outcome.Honours parameters.toSharedParameters start := by
  cases isCancelled : start.lookAtFlag.1 with
  | true =>
      simp only [solve, isCancelled, ↓reduceIte] at solved
      cases solved
      exact cancelledAtStart_honours _ _ _ isCancelled
  | false =>
      obtain ⟨candidates, population, ending, details, source, remaining, -, evolved, -,
        isShown⟩ := exists_shows_of_solve_eq_ok isCancelled solved
      exact isShown.honours (stopsWithin_of_evolve_eq_ok (Watch.Precedes.refl start).lookAtFlag
        someIteration (Nat.le_add_left _ _) evolved)

end Solving

end Genetic

namespace Pareto

open Evolution

variable {α γ : Type} [Scalar α] [RandomSource γ α] {candidates : Candidates α}
  {parameters : GeneticParameters α} {remaining : Nat} {members : List (Member α)}
  {trace : Trace α} {source : γ} {start : Watch α}

/-- A run stops within its limits. -/
theorem stopsWithin_of_evolve_eq_ok
    {ending : Ending α}
    (precedes : start.Precedes trace.watch)
    (someLeft : trace.generations < parameters.maxIterations)
    (enough : parameters.maxIterations ≤ trace.generations + remaining)
    (returned : evolve candidates parameters remaining members trace source = .ok ending) :
    ending.trace.StopsWithin parameters start ending.stop := by
  induction remaining generalizing members trace source with
  | zero => omega
  | succ further inductionHypothesis =>
      unfold evolve at returned
      dsimp only at returned
      split at returned
      · cases returned
      · obtain ⟨recorded, isRecorded, returned⟩ := bind_eq_ok returned
        obtain ⟨isNext, stillPrecedes⟩ := Trace.of_record_eq_ok precedes isRecorded
        obtain ⟨looksOn, areDue⟩ :=
          Trace.of_stop? stillPrecedes (by omega) (Prod.eta (recorded.stop? parameters)).symm
        split at returned
        · rename_i stop isStop
          cases returned
          exact areDue stop isStop
        · rename_i goesOn
          have isBelow := Trace.lt_of_stop?_eq_none (Prod.ext goesOn rfl)
          obtain ⟨added, -, returned⟩ := bind_eq_ok returned
          refine inductionHypothesis ?_ ?_ ?_ returned
          · exact looksOn
          · exact isBelow
          · dsimp only
            omega

/-- Two runs are alike if they are whenever another generation follows. -/
theorem evolve_congr
    {first second : Nat}
    (alike :
      ∀ (next : List (Member α)) (current : Trace α) (rest : γ),
        current.generations = trace.generations + 1 →
          current.generations < parameters.maxIterations →
            ∃ further other,
              first = further + 1 ∧ second = other + 1 ∧
                evolve candidates parameters further next current rest =
                  evolve candidates parameters other next current rest) :
    evolve candidates parameters first members trace source =
      evolve candidates parameters second members trace source := by
  unfold evolve
  dsimp only
  split
  · rfl
  · rename_i leader isLeader
    cases isRecorded :
        trace.record candidates leader
          (leastViolation members
            (Layering.ofStandings (standingsOf candidates members)).first) with
    | error breakdown => rfl
    | ok recorded =>
        cases isStop : (recorded.stop? parameters).1 with
        | some stop => simp [isStop, bind, Except.bind]
        | none =>
            have isNext := (Trace.of_record_eq_ok (.refl _) isRecorded).1
            have isBelow := Trace.lt_of_stop?_eq_none (Prod.ext isStop rfl)
            have alikeNext (next : List (Member α)) (rest : γ) :=
              alike next { recorded with watch := (recorded.stop? parameters).2 } rest isNext
                isBelow
            obtain ⟨further, other, rfl, rfl, -⟩ := alikeNext members source
            simp only [isStop, bind, Except.bind]
            split
            · rfl
            · rename_i added areAdded
              obtain ⟨_, _, isFirst, isSecond, same⟩ := alikeNext _ _
              cases isFirst
              cases isSecond
              exact same

/-- Allowing more generations than the limit does changes nothing. -/
theorem evolve_add
    (enough : parameters.maxIterations ≤ trace.generations + remaining)
    (extra : Nat) :
    evolve candidates parameters (remaining + extra) members trace source =
      evolve candidates parameters remaining members trace source := by
  induction remaining generalizing members trace source with
  | zero =>
      refine evolve_congr fun next current rest isNext isBelow => ?_
      omega
  | succ further inductionHypothesis =>
      refine evolve_congr fun next current rest isNext isBelow => ?_
      exact ⟨further + extra, further, Nat.succ_add _ _, rfl, inductionHypothesis (by omega)⟩

section Solving

variable [Elementary α] {δ : Type} [SeededSource δ α] {problem : Problem α}
  {outcome : Solution α}

/-- A solve that returns honours the limits of its parameters. -/
theorem solve_honours
    (someIteration : 0 < parameters.maxIterations)
    (solved : solve δ problem parameters start = .ok outcome) :
    outcome.Honours parameters.toSharedParameters start := by
  cases isCancelled : start.lookAtFlag.1 with
  | true =>
      simp only [solve, isCancelled, ↓reduceIte] at solved
      cases solved
      exact cancelledAtStart_honours _ _ _ isCancelled
  | false =>
      obtain ⟨candidates, population, members, ending, primary, details, source, remaining, -,
        evolved, -, -, isShown⟩ := exists_shows_of_solve_eq_ok isCancelled solved
      exact isShown.honours (stopsWithin_of_evolve_eq_ok (Watch.Precedes.refl start).lookAtFlag
        someIteration (Nat.le_add_left _ _) evolved)

end Solving

end Pareto

end Optima
