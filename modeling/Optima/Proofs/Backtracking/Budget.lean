import Optima.Backtracking.Solve
import Optima.Proofs.Search.Watch
import Optima.Proofs.Table

namespace Optima

/-!
# Descent within a budget

The depth-first search counts each value that it tries, and never tries one that the limit
does not allow.  Its recursion goes through the levels and their values and needs no other
bound.
-/

namespace Backtracking

variable {α : Type}

/-- What holds after each attempt of a search that has not halted, holds where it ends. -/
theorem of_tryEach_eq_ok
    {ε σ β : Type}
    {attempt : β → σ → Except ε (Option Halt × σ)}
    (holds : Option Halt → σ → Prop)
    {values : List β}
    (each :
      ∀ value ∈ values, ∀ before halt? after,
        holds none before → attempt value before = .ok (halt?, after) → holds halt? after)
    {before after : σ}
    {halt? : Option Halt}
    (atStart : holds none before)
    (tried : tryEach attempt values before = .ok (halt?, after)) :
    holds halt? after := by
  induction values generalizing before with
  | nil =>
      cases tried
      exact atStart
  | cons value rest inductionHypothesis =>
      obtain ⟨⟨first?, middle⟩, attempted, tried⟩ := bind_eq_ok tried
      rw [List.forall_mem_cons] at each
      have isMiddle := each.1 before first? middle atStart attempted
      cases first? with
      | some halt =>
          cases tried
          exact isMiddle
      | none => exact inductionHypothesis each.2 isMiddle tried

variable [Scalar α] {candidates : Candidates α} {budget : Budget α} {start : Watch α}
  {exhaustive : Bool} {levels : List (Level α)} {chosen : List (Level α × α)}
  {halt? : Option Halt} {progress after : Progress α}

/-- A search is within its limits, and what interrupts it is due. -/
structure IsWithin (budget : Budget α) (start : Watch α) (halt? : Option Halt)
    (progress : Progress α) : Prop where
  within : progress.nodes ≤ budget.maxIterations
  precedes : start.Precedes progress.watch
  areDue :
    ∀ interruption, halt? = some (.interrupted interruption) →
      interruption.IsDue budget start progress.nodes progress.watch

/-- Coming to a leaf reads the clock at most. -/
theorem IsWithin.of_record_eq_ok
    {vector : List α}
    (isWithin : IsWithin budget start none progress)
    (isRecorded : record candidates vector progress = .ok after) :
    IsWithin budget start none after := by
  unfold record at isRecorded
  obtain ⟨evaluation, -, isRecorded⟩ := bind_eq_ok isRecorded
  split at isRecorded
  · obtain ⟨value, -, isRecorded⟩ := bind_eq_ok isRecorded
    cases isRecorded
    exact ⟨isWithin.within, isWithin.precedes.lookAtClock, nofun⟩
  · cases isRecorded
    exact isWithin

/-- A descent stays within its limits. -/
theorem isWithin_of_descend_eq_ok
    (isWithin : IsWithin budget start none progress)
    (descended :
      descend candidates budget exhaustive levels chosen progress = .ok (halt?, after)) :
    IsWithin budget start halt? after := by
  induction levels generalizing chosen progress halt? after with
  | nil =>
      unfold descend at descended
      obtain ⟨recorded, isRecorded, descended⟩ := bind_eq_ok descended
      obtain ⟨within, precedes, -⟩ := isWithin.of_record_eq_ok isRecorded
      cases descended
      refine ⟨within, precedes, ?_⟩
      cases exhaustive <;> nofun
  | cons level deeper inductionHypothesis =>
      unfold descend at descended
      refine of_tryEach_eq_ok (IsWithin budget start) ?_ isWithin descended
      intro value _ before halt? after isWithin attempted
      cases outcome : budget.interruption before.nodes before.watch with
      | mk interruption? looked =>
          obtain ⟨stillPrecedes, areDue⟩ :=
            Budget.of_interruption isWithin.precedes isWithin.within outcome
          simp only [outcome] at attempted
          cases interruption? with
          | some interruption =>
              cases attempted
              refine ⟨isWithin.within, stillPrecedes, ?_⟩
              rintro _ ⟨⟩
              exact areDue interruption rfl
          | none =>
              have isBelow := Budget.lt_of_interruption_eq_none outcome
              have isVisited :
                  IsWithin budget start none
                    { before with nodes := before.nodes + 1, watch := looked } :=
                ⟨isBelow, stillPrecedes, nofun⟩
              obtain ⟨verdict, -, attempted⟩ := bind_eq_ok attempted
              split at attempted
              · exact inductionHypothesis isVisited attempted
              · cases attempted
                exact isVisited

/-- The end of a search is within its limits, and tells why the search ended. -/
structure Ending.Tells (budget : Budget α) (start : Watch α) (ending : Ending α) : Prop where
  within : ending.nodes ≤ budget.maxIterations
  precedes : start.Precedes ending.watch
  tells :
    (ending.status = .optimal ∨ ending.status = .feasible ∨ ending.status = .infeasible) ∨
      (∃ interruption : Interruption,
        interruption.IsDue budget start ending.nodes ending.watch ∧
          ending.status = interruption.status?.getD .iterationLimit ∧
          (interruption = .cancelled →
            ∃ before, ending.details = before ++ [("cancelled", .boolean true)])) ∨
      start.SawFlag ending.watch ∧ ending.status = .cancelled ∧ ending.vector = none ∧
        ending.violations = []

/-- The end of a descent tells why it ended. -/
theorem IsWithin.tells
    (isWithin : IsWithin budget start halt? progress) :
    (Ending.ofSearch candidates exhaustive halt? progress).Tells budget start := by
  refine ⟨isWithin.within, isWithin.precedes, ?_⟩
  cases isBest : progress.best with
  | none =>
      match halt?, isWithin.areDue with
      | none, _ => exact .inl (.inr (.inr (by simp [Ending.ofSearch, isBest, missedStatus])))
      | some .found, _ => exact .inl (.inr (.inr (by simp [Ending.ofSearch, isBest, missedStatus])))
      | some (.interrupted (.exhausted status)), _ =>
          exact .inl (.inr (.inr (by simp [Ending.ofSearch, isBest, missedStatus])))
      | some (.interrupted .cancelled), areDue =>
          refine .inr (.inr ⟨areDue _ rfl, ?_, ?_, rfl⟩)
          all_goals simp [Ending.ofSearch, isBest, missedStatus]
  | some best =>
      cases isExhaustive : exhaustive with
      | false =>
          exact .inl (.inr (.inl (by simp [Ending.ofSearch, isBest, foundStatus])))
      | true =>
          match halt?, isWithin.areDue with
          | none, _ =>
              exact .inl (.inl (by simp [Ending.ofSearch, isBest, foundStatus]))
          | some .found, _ =>
              exact .inl (.inl (by simp [Ending.ofSearch, isBest, foundStatus, Halt.limit?]))
          | some (.interrupted interruption), areDue =>
              refine .inr (.inl ⟨interruption, areDue _ rfl, ?_, ?_⟩)
              · cases interruption <;>
                  simp [Ending.ofSearch, isBest, foundStatus, Halt.limit?, Interruption.status?]
              · rintro rfl
                exact ⟨_, rfl⟩

/-- A search tells why it ended. -/
theorem tells_of_search_eq_ok
    {γ : Type}
    [SeededSource γ α]
    {parameters : BacktrackingParameters α}
    {ending : Ending α}
    (searched : search γ candidates parameters start = .ok ending) :
    ending.Tells ⟨parameters.maxIterations, parameters.timeLimit⟩ start := by
  unfold search at searched
  split at searched
  · cases searched
    exact ⟨Nat.zero_le _, .refl _, .inl (.inr (.inr rfl))⟩
  · obtain ⟨source, -, searched⟩ := bind_eq_ok searched
    obtain ⟨levels, -, searched⟩ := bind_eq_ok searched
    split at searched
    · have searched := mapError_eq_ok searched
      unfold Ending.withoutVariables at searched
      obtain ⟨evaluation, -, searched⟩ := bind_eq_ok searched
      split at searched
      · cases searched
        exact ⟨Nat.zero_le _, .refl _, .inl (.inl rfl)⟩
      · cases searched
        exact ⟨Nat.zero_le _, .refl _, .inl (.inr (.inr rfl))⟩
    · obtain ⟨⟨halt?, progress⟩, descended, searched⟩ := bind_eq_ok searched
      cases searched
      have atStart :
          IsWithin ⟨parameters.maxIterations, parameters.timeLimit⟩ start none
            ⟨0, none, [], start⟩ :=
        ⟨Nat.zero_le _, .refl _, nofun⟩
      exact (isWithin_of_descend_eq_ok atStart (mapError_eq_ok descended)).tells

/-- What a solution takes over from the end of a search. -/
structure Takes (candidates : Candidates α) (parameters : BacktrackingParameters α)
    (ending : Ending α) (outcome : Solution α) : Prop where
  isStatus : outcome.status = ending.status
  isAccount : outcome.account = account parameters ending
  isBare :
    ending.vector = none →
      outcome = { Solution.bare outcome.problem ending.status outcome.account with
        violations := ending.violations }
  ofVector :
    ∀ vector, ending.vector = some vector →
      candidates.decode vector = .ok outcome.variableValues ∧
        candidates.violations vector = .ok outcome.violations

theorem takes_of_solution_eq_ok
    {parameters : BacktrackingParameters α}
    {ending : Ending α}
    {outcome : Solution α}
    (told : solution candidates parameters ending = .ok outcome) :
    Takes candidates parameters ending outcome := by
  unfold solution at told
  dsimp only at told
  split at told
  · rename_i noVector
    cases told
    exact ⟨rfl, rfl, fun _ => rfl, by simp [noVector]⟩
  · rename_i vector isVector
    obtain ⟨evaluation, -, told⟩ := bind_eq_ok told
    obtain ⟨values, areValues, told⟩ := bind_eq_ok told
    obtain ⟨violations, areViolations, told⟩ := bind_eq_ok told
    obtain ⟨sensitivity, -, told⟩ := bind_eq_ok told
    cases told
    refine ⟨rfl, rfl, by simp [isVector], ?_⟩
    intro other isOther
    obtain rfl := Option.some.inj (isVector.symm.trans isOther)
    exact ⟨mapError_eq_ok areValues, mapError_eq_ok areViolations⟩

/-- A solve that returns honours the limits of its parameters. -/
theorem solve_honours
    {γ : Type}
    [SeededSource γ α]
    {problem : Problem α}
    {parameters : BacktrackingParameters α}
    {outcome : Solution α}
    (solved : solve γ problem parameters start = .ok outcome) :
    outcome.Honours parameters.toSharedParameters start := by
  obtain ⟨candidates, -, solved⟩ := bind_eq_ok solved
  obtain ⟨ending, searched, told⟩ := bind_eq_ok solved
  obtain ⟨endsWithin, precedes, tells⟩ := tells_of_search_eq_ok searched
  obtain ⟨isStatus, isAccount, isBare, -⟩ := takes_of_solution_eq_ok told
  have within : outcome.account.iterations ≤ parameters.maxIterations := by
    rw [isAccount]
    exact Int.ofNat_le.mpr endsWithin
  rcases tells with isOther | ⟨interruption, isDue, wasStatus, isTold⟩ |
    ⟨sawFlag, wasStatus, noVector, noneMissed⟩
  · exact .of_other within (isStatus ▸ isOther)
  · refine .of_interruption (by rw [isAccount]; rfl) endsWithin precedes isDue
      (by rw [isAccount]; rfl) (isStatus.trans wasStatus) fun isCancelled => ?_
    obtain ⟨before, isLast⟩ := isTold isCancelled
    rw [isAccount]
    simp only [account, isLast, ← List.append_assoc]
    exact Table.get?_ofList_append_cons _ [] _ (by simp)
  · have isCancelled := isBare noVector
    rw [wasStatus, noneMissed] at isCancelled
    exact .of_cancelled within sawFlag isCancelled

end Backtracking

end Optima
