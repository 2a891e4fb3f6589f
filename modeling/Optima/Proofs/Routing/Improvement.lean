import Mathlib
import Optima.Proofs.Problem.Evaluation
import Optima.Proofs.Routing.Completeness
import Optima.Proofs.Routing.Neighbourhood

namespace Optima

/-!
# Runs of local search

A run of local search leads from the plan that is constructed to one better plan after another.
Each point of the history tells of one of them.  The stops left unserved stay the same, and no
plan costs more than the slack above the one before it.
-/

namespace Fleet

variable {α : Type} [Scalar α] {fleet : Fleet α} {plan better : Plan} {unserved : List Nat}

/-- The weighted cost of the objectives of a plan. -/
def cost (fleet : Fleet α) (plan : Plan) (unserved : List Nat) : Except (EvalFailure α) α :=
  Objectives.costOf fleet.objectives (.ofNumbers (fleet.metrics plan unserved))

/-- Local search goes from one plan to another. -/
def Improves (fleet : Fleet α) (unserved : List Nat) (plan better : Plan) : Prop :=
  fleet.improved? plan unserved = .ok (some better)

/-- A point of the history tells of a plan. -/
def IsToldBy (fleet : Fleet α) (unserved : List Nat) (plan : Plan) (point : ConvergencePoint α) :
    Prop :=
  fleet.cost plan unserved = .ok point.objectiveValue ∧
    point.constraintViolation = fleet.network.loadOf unserved

/-- The objectives have values on the metrics of every plan. -/
def IsValued (fleet : Fleet α) : Prop :=
  ∀ plan unserved, ∀ objective ∈ fleet.objectives,
    ∃ value, objective.evaluate (.ofNumbers (fleet.metrics plan unserved)) = .ok value

theorem IsValued.exists_key_eq_ok
    (isValued : fleet.IsValued)
    (plan : Plan)
    (unserved : List Nat) :
    ∃ key, fleet.key plan unserved = .ok key := by
  obtain ⟨values, areValues⟩ := Objectives.exists_values_eq_ok (isValued plan unserved)
  exact ⟨_, by simp only [Fleet.key, areValues]; rfl⟩

/-- A search through changes returns where every plan has a key. -/
theorem IsValued.exists_firstBetter?_eq_ok
    (isValued : fleet.IsValued)
    (plan : Plan)
    (unserved : List Nat)
    (current : List α)
    (moves : List Move) :
    ∃ better?, fleet.firstBetter? plan unserved current moves = .ok better? := by
  induction moves with
  | nil =>
      exact ⟨none, rfl⟩
  | cons move rest inductionHypothesis =>
      unfold firstBetter?
      split
      · obtain ⟨candidate, isKey⟩ := isValued.exists_key_eq_ok (move.apply plan) unserved
        rw [isKey]
        by_cases better : isBetter candidate current = true
        · exact ⟨some (move.apply plan), by simp [bind, Except.bind, better, pure, Except.pure]⟩
        · obtain ⟨better?, isTried⟩ := inductionHypothesis
          exact ⟨better?, by simp [bind, Except.bind, better, isTried]⟩
      · exact inductionHypothesis

theorem IsValued.exists_improved?_eq_ok
    (isValued : fleet.IsValued)
    (plan : Plan)
    (unserved : List Nat) :
    ∃ better?, fleet.improved? plan unserved = .ok better? := by
  obtain ⟨current, isKey⟩ := isValued.exists_key_eq_ok plan unserved
  obtain ⟨better?, isTried⟩ :=
    isValued.exists_firstBetter?_eq_ok plan unserved current (Move.candidates plan)
  exact ⟨better?, by simp [improved?, isKey, bind, Except.bind, isTried]⟩

section Exact

variable [ExactScalar α]

end Exact

end Fleet

namespace Routing

variable {α : Type} [Scalar α] {fleet : Fleet α} {progress last : Progress α} {plans : List Plan}

/-- A search that has come through several plans, the latest first. -/
structure Progress.HasCome (fleet : Fleet α) (plans : List Plan) (progress : Progress α) :
    Prop where
  isRun : plans.IsChain fun better plan => fleet.Improves progress.unserved plan better
  isLatest : plans.head? = some progress.plan
  areTold : List.Forall₂ (fleet.IsToldBy progress.unserved) plans progress.history

namespace Progress.HasCome

/-- A better plan that is entered into the history is the latest. -/
theorem record
    (hasCome : progress.HasCome fleet plans)
    {better : Plan}
    {iterations : Nat}
    {watch : Watch α}
    {recorded : Progress α}
    (improves : fleet.Improves progress.unserved progress.plan better)
    (entered :
      Progress.record fleet
        { progress with plan := better, iterations := iterations, watch := watch } =
          .ok recorded) :
    recorded.HasCome fleet (better :: plans) ∧ recorded.unserved = progress.unserved ∧
      recorded.iterations = iterations := by
  obtain ⟨isPlan, isUnserved, point, isHistory, isViolation, isCost⟩ := of_record_eq_ok entered
  refine ⟨⟨?_, ?_, ?_⟩, isUnserved, (Progress.precedes_of_record_eq_ok (.refl _) entered).1⟩
  · rw [isUnserved, List.isChain_cons]
    refine ⟨fun plan isHead => ?_, hasCome.isRun⟩
    rw [hasCome.isLatest] at isHead
    obtain rfl := Option.some.inj isHead
    exact improves
  · rw [isPlan]
    rfl
  · rw [isHistory, isUnserved]
    exact .cons ⟨isCost, isViolation⟩ hasCome.areTold

/-- Local search comes through better plans, one in each iteration but the last, and keeps what is
left unserved. -/
theorem improve
    {budget : Budget α}
    {remaining : Nat}
    {interruption? : Option Interruption}
    (hasCome : progress.HasCome fleet plans)
    (ended : Routing.improve fleet budget remaining progress = .ok (interruption?, last)) :
    ∃ later,
      last.HasCome fleet (later ++ plans) ∧ last.unserved = progress.unserved ∧
        last.iterations ≤ progress.iterations + later.length + 1 := by
  induction remaining generalizing progress plans with
  | zero =>
      unfold Routing.improve at ended
      split at ended
      all_goals
        cases ended
        exact ⟨[], ⟨hasCome.isRun, hasCome.isLatest, hasCome.areTold⟩, rfl, Nat.le_succ _⟩
  | succ remaining inductionHypothesis =>
      unfold Routing.improve at ended
      split at ended
      · cases ended
        exact ⟨[], ⟨hasCome.isRun, hasCome.isLatest, hasCome.areTold⟩, rfl, Nat.le_succ _⟩
      · dsimp only at ended
        obtain ⟨better?, isTried, ended⟩ := bind_eq_ok ended
        cases better? with
        | none =>
            cases ended
            exact ⟨[], ⟨hasCome.isRun, hasCome.isLatest, hasCome.areTold⟩, rfl, Nat.le_refl _⟩
        | some better =>
            obtain ⟨recorded, entered, ended⟩ := bind_eq_ok ended
            obtain ⟨recordedHasCome, isUnserved, isCounted⟩ := hasCome.record isTried entered
            obtain ⟨later, lastHasCome, stillUnserved, within⟩ :=
              inductionHypothesis recordedHasCome ended
            refine ⟨later ++ [better], ?_, stillUnserved.trans isUnserved, ?_⟩
            · rw [List.append_assoc]
              exact lastHasCome
            · rw [List.length_append, List.length_singleton]
              omega

/-- A search starts with the plan that is constructed, and without local search ends there. -/
theorem search
    {parameters : RoutingParameters α}
    {watch : Watch α}
    {interruption? : Option Interruption}
    (searched : Routing.search parameters fleet watch = .ok (interruption?, last)) :
    ∃ later,
      last.HasCome fleet (later ++ [(fleet.network.construct fleet.vehicles).1]) ∧
        last.unserved = (fleet.network.construct fleet.vehicles).2 ∧
        last.iterations ≤ later.length + 1 ∧
        (parameters.localSearch = false → later = []) := by
  unfold Routing.search at searched
  obtain ⟨started, entered, searched⟩ := bind_eq_ok searched
  obtain ⟨isPlan, isUnserved, point, isHistory, isViolation, isCost⟩ := of_record_eq_ok entered
  have noneYet : started.iterations = 0 :=
    (Progress.precedes_of_record_eq_ok (.refl _) entered).1
  have starts : started.HasCome fleet [(fleet.network.construct fleet.vehicles).1] := by
    refine ⟨.singleton _, congrArg some isPlan.symm, ?_⟩
    rw [isHistory, isUnserved]
    exact .cons ⟨isCost, isViolation⟩ .nil
  split at searched
  · rename_i searches
    obtain ⟨later, hasCome, stillUnserved, within⟩ := starts.improve searched
    rw [noneYet, Nat.zero_add] at within
    refine ⟨later, hasCome, stillUnserved.trans isUnserved, within, fun searchesNot => ?_⟩
    rw [searches] at searchesNot
    cases searchesNot
  · cases searched
    exact ⟨[], starts, isUnserved, noneYet.trans_le (Nat.zero_le _), fun _ => rfl⟩

end Progress.HasCome

/-!
## What the solution tells of a run
-/

/-- A solution tells of a search that came through several plans and left some nodes unserved. -/
structure Tells (problem : Problem α) (fleet : Fleet α) (plans : List Plan) (unserved : List Nat)
    (outcome : Solution α) : Prop where
  routes_eq : reportedRoutes? outcome = plans.getLast?.map (reportOf fleet)
  unserved_eq :
    reportedUnserved? outcome = some (unserved.mergeSort.map fleet.network.identifier)
  demand_eq :
    (∀ objective ∈ problem.objectives, objective.name ≠ "unserved_demand") →
      outcome.objectiveValues.get? "unserved_demand" = some (fleet.network.loadOf unserved)
  history : List.Forall₂ (fleet.IsToldBy unserved) plans outcome.account.history
  cost_eq :
    plans.getLast?.map (fleet.cost · unserved) =
      some (.ok (Objectives.cost problem.objectives outcome.objectiveValues))

/-- The solution of a search tells of the plans that it came through. -/
theorem Progress.HasCome.tells
    {problem : Problem α}
    {tolerance : α}
    {outcome : Solution α}
    (hasCome : progress.HasCome fleet plans)
    (sameObjectives : problem.objectives = fleet.objectives)
    (reports : Reports problem tolerance fleet progress outcome) :
    Tells problem fleet plans.reverse progress.unserved outcome where
  routes_eq := by
    rw [List.getLast?_reverse, hasCome.isLatest]
    exact reports.routes_eq
  unserved_eq := reports.unserved_eq
  demand_eq := reports.get?_unserved_demand
  history := by
    rw [reports.history_eq]
    exact List.forall₂_reverse_iff.mpr hasCome.areTold
  cost_eq := by
    obtain ⟨values, areValues, isMerged⟩ := reports.objectiveValues_eq
    rw [List.getLast?_reverse, hasCome.isLatest, isMerged, Objectives.cost_merge areValues]
    simp only [Option.map_some, Fleet.cost, Objectives.costOf, Objectives.values, Except.map,
      ← sameObjectives]
    rw [Objectives.values] at areValues
    rw [areValues]

/-- A solve tells of a run of local search that starts with the plan that is constructed. -/
theorem tells_of_solveOn_eq_ok
    {network : Network α}
    {problem : RoutingProblem α}
    {parameters : RoutingParameters α}
    {watch : Watch α}
    {outcome : Solution α}
    (started : watch.lookAtFlag.1 = false)
    (solved : solveOn network problem parameters watch = .ok outcome) :
    let fleet : Fleet α := ⟨network, problem.vehicles, problem.objectives⟩
    ∃ accepted,
      ((network.construct problem.vehicles).1 :: accepted).IsChain
          (fleet.Improves (network.construct problem.vehicles).2) ∧
        Tells problem.toProblem fleet ((network.construct problem.vehicles).1 :: accepted)
          (network.construct problem.vehicles).2 outcome ∧
        outcome.account.iterations ≤ accepted.length + 1 ∧
        (parameters.localSearch = false → accepted = []) := by
  intro fleet
  obtain ⟨interruption?, progress, searched, ended⟩ := of_solveOn_eq_ok started solved
  obtain ⟨later, hasCome, isUnserved, within, searchesNot⟩ := Progress.HasCome.search searched
  have tells := hasCome.tells rfl (reports_of_solution_eq_ok ended)
  have isRun := List.isChain_reverse.mpr hasCome.isRun
  rw [List.reverse_append, List.reverse_singleton, List.singleton_append, isUnserved] at tells isRun
  refine ⟨later.reverse, isRun, tells, ?_, fun isOff => ?_⟩
  · rw [(closes_of_solution_eq_ok ended).isAccount, List.length_reverse]
    exact Int.ofNat_le.mpr within
  · rw [searchesNot isOff, List.reverse_nil]

/-!
## Searches that return

Where the rules of a problem have values on the metrics of every plan, each solve returns.
-/

theorem exists_record_eq_ok
    (isValued : fleet.IsValued)
    (progress : Progress α) :
    ∃ recorded, progress.record fleet = .ok recorded := by
  obtain ⟨values, areValues⟩ :=
    Objectives.exists_values_eq_ok (isValued progress.plan progress.unserved)
  exact ⟨_, by simp only [Progress.record, Objectives.costOf, areValues]; rfl⟩

theorem exists_improve_eq_ok
    (isValued : fleet.IsValued)
    (budget : Budget α)
    (remaining : Nat)
    (progress : Progress α) :
    ∃ ended, improve fleet budget remaining progress = .ok ended := by
  induction remaining generalizing progress with
  | zero =>
      unfold improve
      split <;> exact ⟨_, rfl⟩
  | succ remaining inductionHypothesis =>
      unfold improve
      split
      · exact ⟨_, rfl⟩
      · rename_i watch _
        obtain ⟨better?, isTried⟩ :=
          isValued.exists_improved?_eq_ok progress.plan progress.unserved
        dsimp only
        rw [isTried]
        cases better? with
        | none =>
            exact ⟨_, rfl⟩
        | some better =>
            obtain ⟨recorded, entered⟩ :=
              exists_record_eq_ok isValued
                { progress with
                  plan := better, iterations := progress.iterations + 1, watch := watch }
            obtain ⟨ended, isEnd⟩ := inductionHypothesis recorded
            exact ⟨ended, by simp [bind, Except.bind, entered, isEnd]⟩

theorem exists_search_eq_ok
    (isValued : fleet.IsValued)
    (parameters : RoutingParameters α)
    (watch : Watch α) :
    ∃ ended, search parameters fleet watch = .ok ended := by
  unfold search
  obtain ⟨started, entered⟩ := exists_record_eq_ok isValued
    ⟨(fleet.network.construct fleet.vehicles).1, (fleet.network.construct fleet.vehicles).2, 0, [],
      watch⟩
  simp only [entered, bind, Except.bind]
  split
  · exact exists_improve_eq_ok isValued _ _ started
  · exact ⟨_, rfl⟩

/-- A routing problem whose rules have values on the metrics of every plan is solved, whatever the
parameters and wherever the search is interrupted. -/
theorem exists_solve_eq_ok
    [Elementary α]
    {problem : RoutingProblem α}
    {parameters : RoutingParameters α}
    (isValued :
      ∀ plan unserved,
        problem.IsValuedOn
          (.ofNumbers
            (Fleet.metrics
              ⟨problem.network parameters.averageSpeed, problem.vehicles, problem.objectives⟩
              plan unserved)))
    (watch : Watch α) :
    ∃ outcome, solve problem parameters watch = .ok outcome := by
  unfold solve
  cases started : watch.lookAtFlag.1 with
  | true =>
      exact ⟨cancelledSolution problem.toProblem, by simp [solveOn, started, pure, Except.pure]⟩
  | false =>
      have objectivesValued :
          Fleet.IsValued
            ⟨problem.network parameters.averageSpeed, problem.vehicles, problem.objectives⟩ :=
        fun plan unserved => (isValued plan unserved).objectives
      obtain ⟨⟨interruption?, progress⟩, searched⟩ :=
        exists_search_eq_ok objectivesValued parameters watch.lookAtFlag.2
      have valued := isValued progress.plan progress.unserved
      obtain ⟨values, areValues⟩ := Objectives.exists_values_eq_ok valued.objectives
      obtain ⟨missed, areMissed⟩ :=
        Constraints.exists_violations_eq_ok parameters.tolerance valued.constraints
      obtain ⟨sensitivity, isSensitivity⟩ :=
        Sensitivity.exists_ofMetrics_eq_ok valued parameters.tolerance
      obtain ⟨outcome, solved, -⟩ :=
        exists_solveOn_eq_ok started searched (by
          rw [isOk_solution, areValues, areMissed, isSensitivity]
          rfl)
      exact ⟨outcome, solved⟩

/-- The only objective of the lavish problem is a metric, so it has a value on every plan. -/
theorem isValuedOn_lavishProblem
    (fleet : Fleet Extended)
    (plan : Plan)
    (unserved : List Nat) :
    lavishProblem.IsValuedOn (.ofNumbers (fleet.metrics plan unserved)) where
  objectives := by
    intro objective member
    obtain rfl := List.mem_singleton.mp member
    exact ⟨_, rfl⟩
  constraints := fun _ member => absurd member List.not_mem_nil

end Routing

end Optima
