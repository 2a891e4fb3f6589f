import Optima.Proofs.Backtracking.Budget
import Optima.Proofs.Evolution.Replacement
import Optima.Proofs.Expression.Analysis
import Optima.Proofs.Scalar.Exact
import Optima.Proofs.Search.Preparation
import Optima.Proofs.Search.Space
import Optima.Scalar.Basic
import Optima.Strategy.Solve

namespace Optima

/-!
# What a solve is rejected for

A candidate without a value is infeasible and ends no search.  What is told of the end of a
search is told of a vector that has a value.  So a search over vectors is rejected only before
it starts: where the form of a constraint is looked for and a factor that is asked for its
value has none.
-/

/-- Failures that are breakdowns, or rejections with given errors. -/
def EvalFailure.IsAmong {α : Type} (errors : EvalError α → Prop) : EvalFailure α → Prop
  | .rejected error => errors error
  | .broken _ => True

/-- Failures of a solve that are rejections with given errors, or no rejections at all. -/
def SolveFailure.IsAmong {α : Type} (errors : EvalError α → Prop) : SolveFailure α → Prop
  | .rejected error => errors error
  | .invalid _ | .broken _ => True

section Rejections

variable {α β : Type} {errors : EvalError α → Prop}

theorem SolveFailure.isAmong_toSolveFailure
    {failure : EvalFailure α}
    (isAmong : failure.IsAmong errors) :
    SolveFailure.IsAmong errors failure.toSolveFailure := by
  cases failure <;> exact isAmong

theorem failsOnly_settled
    {computation : Except (EvalFailure α) β}
    (fails : FailsOnly (EvalFailure.IsAmong errors) computation) :
    FailsOnly (SolveFailure.IsAmong errors) (settled computation) :=
  FailsOnly.settled fun failure failed =>
    SolveFailure.isAmong_toSolveFailure (fails failure failed)

/-- A breakdown is no rejection. -/
theorem failsOnly_broken
    (computation : Except Breakdown β) :
    FailsOnly (SolveFailure.IsAmong errors) (computation.mapError .broken) :=
  FailsOnly.mapError fun _ _ => trivial

end Rejections

/-- Numbers of which one is infinite: it is not zero, and its opposite is not finite. -/
class UnlimitedScalar (α : Type) [Scalar α] : Prop where
  infinity_beq_zero : ((Scalar.infinity : α) == 0) = false
  isFinite_neg_infinity : Scalar.isFinite (-Scalar.infinity : α) = false

instance : UnlimitedScalar Extended where
  infinity_beq_zero := by decide
  isFinite_neg_infinity := by decide

instance : UnlimitedScalar Float where
  infinity_beq_zero := by decide +kernel
  isFinite_neg_infinity := by decide +kernel

variable {α : Type} [Scalar α]

section Analysing

/-!
## The analysis of rules
-/

/-- The search for the form of a rule asks a factor for its value, which fails. -/
def Rule.FailsWith (rule : Rule α) (failure : EvalFailure α) : Prop :=
  ∃ expression factor,
    rule = .expression expression ∧
      expression.Asks factor ∧ factor.evaluate {} = .error failure

/-- The analysis of a constraint is rejected. -/
def Problem.RejectsConstraint (problem : Problem α) (error : EvalError α) : Prop :=
  ∃ constraint ∈ problem.constraints, constraint.rule.FailsWith (.rejected error)

/-- The analysis of a bound among the constraints is rejected. -/
def Problem.RejectsBound (problem : Problem α) (error : EvalError α) : Prop :=
  ∃ constraint ∈ problem.constraints,
    constraint.kind = .bound ∧ constraint.rule.FailsWith (.rejected error)

/-- The analysis of an objective or a constraint is rejected. -/
def Problem.RejectsRule (problem : Problem α) (error : EvalError α) : Prop :=
  (∃ objective ∈ problem.objectives, objective.rule.FailsWith (.rejected error)) ∨
    problem.RejectsConstraint error

variable {rule : Rule α} {constraint : Constraint α} {problem : Problem α}
  {failure : EvalFailure α} {error : EvalError α}

theorem Problem.RejectsBound.rejectsConstraint
    (rejects : problem.RejectsBound error) :
    problem.RejectsConstraint error := by
  obtain ⟨constraint, member, -, fails⟩ := rejects
  exact ⟨constraint, member, fails⟩

theorem Rule.linearForm?_eq_error_iff :
    rule.linearForm? = .error failure ↔ rule.FailsWith failure := by
  unfold FailsWith
  cases rule with
  | expression value => simp [linearForm?, Expr.linearForm?_eq_error_iff]
  | closure apply => simp [linearForm?]

/-- The analysis of a rule does not break down. -/
theorem Rule.FailsWith.exists_rejected
    (fails : rule.FailsWith failure) :
    ∃ error, failure = .rejected error := by
  obtain ⟨expression, factor, -, asks, fails⟩ := fails
  cases failure with
  | rejected error => exact ⟨error, rfl⟩
  | broken breakdown =>
      exact absurd (asks.linearForm?_eq_error fails) (expression.contained_linearForm? breakdown)

/-- A rule whose analysis fails has no value on any assignment. -/
theorem Rule.FailsWith.fails_evaluate
    (fails : rule.FailsWith failure)
    (assignment : Assignment α) :
    Fails (rule.evaluate assignment) := by
  obtain ⟨expression, factor, rfl, asks, isFailure⟩ := fails
  exact asks.fails_evaluate ⟨failure, isFailure⟩ assignment

theorem Constraint.singleTerm?_eq_error_iff :
    constraint.singleTerm? = .error failure ↔ constraint.rule.FailsWith failure := by
  rw [← Rule.linearForm?_eq_error_iff, singleTerm?, bind_eq_error_iff]
  constructor
  · rintro (failed | ⟨form?, -, failed⟩)
    · exact failed
    · cases form? with
      | none => cases failed
      | some form =>
          dsimp only at failed
          split at failed <;> cases failed
  · exact .inl

theorem failsOnly_linearForm?
    {errors : EvalError α → Prop}
    (covers : ∀ error, rule.FailsWith (.rejected error) → errors error) :
    FailsOnly (EvalFailure.IsAmong errors) rule.linearForm? := by
  intro failure failed
  have fails := Rule.linearForm?_eq_error_iff.mp failed
  obtain ⟨error, rfl⟩ := fails.exists_rejected
  exact covers error fails

end Analysing

section Preparing

/-!
## The preparation of a search

It fails at a constraint whose analysis fails, and where there is such a constraint it does
fail.
-/

variable {problem : Problem α} {defaultBounds : α × α} {tolerance : α}

/-- Propagation is rejected only at a bound. -/
theorem Propagation.failsOnly_bounds :
    FailsOnly (EvalFailure.IsAmong problem.RejectsBound)
      (reduce problem defaultBounds tolerance) := by
  refine failsOnly_reduce ?_ ?_ fun constraint member isBound => ?_
  · exact fun _ _ _ _ _ _ => trivial
  · exact fun _ _ => trivial
  · exact failsOnly_linearForm? fun error fails => ⟨constraint, member, isBound, fails⟩

theorem Propagation.fails_steps
    {kinds : Table VariableKind}
    {constraints : List (Constraint α)}
    (rejects :
      ∃ constraint ∈ constraints,
        constraint.kind = .bound ∧ ∃ failure, constraint.rule.FailsWith failure)
    (state : Table (α × α) × Table (Conflict α)) :
    Fails (steps kinds tolerance state constraints) := by
  obtain ⟨constraint, member, isBound, failure, fails⟩ := rejects
  induction constraints generalizing state with
  | nil =>
      cases member
  | cons first rest inductionHypothesis =>
      rcases List.mem_cons.mp member with rfl | inRest
      · refine Fails.bind ⟨failure, ?_⟩ _
        simp [step, isBound, Constraint.singleTerm?_eq_error_iff.mpr fails, bind, Except.bind]
      · exact fails_bind_of_next fun next _ => inductionHypothesis next inRest

/-- Propagation has no result where the analysis of a bound fails. -/
theorem Propagation.fails_reduce
    {error : EvalError α}
    (rejects : problem.RejectsBound error) :
    Fails (reduce problem defaultBounds tolerance) := by
  obtain ⟨constraint, member, isBound, fails⟩ := rejects
  exact fails_bind_of_next fun _ _ =>
    (fails_steps ⟨constraint, member, isBound, _, fails⟩ _).bind _

/-- The search space of a problem is rejected only at one of its constraints. -/
theorem Candidates.failsOnly_constraints :
    FailsOnly (EvalFailure.IsAmong problem.RejectsConstraint)
      (ofProblem problem defaultBounds tolerance) := by
  refine failsOnly_ofProblem fun failure failed => ?_
  have isAmong := Propagation.failsOnly_bounds failure failed
  cases failure with
  | rejected error => exact Problem.RejectsBound.rejectsConstraint isAmong
  | broken breakdown => trivial

variable {candidates : Candidates α} {name : String}

/-- The thresholds of a variable fail as the analysis of some constraint does. -/
theorem Candidates.exists_failsWith_of_thresholds_eq_error
    {failure : EvalFailure α}
    (failed : candidates.thresholds name = .error failure) :
    ∃ constraint ∈ candidates.problem.constraints, constraint.rule.FailsWith failure := by
  have fails :
      FailsOnly
        (fun failure =>
          ∃ constraint ∈ candidates.problem.constraints, constraint.rule.FailsWith failure)
        (candidates.thresholds name) :=
    failsOnly_thresholdsOf _ _ fun constraint member failure failed =>
      ⟨constraint, member, Rule.linearForm?_eq_error_iff.mp failed⟩
  exact fails failure failed

theorem Candidates.failsOnly_thresholds
    (candidates : Candidates α)
    (name : String) :
    FailsOnly (EvalFailure.IsAmong candidates.problem.RejectsConstraint)
      (candidates.thresholds name) := by
  intro failure failed
  cases failure with
  | rejected error => exact exists_failsWith_of_thresholds_eq_error failed
  | broken breakdown => trivial

/-- A variable has no thresholds where the analysis of a constraint fails. -/
theorem Candidates.fails_thresholdsOf
    {constraints : List (Constraint α)}
    {constraint : Constraint α}
    (member : constraint ∈ constraints)
    {failure : EvalFailure α}
    (fails : constraint.rule.FailsWith failure) :
    Fails (thresholdsOf tolerance name constraints) := by
  induction constraints with
  | nil =>
      cases member
  | cons first rest inductionHypothesis =>
      rcases List.mem_cons.mp member with rfl | inRest
      · exact Fails.bind ⟨failure, Constraint.singleTerm?_eq_error_iff.mpr fails⟩ _
      · exact fails_bind_of_next fun _ _ => (inductionHypothesis inRest).bind _

end Preparing

section Telling

/-!
## What is told of a vector that has a value

A vector whose worth is more than the worst has values for all objectives and constraints, so the
prices around it are not rejected.
-/

variable {assignment : Assignment α} {tolerance : α} {errors : EvalError α → Prop}

/-- Where violations are added up, every constraint has a value. -/
theorem Constraints.exists_evaluate_of_totalFrom_eq_ok
    {constraints : List (Constraint α)}
    {start total : α}
    (isTotal : totalFrom tolerance assignment start constraints = .ok total) :
    ∀ constraint ∈ constraints, ∃ value, constraint.evaluate assignment = .ok value := by
  induction constraints generalizing start with
  | nil =>
      nofun
  | cons constraint rest inductionHypothesis =>
      obtain ⟨magnitude, isMagnitude, isTotal⟩ := bind_eq_ok isTotal
      rw [List.forall_mem_cons]
      refine ⟨?_, inductionHypothesis isTotal⟩
      cases isValue : constraint.evaluate assignment with
      | ok value => exact ⟨value, rfl⟩
      | error failure => simp [Constraint.violation, isValue, Except.map] at isMagnitude

/-- A vector has values for all objectives and constraints, or it is worth what a candidate without
a value is worth. -/
theorem Candidates.isValuedOn_or_eq_worst
    {candidates : Candidates α}
    {vector : List α}
    {evaluation : Evaluation α}
    (isEvaluation : candidates.evaluate vector = .ok evaluation) :
    candidates.problem.IsValuedOn (candidates.assignment vector) ∨
      evaluation = worst candidates.problem.objectives := by
  unfold evaluate at isEvaluation
  split at isEvaluation
  · rename_i worth isWorth
    obtain ⟨values, areValues, isWorth⟩ := bind_eq_ok isWorth
    obtain ⟨violation, isViolation, -⟩ := bind_eq_ok isWorth
    exact .inl ⟨Objectives.exists_evaluate_of_valuesInto_eq_ok areValues,
      Constraints.exists_evaluate_of_totalFrom_eq_ok isViolation⟩
  · exact .inr (Except.ok.inj isEvaluation).symm
  · cases isEvaluation

/-- A candidate without a value is not feasible. -/
theorem Candidates.isFeasible_worst
    [UnlimitedScalar α]
    (objectives : List (Objective α)) :
    (worst objectives).isFeasible = false :=
  UnlimitedScalar.infinity_beq_zero

/-- No vector is feasible where the analysis of a constraint fails. -/
theorem Candidates.isFeasible_eq_false_of_rejectsConstraint
    [UnlimitedScalar α]
    {candidates : Candidates α}
    {error : EvalError α}
    (rejects : candidates.problem.RejectsConstraint error)
    {vector : List α}
    {evaluation : Evaluation α}
    (isEvaluation : candidates.evaluate vector = .ok evaluation) :
    evaluation.isFeasible = false := by
  obtain ⟨constraint, member, fails⟩ := rejects
  rcases isValuedOn_or_eq_worst isEvaluation with isValued | rfl
  · obtain ⟨value, isValue⟩ := isValued.constraints constraint member
    obtain ⟨failure, isFailure⟩ := fails.fails_evaluate (candidates.assignment vector)
    cases isValue.symm.trans isFailure
  · exact isFeasible_worst _

namespace Sensitivity

variable {problem : Problem α} {probing : Probing α}

theorem failsOnly_ofConstraints
    {constraints : List (Constraint α)}
    (valued :
      ∀ constraint ∈ constraints, ∃ value, constraint.evaluate assignment = .ok value)
    (costGradient : Table α) :
    FailsOnly (EvalFailure.IsAmong errors)
      (ofConstraints problem probing assignment costGradient constraints) := by
  induction constraints with
  | nil =>
      exact failsOnly_ok ([], [])
  | cons constraint rest inductionHypothesis =>
      rw [List.forall_mem_cons] at valued
      obtain ⟨value, isValue⟩ := valued.1
      have failsHere :
          FailsOnly (EvalFailure.IsAmong errors)
            (ofConstraint problem probing assignment costGradient constraint) := by
        unfold ofConstraint
        rw [isValue]
        refine (failsOnly_ok value).bind fun _ _ => ?_
        dsimp only
        split
        · exact failsOnly_ok _
        · refine FailsOnly.bind (FailsOnly.mapError fun _ _ => trivial) fun gradient _ => ?_
          split <;> exact failsOnly_ok _
      exact failsHere.bind fun _ _ => (inductionHypothesis valued.2).bind fun _ _ =>
        failsOnly_ok _

/-- Prices around an assignment with values are not rejected, for a probe that is rejected counts
as no slope. -/
theorem failsOnly_around
    (valued : problem.IsValuedOn assignment) :
    FailsOnly (EvalFailure.IsAmong errors) (around problem probing assignment) := by
  obtain ⟨values, areValues⟩ := Objectives.exists_values_eq_ok valued.objectives
  unfold around
  rw [areValues]
  refine (failsOnly_ok values).bind fun _ _ => ?_
  refine FailsOnly.bind (FailsOnly.mapError fun _ _ => trivial) fun costGradient _ => ?_
  refine (failsOnly_ofConstraints valued.constraints costGradient).bind fun _ _ => ?_
  exact FailsOnly.bind (FailsOnly.mapError fun _ _ => trivial) fun _ _ => failsOnly_ok _

end Sensitivity

end Telling

namespace Backtracking

variable {γ : Type} {candidates : Candidates α} {problem : Problem α}
  {parameters : BacktrackingParameters α} {watch : Watch α} {budget : Budget α}
  {exhaustive : Bool} {levels : List (Level α)} {chosen : List (Level α × α)}
  {halt? : Option Halt} {progress after : Progress α} {errors : EvalError α → Prop}

/-- Whatever vector is kept has a value. -/
def KeepsValued (candidates : Candidates α) (progress : Progress α) : Prop :=
  ∀ vector score,
    progress.best = some (vector, score) →
      -Scalar.infinity < score ∧ candidates.problem.IsValuedOn (candidates.assignment vector)

section Keeping

variable [ComparableScalar α]

/-- A vector without a value does not improve on what is kept, and on nothing either. -/
theorem keepsValued_of_record_eq_ok
    (keepsValued : KeepsValued candidates progress)
    {vector : List α}
    (isRecorded : record candidates vector progress = .ok after) :
    KeepsValued candidates after := by
  obtain ⟨evaluation, isEvaluation, isRecorded⟩ := bind_eq_ok isRecorded
  split at isRecorded
  · rename_i isBetter
    obtain ⟨value, -, isRecorded⟩ := bind_eq_ok isRecorded
    cases isRecorded
    have isScored : -Scalar.infinity < evaluation.score := by
      cases isBest : progress.best with
      | none => simpa [improves, isBest] using isBetter
      | some best =>
          refine ComparableScalar.lt_trans (keepsValued _ _ isBest).1 ?_
          simpa [improves, isBest] using isBetter
    rintro kept score ⟨⟩
    refine ⟨isScored, ?_⟩
    rcases Candidates.isValuedOn_or_eq_worst isEvaluation with isValued | rfl
    · exact isValued
    · exact absurd isScored (ComparableScalar.lt_irrefl _)
  · cases isRecorded
    exact keepsValued

theorem keepsValued_of_descend_eq_ok
    (keepsValued : KeepsValued candidates progress)
    (descended :
      descend candidates budget exhaustive levels chosen progress = .ok (halt?, after)) :
    KeepsValued candidates after := by
  induction levels generalizing chosen progress halt? after with
  | nil =>
      obtain ⟨recorded, isRecorded, descended⟩ := bind_eq_ok descended
      cases descended
      exact keepsValued_of_record_eq_ok keepsValued isRecorded
  | cons level deeper inductionHypothesis =>
      refine of_tryEach_eq_ok (fun _ => KeepsValued candidates) ?_ keepsValued descended
      intro value _ before halt? after keepsBefore attempted
      cases outcome : budget.interruption before.nodes before.watch with
      | mk interruption? looked =>
          simp only [outcome] at attempted
          cases interruption? with
          | some interruption =>
              cases attempted
              exact keepsBefore
          | none =>
              obtain ⟨verdict, -, attempted⟩ := bind_eq_ok attempted
              split at attempted
              · have keepsVisited :
                    KeepsValued candidates
                      { before with nodes := before.nodes + 1, watch := looked } :=
                  keepsBefore
                exact inductionHypothesis keepsVisited attempted
              · cases attempted
                exact keepsBefore

end Keeping

variable [SeededSource γ α]

/-- The vector that a search ends with has a value. -/
theorem isValuedOn_of_search_eq_ok
    [ComparableScalar α]
    [UnlimitedScalar α]
    {ending : Ending α}
    (searched : search γ candidates parameters watch = .ok ending)
    {vector : List α}
    (isVector : ending.vector = some vector) :
    candidates.problem.IsValuedOn (candidates.assignment vector) := by
  unfold search at searched
  split at searched
  · cases searched
    cases isVector
  · obtain ⟨source, -, searched⟩ := bind_eq_ok searched
    obtain ⟨levels, -, searched⟩ := bind_eq_ok searched
    split at searched
    · obtain ⟨evaluation, isEvaluation, searched⟩ := bind_eq_ok (mapError_eq_ok searched)
      split at searched
      · rename_i isFeasible
        cases searched
        cases isVector
        rcases Candidates.isValuedOn_or_eq_worst isEvaluation with isValued | rfl
        · exact isValued
        · rw [Candidates.isFeasible_worst] at isFeasible
          cases isFeasible
      · cases searched
        cases isVector
    · obtain ⟨⟨halt?, progress⟩, descended, searched⟩ := bind_eq_ok searched
      cases searched
      obtain ⟨⟨kept, score⟩, isBest, rfl⟩ := Option.map_eq_some_iff.mp isVector
      exact (keepsValued_of_descend_eq_ok nofun (mapError_eq_ok descended) kept score isBest).2

theorem failsOnly_search :
    FailsOnly (SolveFailure.IsAmong candidates.problem.RejectsConstraint)
      (search γ candidates parameters watch) := by
  unfold search
  split
  · exact failsOnly_ok _
  · refine (failsOnly_broken _).bind fun source _ => ?_
    refine FailsOnly.bind (failsOnly_settled ?_) fun levels _ => ?_
    · exact failsOnly_levels candidates.failsOnly_thresholds parameters source
        fun _ _ _ _ => trivial
    · split
      · exact failsOnly_broken _
      · exact (failsOnly_broken _).bind fun _ _ => failsOnly_ok _

theorem failsOnly_solution
    {ending : Ending α}
    (areValued :
      ∀ vector, ending.vector = some vector →
        candidates.problem.IsValuedOn (candidates.assignment vector)) :
    FailsOnly (SolveFailure.IsAmong errors) (solution candidates parameters ending) := by
  unfold solution
  dsimp only
  split
  · exact failsOnly_ok _
  · rename_i vector isVector
    refine (failsOnly_broken _).bind fun _ _ => ?_
    refine (failsOnly_broken _).bind fun _ _ => ?_
    refine (failsOnly_broken _).bind fun _ _ => ?_
    exact (failsOnly_settled (Sensitivity.failsOnly_around (areValued vector isVector))).bind
      fun _ _ => failsOnly_ok _

/-- Backtracking is rejected only where the analysis of a constraint is. -/
theorem failsOnly_solve
    [ComparableScalar α]
    [UnlimitedScalar α] :
    FailsOnly (SolveFailure.IsAmong problem.RejectsConstraint)
      (solve γ problem parameters watch) := by
  refine (failsOnly_settled Candidates.failsOnly_constraints).bind fun candidates prepared => ?_
  obtain rfl := Candidates.problem_eq_of_ofProblem_eq_ok (settled_eq_ok prepared)
  refine failsOnly_search.bind fun ending searched => ?_
  exact failsOnly_solution fun _ => isValuedOn_of_search_eq_ok searched

end Backtracking

namespace Evolution

variable {γ : Type} [SeededSource γ α] {candidates : Candidates α} {problem : Problem α}
  {parameters : GeneticParameters α} {watch : Watch α} {errors : EvalError α → Prop}

theorem failsOnly_constraints
    (size : Nat)
    (source : γ) :
    FailsOnly (SolveFailure.IsAmong candidates.problem.RejectsConstraint)
      (initialPopulation candidates size source) := by
  have switches :
      FailsOnly (EvalFailure.IsAmong candidates.problem.RejectsConstraint)
        candidates.thresholdVectors :=
    Candidates.failsOnly_thresholdVectors candidates.failsOnly_thresholds
  refine failsOnly_initialPopulation (fun _ _ => trivial) ?_ (fun _ _ => trivial) size source
  exact fun failure failed => SolveFailure.isAmong_toSolveFailure (switches failure failed)

/-- What is told of a member that is worth a finite score is told of a vector with a value. -/
theorem failsOnly_solution
    [UnlimitedScalar α]
    {algorithm : Algorithm}
    {primary : Member α}
    {others : List (Alternative α)}
    {trace : Trace α}
    {stop : StopReason}
    {details : List (String × Document α)}
    (isMember : memberOf candidates parameters primary.vector = .ok primary) :
    FailsOnly (SolveFailure.IsAmong errors)
      (solution candidates parameters algorithm primary others trace stop details) := by
  have failsTold (tell : Table (Datum α) → List (Violation α) → Solution α) :
      FailsOnly (SolveFailure.IsAmong errors) (do
        let values ← (candidates.decode primary.vector).mapError .broken
        let violations ← (candidates.violations primary.vector).mapError .broken
        return tell values violations) :=
    (failsOnly_broken _).bind fun _ _ => (failsOnly_broken _).bind fun _ _ => failsOnly_ok _
  unfold solution
  dsimp only
  split
  · rename_i isFinite
    refine (failsOnly_settled (Sensitivity.failsOnly_around ?_)).bind fun _ _ => failsTold _
    rcases Candidates.isValuedOn_or_eq_worst (evaluate_of_memberOf_eq_ok isMember) with
      isValued | isWorst
    · exact isValued
    · rw [isWorst, Candidates.worst, UnlimitedScalar.isFinite_neg_infinity] at isFinite
      cases isFinite
  · exact failsTold _

variable [UnlimitedScalar α]

/-- The genetic strategy is rejected only where the analysis of a constraint is. -/
theorem failsOnly_genetic_solve :
    FailsOnly (SolveFailure.IsAmong problem.RejectsConstraint)
      (Genetic.solve γ problem parameters watch) := by
  unfold Genetic.solve
  dsimp only
  split
  · exact failsOnly_ok _
  · refine (failsOnly_settled Candidates.failsOnly_constraints).bind fun candidates prepared => ?_
    obtain rfl := Candidates.problem_eq_of_ofProblem_eq_ok (settled_eq_ok prepared)
    refine (failsOnly_broken _).bind fun source _ => ?_
    refine (failsOnly_constraints _ source).bind fun populated _ => ?_
    refine (failsOnly_broken _).bind fun ending evolved => ?_
    refine (failsOnly_broken _).bind fun _ _ => ?_
    obtain ⟨-, isLast, isChosen⟩ := Genetic.closesChosen_of_evolve_eq_ok (mapError_eq_ok evolved)
    obtain ⟨position, -, isBest⟩ := Genetic.exists_position_of_best?_eq_some isChosen
    exact failsOnly_solution (Genetic.memberOf_of_mem_generations (List.mem_of_getLast? isLast)
      (List.mem_of_getElem? isBest))

/-- The Pareto strategy is rejected only where the analysis of a constraint is. -/
theorem failsOnly_pareto_solve
    [Elementary α] :
    FailsOnly (SolveFailure.IsAmong problem.RejectsConstraint)
      (Pareto.solve γ problem parameters watch) := by
  unfold Pareto.solve
  dsimp only
  split
  · exact failsOnly_ok _
  · refine (failsOnly_settled Candidates.failsOnly_constraints).bind fun candidates prepared => ?_
    obtain rfl := Candidates.problem_eq_of_ofProblem_eq_ok (settled_eq_ok prepared)
    refine (failsOnly_broken _).bind fun source _ => ?_
    refine (failsOnly_constraints _ source).bind fun populated _ => ?_
    refine (failsOnly_broken _).bind fun members areMembers => ?_
    refine (failsOnly_broken _).bind fun ending evolved => ?_
    split
    · exact failsOnly_error trivial
    · rename_i primary isPrimary
      refine (failsOnly_broken _).bind fun _ _ => ?_
      obtain ⟨-, isLast, -⟩ := Pareto.closes_of_evolve_eq_ok (mapError_eq_ok evolved)
      exact failsOnly_solution (Pareto.memberOf_of_mem_course (mapError_eq_ok areMembers) _
        (List.mem_of_getLast? isLast) _ (List.mem_of_getElem? isPrimary))

end Evolution

namespace LinearProgram

variable {problem : Problem α} {errors : EvalError α → Prop}

theorem failsOnly_formOf
    {columns : Table (Column α)}
    {rule : Rule α}
    (covers : ∀ error, rule.FailsWith (.rejected error) → errors error)
    (noun name : String) :
    FailsOnly (SolveFailure.IsAmong errors) (formOf columns noun name rule) := by
  refine (failsOnly_settled (failsOnly_linearForm? covers)).bind fun form? _ => ?_
  cases form? with
  | none => exact failsOnly_error trivial
  | some form =>
      dsimp only
      repeat' split
      all_goals first | exact failsOnly_ok _ | exact failsOnly_error trivial

/-- A linear program is rejected only where the analysis of an objective or a constraint is. -/
theorem failsOnly_rules
    (tolerance : α) :
    FailsOnly (SolveFailure.IsAmong problem.RejectsRule) (ofProblem problem tolerance) := by
  refine failsOnly_ofProblem (fun _ => trivial) trivial ?_ ?_ tolerance
  · exact fun objective member =>
      failsOnly_formOf (fun _ fails => .inl ⟨objective, member, fails⟩) _ _
  · exact fun constraint member =>
      failsOnly_formOf (fun _ fails => .inr ⟨constraint, member, fails⟩) _ _

end LinearProgram

section Rejecting

/-!
## What is rejected

Where every factor that is asked has a value, nothing is rejected that is done with the
constraints before a search starts, nor the search itself.  Where a factor has none, its
constraint holds nowhere; a search that came to its candidates would find them infeasible, but
it is given up before.
-/

variable [Elementary α]

/--
All that is done with the rules of a problem is rejected only at factors that are asked for their
value when the form of a rule is looked for, and is rejected at these.
-/
structure Problem.IsRejectedAtFactors (γ : Type) [SeededSource γ α] (problem : Problem α) :
    Prop where
  terms :
    ∀ constraint ∈ problem.constraints, ∀ failure,
      constraint.singleTerm? = .error failure ↔ constraint.rule.FailsWith failure
  /-- Propagation looks at bounds only. -/
  bounds :
    ∀ defaultBounds tolerance error,
      (Propagation.reduce problem defaultBounds tolerance = .error (.rejected error) →
          problem.RejectsBound error) ∧
        (problem.RejectsBound error → Fails (Propagation.reduce problem defaultBounds tolerance))
  /-- The thresholds of any variable look at all constraints. -/
  thresholds :
    ∀ candidates : Candidates α, candidates.problem = problem → ∀ name,
      (∀ failure, candidates.thresholds name = .error failure →
          ∃ constraint ∈ problem.constraints, constraint.rule.FailsWith failure) ∧
        ∀ error, problem.RejectsConstraint error → Fails (candidates.thresholds name)
  program :
    ∀ tolerance error,
      LinearProgram.ofProblem problem tolerance = .error (.rejected error) →
        problem.RejectsRule error
  /-- A candidate without a value is infeasible, as all are at a constraint whose analysis fails. -/
  candidates :
    ∀ candidates : Candidates α, candidates.problem = problem → ∀ vector,
      (∀ error,
          candidates.evaluateOn (candidates.assignment vector) = .error (.rejected error) →
            ∃ evaluation,
              candidates.evaluate vector = .ok evaluation ∧ evaluation.isFeasible = false) ∧
        ∀ error evaluation,
          problem.RejectsConstraint error → candidates.evaluate vector = .ok evaluation →
            evaluation.isFeasible = false
  backtracking :
    ∀ parameters watch error,
      (Backtracking.solve γ problem parameters watch = .error (.rejected error) →
          problem.RejectsConstraint error) ∧
        (problem.RejectsBound error → Fails (Backtracking.solve γ problem parameters watch))
  genetic :
    ∀ parameters watch error,
      Genetic.solve γ problem parameters watch = .error (.rejected error) →
        problem.RejectsConstraint error
  pareto :
    ∀ parameters watch error,
      Pareto.solve γ problem parameters watch = .error (.rejected error) →
        problem.RejectsConstraint error

variable [ComparableScalar α] [UnlimitedScalar α] {problem : Problem α}

theorem Problem.isRejectedAtFactors
    (γ : Type)
    [SeededSource γ α]
    (problem : Problem α) :
    problem.IsRejectedAtFactors γ where
  terms _ _ _ := Constraint.singleTerm?_eq_error_iff
  bounds _ _ _ :=
    ⟨fun rejected => Propagation.failsOnly_bounds _ rejected, Propagation.fails_reduce⟩
  thresholds candidates isProblem name := by
    subst isProblem
    refine ⟨fun _ => Candidates.exists_failsWith_of_thresholds_eq_error, fun error rejects => ?_⟩
    obtain ⟨constraint, member, fails⟩ := rejects
    exact Candidates.fails_thresholdsOf member fails
  program _ _ rejected := LinearProgram.failsOnly_rules _ _ rejected
  candidates candidates isProblem vector := by
    subst isProblem
    refine ⟨fun error rejected => ?_, fun _ _ rejects isEvaluation => ?_⟩
    · exact ⟨Candidates.worst candidates.problem.objectives,
        by simp [Candidates.evaluate, rejected], Candidates.isFeasible_worst _⟩
    · exact Candidates.isFeasible_eq_false_of_rejectsConstraint rejects isEvaluation
  backtracking _ _ _ :=
    ⟨fun rejected => Backtracking.failsOnly_solve _ rejected, fun rejects =>
      Fails.bind (Fails.settled ((Propagation.fails_reduce rejects).bind _)) _⟩
  genetic _ _ _ rejected := Evolution.failsOnly_genetic_solve _ rejected
  pareto _ _ _ rejected := Evolution.failsOnly_pareto_solve _ rejected

/-- The search for a form fails exactly where a factor that is asked for its value has none, and
then the expression has no value anywhere.  Nothing else is rejected that is done with the rules of
a problem. -/
theorem analysis_fails_at_factors
    (γ : Type)
    [SeededSource γ α] :
    (∀ (expression : Expr α) failure,
        expression.linearForm? = .error failure ↔
          ∃ factor, expression.Asks factor ∧ factor.evaluate {} = .error failure) ∧
      (∀ expression : Expr α, Fails expression.linearForm? →
        ∀ assignment, Fails (expression.evaluate assignment)) ∧
      ∀ problem : Problem α, problem.IsRejectedAtFactors γ := by
  refine ⟨fun _ _ => Expr.linearForm?_eq_error_iff, ?_, Problem.isRejectedAtFactors γ⟩
  rintro expression ⟨failure, failed⟩ assignment
  obtain ⟨factor, asks, isFailure⟩ := Expr.linearForm?_eq_error_iff.mp failed
  exact asks.fails_evaluate ⟨failure, isFailure⟩ assignment

end Rejecting

section Quotient

/-- A number divided by zero. -/
def quotientByZero : Expr Extended :=
  .product [.power (.constant (.finite 0)) (.finite (-1)), .variable "x"]

/-- Zero or one divided by zero is to be at most one. -/
def quotientProblem : Problem Extended where
  identifier := "quotient"
  name := ""
  kind := .constraintSatisfaction
  description := ""
  objectives := [⟨.expression (.variable "x"), "o_f", "f", .minimize, .finite 1, 1, ""⟩]
  constraints := [⟨.expression quotientByZero, "c", "c", .bound, .atMost, .finite 1, none, ""⟩]
  decisions := [⟨"v_x", "x", .integer, some (.finite 0), some (.finite 1), none, none, ""⟩]
  parameters := none
  status := .pending

/-- The quotient is no linear form, but looking for one fails, and so does propagation. -/
theorem quotientProblem_fails_before_search :
    quotientByZero.linearForm? =
        .error (.rejected (.zeroToNegative (some (.finite 0)) (.finite (-1)))) ∧
      Propagation.reduce quotientProblem (.finite 0, .finite 100) Scalar.slack =
        .error (.rejected (.zeroToNegative (some (.finite 0)) (.finite (-1)))) := by
  constructor
  · rfl
  · rfl

/-- It fails at the power of zero that the product begins with. -/
theorem quotientProblem_fails_at_factor :
    (∃ factor,
        quotientByZero.Asks factor ∧
          factor.evaluate {} =
            .error (.rejected (.zeroToNegative (some (.finite 0)) (.finite (-1))))) ∧
      Fails (quotientByZero.evaluate (.ofNumbers [("x", .finite 1)])) ∧
      quotientProblem.RejectsBound (.zeroToNegative (some (.finite 0)) (.finite (-1))) := by
  obtain ⟨fails_iff, failsEverywhere, areRejected⟩ :=
    analysis_fails_at_factors (α := Extended) MixingGenerator
  exact ⟨(fails_iff quotientByZero _).mp rfl, failsEverywhere quotientByZero ⟨_, rfl⟩ _,
    ((areRejected quotientProblem).bounds (.finite 0, .finite 100) Scalar.slack _).1 rfl⟩

end Quotient

end Optima
