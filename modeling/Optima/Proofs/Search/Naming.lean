import Optima.Problem.Feasibility
import Optima.Problem.Propagation
import Optima.Problem.Sensitivity
import Optima.Proofs.Expression.Naming
import Optima.Proofs.Search.Candidates
import Optima.Proofs.Search.Preparation
import Optima.Proofs.Search.Space

namespace Optima

/-!
# Problems and candidates whose names are found

Names are found in all that is computed of a problem, and of the vectors that are searched.
-/

section Problems

/-!
## Problems whose names are found

Where the rules of a problem read none but certain names, and these are bound to numbers, no
value, violation or cost of the problem misses a name.  Propagation looks at forms only.  Prices
are taken from assignments that differ in the number of one name, so they miss no name either.
-/

variable {α : Type}

/-- The rules of the objectives and constraints of a problem. -/
def Problem.rules (problem : Problem α) : List (Rule α) :=
  problem.objectives.map (·.rule) ++ problem.constraints.map (·.rule)

/-- The rules of a problem are expressions that read none but some names. -/
structure Problem.ReadsOnly (problem : Problem α) (names : List String) : Prop where
  objectives : ∀ objective ∈ problem.objectives, objective.rule.ReadsOnly names
  constraints : ∀ constraint ∈ problem.constraints, constraint.rule.ReadsOnly names

theorem Problem.readsOnly_of_rules
    {problem : Problem α}
    {names : List String}
    (readOnly : ∀ rule ∈ problem.rules, rule.ReadsOnly names) :
    problem.ReadsOnly names := by
  rw [rules, List.forall_mem_append, List.forall_mem_map, List.forall_mem_map] at readOnly
  exact ⟨readOnly.1, readOnly.2⟩

variable [Scalar α] {assignment : Assignment α} {names : List String} {tolerance : α}

namespace Variable

theorem findsNames_wholePart
    (round : α → α)
    (value : α) :
    FindsNames (wholePart round value) := by
  unfold wholePart
  repeat' split
  all_goals first | exact findsNames_ok _ | exact findsNames_error id

theorem findsNames_bounds
    (decision : Variable α)
    (defaultBounds : α × α) :
    FindsNames (decision.bounds defaultBounds) := by
  unfold bounds
  split
  · exact findsNames_ok _
  · exact findsNames_ok _
  · exact findsNames_ok _
  · exact (findsNames_wholePart _ _).bind fun _ _ =>
      (findsNames_wholePart _ _).bind fun _ _ => findsNames_ok _

theorem findsNames_encode
    (decision : Variable α)
    (datum : Datum α) :
    FindsNames (decision.encode datum) := by
  unfold encode
  repeat' split
  all_goals first | exact findsNames_ok _ | exact findsNames_error id

theorem findsNames_decode
    (decision : Variable α)
    (value : α) :
    FindsNames (decision.decode value) := by
  have findsPosition : FindsNames (decision.categoryPosition value) :=
    (findsNames_wholePart _ _).bind fun _ _ => findsNames_ok _
  unfold decode
  split
  · exact findsPosition.bind fun _ _ => findsNames_ok _
  · exact (findsNames_wholePart _ _).bind fun _ _ => findsNames_ok _
  · exact (findsNames_wholePart _ _).bind fun _ _ => findsNames_ok _
  · exact findsNames_ok _

end Variable

namespace Constraint

variable {constraint : Constraint α}

theorem findsNames_violation
    (readsOnly : constraint.rule.ReadsOnly names)
    (covers : assignment.Covers names)
    (tolerance : α) :
    FindsNames (constraint.violation tolerance assignment) :=
  (Rule.findsNames_evaluate readsOnly covers).map _

end Constraint

namespace Constraints

variable {constraints : List (Constraint α)}
  (readOnly : ∀ constraint ∈ constraints, constraint.rule.ReadsOnly names)
  (covers : assignment.Covers names)

include readOnly covers

theorem findsNames_feasible :
    FindsNames (feasible tolerance assignment constraints) := by
  induction constraints with
  | nil =>
      exact findsNames_ok true
  | cons constraint rest inductionHypothesis =>
      rw [List.forall_mem_cons] at readOnly
      have finds := (Constraint.findsNames_violation readOnly.1 covers tolerance).map (· == 0)
      refine finds.bind fun isSatisfied _ => ?_
      cases isSatisfied with
      | true => exact inductionHypothesis readOnly.2
      | false => exact findsNames_ok false

theorem findsNames_totalFrom
    (total : α) :
    FindsNames (totalFrom tolerance assignment total constraints) := by
  induction constraints generalizing total with
  | nil =>
      exact findsNames_ok total
  | cons constraint rest inductionHypothesis =>
      rw [List.forall_mem_cons] at readOnly
      exact (Constraint.findsNames_violation readOnly.1 covers tolerance).bind fun _ _ =>
        inductionHypothesis readOnly.2 _

theorem findsNames_violations :
    FindsNames (violations tolerance assignment constraints) := by
  induction constraints with
  | nil =>
      exact findsNames_ok []
  | cons constraint rest inductionHypothesis =>
      rw [List.forall_mem_cons] at readOnly
      exact (Constraint.findsNames_violation readOnly.1 covers tolerance).bind fun _ _ =>
        (inductionHypothesis readOnly.2).bind fun _ _ => findsNames_ok _

end Constraints

namespace Objectives

variable {objectives : List (Objective α)}
  (readOnly : ∀ objective ∈ objectives, objective.rule.ReadsOnly names)
  (covers : assignment.Covers names)

include readOnly covers

theorem findsNames_valuesInto
    (known : Table α) :
    FindsNames (valuesInto assignment known objectives) := by
  induction objectives generalizing known with
  | nil =>
      exact findsNames_ok known
  | cons objective rest inductionHypothesis =>
      rw [List.forall_mem_cons] at readOnly
      exact (Rule.findsNames_evaluate readOnly.1 covers).bind fun _ _ =>
        inductionHypothesis readOnly.2 _

theorem findsNames_values :
    FindsNames (values objectives assignment) :=
  findsNames_valuesInto readOnly covers {}

theorem findsNames_costOf :
    FindsNames (costOf objectives assignment) :=
  (findsNames_values readOnly covers).map _

end Objectives

namespace Propagation

theorem findsNames_wholeInterval
    (interval : α × α) :
    FindsNames (wholeInterval interval) :=
  (Variable.findsNames_wholePart _ _).bind fun _ _ =>
    (Variable.findsNames_wholePart _ _).bind fun _ _ => findsNames_ok _

theorem findsNames_tightened
    (constraint : Constraint α)
    (term : SingleTerm α)
    (kind : VariableKind)
    (tolerance : α)
    (interval : α × α) :
    FindsNames (tightened constraint term kind tolerance interval) := by
  unfold tightened
  dsimp only
  split
  · exact findsNames_ok _
  · exact findsNames_wholeInterval _

theorem findsNames_startBounds
    (defaultBounds : α × α)
    (bounds : Table (α × α))
    (decisions : List (Variable α)) :
    FindsNames (startBounds defaultBounds bounds decisions) := by
  induction decisions generalizing bounds with
  | nil =>
      exact findsNames_ok bounds
  | cons decision rest inductionHypothesis =>
      exact (decision.findsNames_bounds defaultBounds).bind fun _ _ => inductionHypothesis _

/-- Propagation misses no name, whatever the rules of a problem read. -/
theorem findsNames_reduce
    (problem : Problem α)
    (defaultBounds : α × α)
    (tolerance : α) :
    FindsNames (reduce problem defaultBounds tolerance) := by
  refine failsOnly_reduce ?_ ?_ fun constraint _ _ => constraint.rule.findsNames_linearForm?
  · exact fun constraint term kind interval => findsNames_tightened constraint term kind _ interval
  · exact findsNames_startBounds defaultBounds {} problem.decisions

end Propagation

namespace Sensitivity

section Metrics

variable {problem : Problem α} {constraints : List (Constraint α)}

theorem findsNames_slacksOn
    (readOnly : ∀ constraint ∈ constraints, constraint.rule.ReadsOnly names)
    (covers : assignment.Covers names) :
    FindsNames (slacksOn tolerance assignment constraints) := by
  induction constraints with
  | nil =>
      exact findsNames_ok []
  | cons constraint rest inductionHypothesis =>
      rw [List.forall_mem_cons] at readOnly
      exact (Rule.findsNames_evaluate readOnly.1 covers).bind fun _ _ =>
        (inductionHypothesis readOnly.2).bind fun _ _ => findsNames_ok _

theorem findsNames_ofMetrics
    (readsOnly : problem.ReadsOnly names)
    (covers : assignment.Covers names)
    (tolerance : α) :
    FindsNames (ofMetrics problem assignment tolerance) :=
  (Objectives.findsNames_values readsOnly.objectives covers).bind fun _ _ =>
    (findsNames_slacksOn readsOnly.constraints covers).bind fun _ _ => findsNames_ok _

end Metrics

variable {function : Assignment α → Except (EvalFailure α) α} {defaultBounds : α × α}
  {decisions : List (Variable α)} {problem : Problem α} {probing : Probing α}
  (covers : assignment.Covers names)

include covers

omit [Scalar α] in
theorem findsNames_numberAt
    {name : String}
    (member : name ∈ names) :
    FindsNames (numberAt assignment name) := by
  obtain ⟨number, isBound⟩ := covers name member
  rw [numberAt, isBound]
  exact findsNames_ok number

/-- A slope misses no name, for a probe changes the number of a name only. -/
theorem findsNames_slope
    (finds : ∀ other : Assignment α, other.Covers names → FindsNames (function other))
    (step : α)
    {decision : Variable α}
    (member : decision.name ∈ names) :
    FindsNames (slope function assignment defaultBounds step decision) := by
  have findsAt (end_ : α) (breakdown : Breakdown)
      (isBroken :
        function (assignment.insert decision.name (.number end_)) = .error (.broken breakdown)) :
      ¬ NamingFailure.MissesName breakdown :=
    finds _ (covers.insert decision.name end_) _ isBroken
  unfold slope
  split
  · exact findsNames_ok _
  · refine (decision.findsNames_bounds defaultBounds).bind fun interval _ => ?_
    refine (findsNames_numberAt covers member).bind fun value _ => ?_
    dsimp only
    split
    · exact findsNames_ok _
    · split
      · exact findsNames_ok _
      · rename_i breakdown isBroken
        exact findsNames_error (findsAt _ breakdown isBroken)
      · split
        · exact findsNames_ok _
        · rename_i breakdown isBroken
          exact findsNames_error (findsAt _ breakdown isBroken)
        · exact findsNames_ok _

theorem findsNames_gradientInto
    (finds : ∀ other : Assignment α, other.Covers names → FindsNames (function other))
    (step : α)
    (areNames : ∀ decision ∈ decisions, decision.name ∈ names)
    (slopes : Table α) :
    FindsNames (gradientInto function assignment defaultBounds step slopes decisions) := by
  induction decisions generalizing slopes with
  | nil =>
      exact findsNames_ok slopes
  | cons decision rest inductionHypothesis =>
      rw [List.forall_mem_cons] at areNames
      exact (findsNames_slope covers finds step areNames.1).bind fun _ _ =>
        inductionHypothesis areNames.2 _

theorem findsNames_ofVariables
    (areNames : ∀ decision ∈ decisions, decision.name ∈ names)
    (costGradient : Table α)
    (bindings : List (Binding α)) :
    FindsNames (ofVariables probing assignment costGradient bindings decisions) := by
  induction decisions with
  | nil =>
      exact findsNames_ok []
  | cons decision rest inductionHypothesis =>
      rw [List.forall_mem_cons] at areNames
      have findsAccount :
          FindsNames (ofVariable probing assignment costGradient bindings decision) := by
        unfold ofVariable
        dsimp only
        split
        · exact findsNames_ok _
        · exact (decision.findsNames_bounds _).bind fun _ _ =>
            (findsNames_numberAt covers areNames.1).bind fun _ _ => findsNames_ok _
      exact findsAccount.bind fun _ _ =>
        (inductionHypothesis areNames.2).bind fun _ _ => findsNames_ok _

variable (areNames : ∀ decision ∈ problem.decisions, decision.name ∈ names)

include areNames

theorem findsNames_ofConstraint
    {constraint : Constraint α}
    (readsOnly : constraint.rule.ReadsOnly names)
    (costGradient : Table α) :
    FindsNames (ofConstraint problem probing assignment costGradient constraint) := by
  have findsGradient :
      FindsNames
        (gradientInto (fun other => constraint.evaluate other) assignment probing.defaultBounds
          probing.step {} problem.decisions) :=
    findsNames_gradientInto covers (fun _ => Rule.findsNames_evaluate readsOnly) _ areNames _
  refine (Rule.findsNames_evaluate readsOnly covers).bind fun value _ => ?_
  dsimp only
  split
  · exact findsNames_ok _
  · refine findsGradient.broken.bind fun gradient _ => ?_
    split <;> exact findsNames_ok _

theorem findsNames_ofConstraints
    {constraints : List (Constraint α)}
    (readOnly : ∀ constraint ∈ constraints, constraint.rule.ReadsOnly names)
    (costGradient : Table α) :
    FindsNames (ofConstraints problem probing assignment costGradient constraints) := by
  induction constraints with
  | nil =>
      exact findsNames_ok ([], [])
  | cons constraint rest inductionHypothesis =>
      rw [List.forall_mem_cons] at readOnly
      exact (findsNames_ofConstraint covers areNames readOnly.1 costGradient).bind fun _ _ =>
        (inductionHypothesis readOnly.2).bind fun _ _ => findsNames_ok _

/-- Prices around an assignment that binds all names miss none. -/
theorem findsNames_around
    (readsOnly : problem.ReadsOnly names) :
    FindsNames (around problem probing assignment) := by
  have findsCost :
      FindsNames
        (gradientInto (Objectives.costOf problem.objectives) assignment probing.defaultBounds
          probing.step {} problem.decisions) :=
    findsNames_gradientInto covers
      (fun _ => Objectives.findsNames_costOf readsOnly.objectives) _ areNames _
  refine (Objectives.findsNames_values readsOnly.objectives covers).bind fun values _ => ?_
  refine findsCost.broken.bind fun costGradient _ => ?_
  refine (findsNames_ofConstraints covers areNames readsOnly.constraints costGradient).bind
    fun accounts _ => ?_
  exact (findsNames_ofVariables covers areNames _ _).broken.bind fun _ _ => findsNames_ok _

end Sensitivity

end Problems

/-!
## Candidates whose names are found

A vector with a component for each variable binds all their names, whether names are distinct or
not.  What a vector with fewer of them is worth is known as well, for a search goes on where an
expression has no value.
-/

variable {α : Type} [Scalar α]

omit [Scalar α] in
/-- Rules that are expressions fail on numbers in ways only that a search contains. -/
theorem Problem.ReadsOnly.isTame
    {problem : Problem α}
    {names : List String}
    (readsOnly : problem.ReadsOnly names) :
    problem.IsTame := by
  refine ⟨fun objective member => ?_, fun constraint member => ?_⟩
  · obtain ⟨value, isValue, -⟩ := (readsOnly.objectives objective member).exists_expression
    rw [isValue]
    trivial
  · obtain ⟨value, isValue, -⟩ := (readsOnly.constraints constraint member).exists_expression
    rw [isValue]
    trivial

namespace Candidates

variable {candidates : Candidates α} {vector : List α}

omit [Scalar α] in
/-- A vector of all components binds the names of all variables. -/
theorem covers_assignment
    (isSize : vector.length = candidates.size) :
    (candidates.assignment vector).Covers candidates.names := by
  refine Assignment.covers_ofList fun name member => ?_
  have areNames : (candidates.names.zip vector).map (·.1) = candidates.names :=
    List.map_fst_zip (by rw [isSize, length_names])
  rwa [areNames]

theorem findsNames_ofProblem
    (problem : Problem α)
    (defaultBounds : α × α)
    (tolerance : α) :
    FindsNames (ofProblem problem defaultBounds tolerance) :=
  failsOnly_ofProblem (Propagation.findsNames_reduce problem defaultBounds tolerance)

theorem findsNames_decode
    (candidates : Candidates α)
    (vector : List α) :
    FindsNames (candidates.decode vector) := by
  refine (findsNames_mapM fun entry _ => ?_).bind fun _ _ => findsNames_ok _
  exact (entry.1.findsNames_decode entry.2).bind fun _ _ => findsNames_ok _

theorem findsNames_traceValue
    (candidates : Candidates α)
    (score : α) :
    FindsNames (candidates.traceValue score) := by
  unfold traceValue
  split
  · exact findsNames_error id
  · exact findsNames_ok _

section Thresholds

theorem findsNames_thresholds
    (candidates : Candidates α)
    (name : String) :
    FindsNames (candidates.thresholds name) :=
  failsOnly_thresholdsOf _ _ fun constraint _ => constraint.rule.findsNames_linearForm?

theorem findsNames_initial?
    (candidates : Candidates α) :
    FindsNames candidates.initial? := by
  unfold initial?
  dsimp only
  split
  · exact findsNames_ok _
  · refine (findsNames_mapM fun entry _ => ?_).bind fun _ _ => findsNames_ok _
    exact entry.1.findsNames_encode entry.2

end Thresholds

variable {names : List String} (readsOnly : candidates.problem.ReadsOnly names)

include readsOnly

/-- Any vector is worth something, be it that one of its names has no value. -/
theorem findsNames_evaluate
    (vector : List α) :
    FindsNames (candidates.evaluate vector) := by
  obtain ⟨evaluation, isEvaluation, -⟩ := exists_evaluate_eq_ok readsOnly.isTame vector
  rw [isEvaluation]
  exact findsNames_ok evaluation

theorem findsNames_violations
    (covers : (candidates.assignment vector).Covers names) :
    FindsNames (candidates.violations vector) := by
  have finds :
      FindsNames
        (Constraints.violations candidates.tolerance (candidates.assignment vector)
          candidates.problem.constraints) :=
    Constraints.findsNames_violations readsOnly.constraints covers
  unfold violations
  split
  · exact findsNames_ok _
  · exact findsNames_ok _
  · rename_i breakdown isBroken
    exact findsNames_error (finds _ isBroken)

end Candidates

/-- Prices around a vector of all components miss no name. -/
theorem Sensitivity.findsNames_around_assignment
    {candidates : Candidates α}
    {vector : List α}
    (readsOnly : candidates.problem.ReadsOnly candidates.names)
    (isSize : vector.length = candidates.size)
    (probing : Probing α) :
    FindsNames (around candidates.problem probing (candidates.assignment vector)) := by
  refine findsNames_around (candidates.covers_assignment isSize) ?_ readsOnly
  exact fun decision => List.mem_map_of_mem

end Optima
