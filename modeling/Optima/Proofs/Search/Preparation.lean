import Optima.Backtracking.Search
import Optima.Evolution.Operators
import Optima.Linear.Program
import Optima.Proofs.Expression.Evaluation

namespace Optima

/-!
# How the preparation of a search fails

Before a search starts, intervals are tightened and the values are collected at which constraints
switch, or rows are made of constraints.  Of the rules only their forms are looked at, so all
this fails only as the analysis of a rule fails, or as a number breaks down.
-/

variable {α γ : Type} [Scalar α] {allowed : EvalFailure α → Prop}

theorem Constraint.failsOnly_singleTerm?
    {constraint : Constraint α}
    (analysed : FailsOnly allowed constraint.rule.linearForm?) :
    FailsOnly allowed constraint.singleTerm? := by
  refine analysed.bind fun form? _ => ?_
  cases form? with
  | none => exact failsOnly_ok none
  | some form =>
      dsimp only
      split <;> exact failsOnly_ok _

namespace Propagation

variable {tolerance : α}
  (tightens :
    ∀ (constraint : Constraint α) term kind interval,
      FailsOnly (fun breakdown => allowed (.broken breakdown))
        (tightened constraint term kind tolerance interval))

include tightens

theorem failsOnly_step
    (kinds : Table VariableKind)
    (state : Table (α × α) × Table (Conflict α))
    {constraint : Constraint α}
    (analysed : constraint.kind = .bound → FailsOnly allowed constraint.rule.linearForm?) :
    FailsOnly allowed (step kinds tolerance state constraint) := by
  unfold step
  split
  · exact failsOnly_ok _
  · rename_i isBound
    refine (Constraint.failsOnly_singleTerm? (analysed (by simpa using isBound))).bind
      fun term? _ => ?_
    cases term? with
    | none => exact failsOnly_ok _
    | some term =>
        dsimp only
        split
        · rename_i interval kind _ _
          split
          · exact failsOnly_ok _
          · split
            · rename_i breakdown isBroken
              exact failsOnly_error (tightens constraint term kind interval breakdown isBroken)
            · split <;> exact failsOnly_ok _
        · exact failsOnly_ok _

theorem failsOnly_steps
    (kinds : Table VariableKind)
    (state : Table (α × α) × Table (Conflict α))
    {constraints : List (Constraint α)}
    (analysed :
      ∀ constraint ∈ constraints,
        constraint.kind = .bound → FailsOnly allowed constraint.rule.linearForm?) :
    FailsOnly allowed (steps kinds tolerance state constraints) := by
  induction constraints generalizing state with
  | nil =>
      exact failsOnly_ok state
  | cons constraint rest inductionHypothesis =>
      rw [List.forall_mem_cons] at analysed
      exact (failsOnly_step tightens kinds state analysed.1).bind fun next _ =>
        inductionHypothesis next analysed.2

/-- Propagation fails as the analysis of a bound among the constraints, or where intervals break
down. -/
theorem failsOnly_reduce
    {problem : Problem α}
    {defaultBounds : α × α}
    (starts :
      FailsOnly (fun breakdown => allowed (.broken breakdown))
        (startBounds defaultBounds {} problem.decisions))
    (analysed :
      ∀ constraint ∈ problem.constraints,
        constraint.kind = .bound → FailsOnly allowed constraint.rule.linearForm?) :
    FailsOnly allowed (reduce problem defaultBounds tolerance) :=
  starts.mapError.bind fun _ _ =>
    (failsOnly_steps tightens _ _ analysed).bind fun _ _ => failsOnly_ok _

end Propagation

namespace Candidates

theorem failsOnly_ofProblem
    {problem : Problem α}
    {defaultBounds : α × α}
    {tolerance : α}
    (reduces : FailsOnly allowed (Propagation.reduce problem defaultBounds tolerance)) :
    FailsOnly allowed (ofProblem problem defaultBounds tolerance) :=
  reduces.bind fun _ _ => failsOnly_ok _

theorem failsOnly_thresholdsOf
    (tolerance : α)
    (name : String)
    {constraints : List (Constraint α)}
    (analysed :
      ∀ constraint ∈ constraints, FailsOnly allowed constraint.rule.linearForm?) :
    FailsOnly allowed (thresholdsOf tolerance name constraints) := by
  induction constraints with
  | nil =>
      exact failsOnly_ok []
  | cons constraint rest inductionHypothesis =>
      rw [List.forall_mem_cons] at analysed
      refine (Constraint.failsOnly_singleTerm? analysed.1).bind fun term? _ => ?_
      refine (inductionHypothesis analysed.2).bind fun others _ => ?_
      cases term? with
      | none => exact failsOnly_ok _
      | some term =>
          dsimp only
          split <;> exact failsOnly_ok _

theorem failsOnly_thresholdVectors
    {candidates : Candidates α}
    (switches : ∀ name, FailsOnly allowed (candidates.thresholds name)) :
    FailsOnly allowed candidates.thresholdVectors := by
  refine (failsOnly_mapM fun entry _ => ?_).bind fun _ _ => failsOnly_ok _
  exact (switches entry.1.1).bind fun _ _ => failsOnly_ok _

end Candidates

section Grids

variable {candidates : Candidates α}
  (switches : ∀ name, FailsOnly allowed (candidates.thresholds name))

include switches

theorem Grid.failsOnly_domain
    (steps : Nat)
    (decision : Variable α)
    (interval : α × α) :
    FailsOnly allowed (domain candidates steps decision interval) := by
  unfold domain
  dsimp only
  split
  · exact failsOnly_ok _
  · split
    · exact (switches _).bind fun _ _ => failsOnly_ok _
    · split
      · exact (switches _).bind fun _ _ => failsOnly_ok _
      · exact failsOnly_ok _

variable [RandomSource γ α] (parameters : BacktrackingParameters α)

theorem Grid.failsOnly_orderedDomain
    (position : Nat)
    (source : γ) :
    FailsOnly allowed (orderedDomain candidates parameters position source) := by
  unfold orderedDomain
  split
  · exact (failsOnly_domain switches _ _ _).bind fun _ _ => failsOnly_ok _
  · exact failsOnly_ok _

namespace Backtracking

theorem failsOnly_orderedDomains
    (positions : List Nat)
    (source : γ) :
    FailsOnly allowed (orderedDomains candidates parameters positions source) := by
  induction positions generalizing source with
  | nil =>
      exact failsOnly_ok []
  | cons position rest inductionHypothesis =>
      exact (Grid.failsOnly_orderedDomain switches parameters _ _).bind fun _ _ =>
        (inductionHypothesis _).bind fun _ _ => failsOnly_ok _

/-- The levels of a search fail as the thresholds do, or where a constraint reads a name that has
no place among the variables. -/
theorem failsOnly_levels
    (source : γ)
    (places :
      ∀ constraint ∈ candidates.problem.constraints,
        FailsOnly (fun breakdown => allowed (.broken breakdown))
          (depthOf candidates.names (visitingOrder candidates) constraint)) :
    FailsOnly allowed (levels candidates parameters source) := by
  have placesAll :
      FailsOnly (fun breakdown => allowed (.broken breakdown))
        (candidates.problem.constraints.mapM fun constraint => do
          return (constraint,
            ← depthOf candidates.names (visitingOrder candidates) constraint)) :=
    failsOnly_mapM fun constraint member => (places constraint member).bind fun _ _ =>
      failsOnly_ok _
  exact (failsOnly_orderedDomains switches parameters _ _).bind fun _ _ =>
    placesAll.mapError.bind fun _ _ => failsOnly_ok _

end Backtracking

end Grids

namespace Evolution

variable {candidates : Candidates α} {allowedThen : SolveFailure α → Prop}
  (encodes :
    FailsOnly (fun breakdown => allowedThen (.broken breakdown)) candidates.initial?)
  (switches :
    FailsOnly (fun failure => allowedThen failure.toSolveFailure) candidates.thresholdVectors)

include encodes switches

theorem failsOnly_seeds :
    FailsOnly allowedThen (seeds candidates) :=
  encodes.mapError.bind fun _ _ => switches.settled.bind fun _ _ => failsOnly_ok _

/-- A first population fails as its seeds do, or where nothing can be sampled. -/
theorem failsOnly_initialPopulation
    [RandomSource γ α]
    (samples :
      FailsOnly (fun breakdown => allowedThen (.broken breakdown))
        (samplingIntervals candidates))
    (size : Nat)
    (source : γ) :
    FailsOnly allowedThen (initialPopulation candidates size source) :=
  (failsOnly_seeds encodes switches).bind fun _ _ =>
    samples.mapError.bind fun _ _ => failsOnly_ok _

end Evolution

namespace LinearProgram

variable {columns : Table (Column α)} {allowedThen : SolveFailure α → Prop}

theorem failsOnly_objectiveOf
    (unbounded : allowedThen (.broken .unboundedCoefficient))
    {objectives : List (Objective α)}
    (forms :
      ∀ objective ∈ objectives,
        FailsOnly allowedThen (formOf columns "objective" objective.name objective.rule))
    (total : LinearForm α) :
    FailsOnly allowedThen (objectiveOf columns total objectives) := by
  induction objectives generalizing total with
  | nil =>
      exact failsOnly_ok total
  | cons objective rest inductionHypothesis =>
      rw [List.forall_mem_cons] at forms
      refine forms.1.bind fun form _ => ?_
      dsimp only
      split
      · exact failsOnly_error unbounded
      · exact inductionHypothesis forms.2 _

theorem failsOnly_rowsOf
    {constraints : List (Constraint α)}
    (forms :
      ∀ constraint ∈ constraints,
        FailsOnly allowedThen (formOf columns "constraint" constraint.name constraint.rule))
    (tolerance : α) :
    FailsOnly allowedThen (rowsOf columns tolerance constraints) := by
  induction constraints with
  | nil =>
      exact failsOnly_ok []
  | cons constraint rest inductionHypothesis =>
      rw [List.forall_mem_cons] at forms
      exact forms.1.bind fun _ _ => (inductionHypothesis forms.2).bind fun _ _ => failsOnly_ok _

/-- A linear program fails as the forms of its rules do, on variables that take no numbers, or on a
weight that is not finite. -/
theorem failsOnly_ofProblem
    {problem : Problem α}
    (invalid : ∀ names, allowedThen (.invalid [categoricalMessage names]))
    (unbounded : allowedThen (.broken .unboundedCoefficient))
    (objectives :
      ∀ objective ∈ problem.objectives,
        FailsOnly allowedThen
          (formOf (columnsOf problem.decisions) "objective" objective.name objective.rule))
    (constraints :
      ∀ constraint ∈ problem.constraints,
        FailsOnly allowedThen
          (formOf (columnsOf problem.decisions) "constraint" constraint.name constraint.rule))
    (tolerance : α) :
    FailsOnly allowedThen (ofProblem problem tolerance) := by
  unfold ofProblem
  dsimp only
  split
  · exact failsOnly_error (invalid _)
  · exact (failsOnly_objectiveOf unbounded objectives _).bind fun _ _ =>
      (failsOnly_rowsOf constraints tolerance).bind fun _ _ => failsOnly_ok _

end LinearProgram

end Optima
