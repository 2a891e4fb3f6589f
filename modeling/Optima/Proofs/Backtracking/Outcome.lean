import Optima.Proofs.Backtracking.Pruning
import Optima.Proofs.Problem.WellPosed

namespace Optima

/-!
# What a search through the tree gives back

A search that is set up has levels, goes through their tree and ends.  If it has kept a
vector that is admissible, the vector stands for values that can be told, it violates
nothing, and there are prices around it.
-/

namespace Backtracking

variable {α : Type} [Scalar α] {γ : Type} [SeededSource γ α]

/-- Everything that a search needs before it begins is there, and no bounds contradict each
other. -/
structure IsSetUp (problem : Problem α) (parameters : BacktrackingParameters α)
    (candidates : Candidates α) (source : γ) (grids : List (List α)) : Prop where
  prepared :
    Candidates.ofProblem problem parameters.defaultBounds parameters.tolerance = .ok candidates
  isConsistent : candidates.reduction.isConsistent = true
  seeded : SeededSource.ofSeed α parameters.seed = .ok source
  haveGrids : Grid.grids candidates parameters.gridSteps = .ok grids

/-- The search through levels. -/
def descentOf (candidates : Candidates α) (parameters : BacktrackingParameters α)
    (levels : List (Level α)) (watch : Watch α) :
    Except Breakdown (Option Halt × Progress α) :=
  descend candidates ⟨parameters.maxIterations, parameters.timeLimit⟩ parameters.exhaustive levels
    [] ⟨0, none, [], watch⟩

/-- A search stops at a limit, or because it is cancelled. -/
def BreaksOff (ending : Except Breakdown (Option Halt × Progress α)) : Prop :=
  ∃ interruption progress, ending = .ok (some (.interrupted interruption), progress)

variable {problem : Problem α} {parameters : BacktrackingParameters α} {candidates : Candidates α}
  {source : γ} {grids : List (List α)}

namespace IsSetUp

theorem problem_eq
    (isSetUp : IsSetUp problem parameters candidates source grids) :
    candidates.problem = problem := by
  obtain ⟨reduction, -, prepared⟩ := bind_eq_ok isSetUp.prepared
  cases prepared
  rfl

theorem reduction_eq
    (isSetUp : IsSetUp problem parameters candidates source grids) :
    Propagation.reduce problem parameters.defaultBounds parameters.tolerance =
      .ok candidates.reduction := by
  obtain ⟨reduction, isReduction, prepared⟩ := bind_eq_ok isSetUp.prepared
  cases prepared
  exact isReduction

theorem length_grids
    (isSetUp : IsSetUp problem parameters candidates source grids) :
    grids.length = candidates.size := by
  have sameLength := (mapM_eq_ok_iff.mp isSetUp.haveGrids).length_eq
  simpa [Candidates.bounds, Candidates.length_names, Candidates.size] using sameLength.symm

/-- The grids belong to the variables and their intervals, one by one. -/
theorem domain_eq
    (isSetUp : IsSetUp problem parameters candidates source grids)
    {position : Nat}
    {decision : Variable α}
    {grid : List α}
    (isDecision : problem.decisions[position]? = some decision)
    (isGrid : grids[position]? = some grid) :
    Grid.domain candidates parameters.gridSteps decision
        ((candidates.reduction.boundsOf? decision.name).getD (0, 0)) =
      .ok grid := by
  have related := (forall₂_iff_getElem?.mp (mapM_eq_ok_iff.mp isSetUp.haveGrids)).2
  rw [← isSetUp.problem_eq] at isDecision
  refine related position (decision, _) grid ?_ isGrid
  rw [List.getElem?_zip_eq_some]
  exact ⟨isDecision, by
    simp [Candidates.bounds, Candidates.names, Problem.variableNames, isDecision]⟩

variable [BoundedScalar α] {vector : List α}

/-- The values of a grid stand for values of the variables. -/
theorem exists_decode_eq_ok
    (isSetUp : IsSetUp problem parameters candidates source grids)
    (wellPosed : problem.WellPosed)
    (inProduct : Grid.InProduct grids vector) :
    ∃ values, candidates.decode vector = .ok values := by
  have keepsFinite :=
    (Propagation.of_reduce_eq_ok wellPosed.distinct wellPosed.faultless isSetUp.reduction_eq).2
  obtain ⟨sameLength, inGrids⟩ := forall₂_iff_getElem?.mp inProduct
  have each :
      ∀ entry ∈ problem.decisions.zip vector, ∃ datum : String × Datum α,
        (do return (entry.1.name, ← entry.1.decode entry.2)) =
          (.ok datum : Except Breakdown _) := by
    rintro ⟨decision, value⟩ member
    obtain ⟨position, isEntry⟩ := List.mem_iff_getElem?.mp member
    obtain ⟨isDecision, isValue⟩ := List.getElem?_zip_eq_some.mp isEntry
    dsimp only at isDecision isValue
    have inRange : position < grids.length :=
      sameLength ▸ (List.getElem?_eq_some_iff.mp isValue).1
    have isGrid := List.getElem?_eq_getElem inRange
    have isFinite (isDiscrete : decision.isDiscrete = true) :
        Scalar.isFinite value = true := by
      refine Grid.isFinite_of_mem_domain isDiscrete ?_
        (isSetUp.domain_eq isDecision isGrid) (inGrids position value _ isValue isGrid)
      cases isInterval : candidates.reduction.boundsOf? decision.name with
      | none => exact ⟨BoundedScalar.isFinite_zero, BoundedScalar.isFinite_zero⟩
      | some interval =>
          exact keepsFinite decision (List.mem_of_getElem? isDecision) isDiscrete interval
            isInterval
    obtain ⟨datum, isDatum⟩ := decision.exists_decode_eq_ok isFinite
    exact ⟨(decision.name, datum), by simp [isDatum, bind, Except.bind, pure, Except.pure]⟩
  obtain ⟨entries, areEntries⟩ := exists_mapM_eq_ok each
  refine ⟨Table.ofList entries, ?_⟩
  unfold Candidates.decode
  rw [isSetUp.problem_eq]
  exact congrArg (fun outcome => outcome >>= fun values => pure (Table.ofList values)) areEntries

/-- Every variable can be probed around a vector of the grid. -/
theorem canProbe
    (isSetUp : IsSetUp problem parameters candidates source grids)
    (wellPosed : problem.WellPosed)
    (inProduct : Grid.InProduct grids vector) :
    ∀ decision ∈ problem.decisions,
      Sensitivity.CanProbe (candidates.assignment vector) parameters.defaultBounds decision := by
  have haveIntervals :=
    (Propagation.of_reduce_eq_ok wellPosed.distinct wellPosed.faultless isSetUp.reduction_eq).1
  have sameLength : vector.length = candidates.size := by
    rw [inProduct.length_eq, isSetUp.length_grids]
  intro decision member
  obtain ⟨position, isDecision⟩ := List.mem_iff_getElem?.mp member
  have inRange : position < vector.length := by
    rw [sameLength, Candidates.size, isSetUp.problem_eq]
    exact (List.getElem?_eq_some_iff.mp isDecision).1
  have isName : candidates.names[position]? = some decision.name := by
    simp [Candidates.names, Problem.variableNames, isSetUp.problem_eq, isDecision]
  have distinct : candidates.names.Nodup := by
    rw [Candidates.names, isSetUp.problem_eq]
    exact wellPosed.distinct
  exact ⟨haveIntervals decision member, _,
    candidates.get?_assignment distinct sameLength isName (List.getElem?_eq_getElem inRange)⟩

/-- A search that ends with an admissible vector of the grid has a solution that tells it. -/
theorem exists_solution_eq_ok
    (isSetUp : IsSetUp problem parameters candidates source grids)
    (wellPosed : problem.WellPosed)
    (isTame : problem.IsTame)
    {ending : Ending α}
    (isKept : ending.vector = some vector)
    (inProduct : Grid.InProduct grids vector)
    (admissible : candidates.Admissible vector) :
    ∃ outcome,
      solution candidates parameters ending = .ok outcome ∧
        outcome.status = ending.status ∧
        outcome.violations = [] ∧
        candidates.decode vector = .ok outcome.variableValues := by
  obtain ⟨evaluation, isEvaluation, -⟩ :=
    candidates.exists_evaluate_eq_ok (isSetUp.problem_eq ▸ isTame) vector
  obtain ⟨values, areValues⟩ := isSetUp.exists_decode_eq_ok wellPosed inProduct
  have noneMissed : candidates.violations vector = .ok [] := by
    simp only [Candidates.violations, Constraints.violations_eq_nil admissible.isFeasible]
  have canProbe := isSetUp.canProbe wellPosed inProduct
  have valued := admissible.isValuedOn
  rw [isSetUp.problem_eq] at valued
  obtain ⟨sensitivity, isSensitivity⟩ :
      ∃ sensitivity,
        Sensitivity.around problem
          ⟨parameters.tolerance, parameters.defaultBounds, Sensitivity.usualStep⟩
          (candidates.assignment vector) = .ok sensitivity :=
    Sensitivity.exists_around_eq_ok isTame valued (candidates.isNumeric_assignment vector)
      canProbe
  unfold solution
  simp only [isKept, isEvaluation, areValues, noneMissed, isSetUp.problem_eq, isSensitivity,
    Except.mapError, settled, bind, Except.bind, pure, Except.pure]
  exact ⟨_, rfl, rfl, rfl, rfl⟩

end IsSetUp

/-- A search that is set up has levels that visit the grid, and goes through them. -/
theorem exists_descent
    (wellPosed : problem.WellPosed)
    (isTame : problem.IsTame)
    (someVariable : problem.decisions ≠ [])
    (isSetUp : IsSetUp problem parameters candidates source grids)
    (watch : Watch α) :
    ∃ levels halt? progress,
      Backtracking.levels candidates parameters source = .ok levels ∧
        (∀ vector, vector ∈ visits candidates levels [] ↔ Grid.InProduct grids vector) ∧
        survivors candidates levels [] =
          (visits candidates levels []).filter candidates.satisfies ∧
        descentOf candidates parameters levels watch = .ok (halt?, progress) ∧
        Descended candidates ⟨parameters.maxIterations, parameters.timeLimit⟩
          parameters.exhaustive (survivors candidates levels []) (treeSize levels)
          ⟨0, none, [], watch⟩ halt? progress ∧
        search γ candidates parameters watch =
          .ok (.ofSearch candidates parameters.exhaustive halt? progress) := by
  have sameProblem := isSetUp.problem_eq
  rw [← sameProblem] at wellPosed isTame someVariable
  obtain ⟨levels, areLevels, laid⟩ :=
    exists_levels_laid wellPosed.references someVariable isSetUp.haveGrids source
  have areTame : ∀ level ∈ levels, ∀ constraint ∈ level.checks, constraint.rule.IsTame := by
    intro level inLevels constraint isCheck
    obtain ⟨before, after, isSplit⟩ := List.append_of_mem inLevels
    exact isTame.constraints constraint
      (laid.checks before level after isSplit constraint isCheck).1
  obtain ⟨halt?, progress, descended, isDescended⟩ :=
    exists_descend_descended ⟨parameters.maxIterations, parameters.timeLimit⟩
      parameters.exhaustive isTame wellPosed.someObjective areTame [] ⟨0, none, [], watch⟩
  refine ⟨levels, halt?, progress, areLevels,
    fun vector => laid.mem_visits_iff_inProduct isSetUp.length_grids,
    laid.survivors_eq wellPosed.distinct fun constraint member =>
      (isTame.constraints constraint member).isExtensional, descended, isDescended, ?_⟩
  have someSize : candidates.size ≠ 0 := by
    simpa [Candidates.size] using someVariable
  unfold search
  simp only [isSetUp.isConsistent, Bool.not_true, Bool.false_eq_true, ↓reduceIte, isSetUp.seeded,
    areLevels, someSize, descended, settled, Except.mapError, bind, Except.bind, pure,
    Except.pure]

section Solving

variable {watch : Watch α} {halt? : Option Halt} {progress : Progress α}

/-- A solve answers with the solution that the ending of its search is. -/
theorem solve_eq_of_solution
    (isSetUp : IsSetUp problem parameters candidates source grids)
    {ending : Ending α}
    {outcome : Solution α}
    (searched : search γ candidates parameters watch = .ok ending)
    (told : solution candidates parameters ending = .ok outcome) :
    solve γ problem parameters watch = .ok outcome := by
  unfold solve
  simp only [isSetUp.prepared, searched, settled, told, bind, Except.bind]

/-- A solve tells an admissible vector of the grid that its search has kept. -/
theorem exists_solve_of_kept
    [BoundedScalar α]
    (wellPosed : problem.WellPosed)
    (isTame : problem.IsTame)
    (isSetUp : IsSetUp problem parameters candidates source grids)
    (searched : search γ candidates parameters watch =
      .ok (.ofSearch candidates parameters.exhaustive halt? progress))
    {vector : List α}
    {score : α}
    (isKept : progress.best = some (vector, score))
    (inProduct : Grid.InProduct grids vector)
    (admissible : candidates.Admissible vector) :
    ∃ outcome,
      solve γ problem parameters watch = .ok outcome ∧
        outcome.status = foundStatus parameters.exhaustive halt? ∧
        outcome.violations = [] ∧
        candidates.decode vector = .ok outcome.variableValues := by
  have isVector :
      (Ending.ofSearch candidates parameters.exhaustive halt? progress).vector = some vector := by
    simp [Ending.ofSearch, isKept]
  have isStatus :
      (Ending.ofSearch candidates parameters.exhaustive halt? progress).status =
        foundStatus parameters.exhaustive halt? := by
    simp [Ending.ofSearch, isKept]
  obtain ⟨outcome, told, sameStatus, noViolations, areValues⟩ :=
    isSetUp.exists_solution_eq_ok wellPosed isTame isVector inProduct admissible
  exact ⟨outcome, solve_eq_of_solution isSetUp searched told, sameStatus.trans isStatus,
    noViolations, areValues⟩

/-- A solve whose search has kept nothing tells no values. -/
theorem exists_solve_of_noneKept
    (isSetUp : IsSetUp problem parameters candidates source grids)
    (searched : search γ candidates parameters watch =
      .ok (.ofSearch candidates parameters.exhaustive halt? progress))
    (noneKept : progress.best = none) :
    ∃ outcome,
      solve γ problem parameters watch = .ok outcome ∧
        outcome.status = missedStatus halt? ∧
        outcome.variableValues = {} ∧
        outcome.objectiveValues = {} := by
  have told :
      ∃ outcome,
        solution candidates parameters
            (.ofSearch candidates parameters.exhaustive halt? progress) = .ok outcome ∧
          outcome.status = missedStatus halt? ∧
          outcome.variableValues = {} ∧
          outcome.objectiveValues = {} := by
    simp only [solution, Ending.ofSearch, noneKept, Option.map_none, Option.isSome_none,
      Bool.false_eq_true, ↓reduceIte, pure, Except.pure]
    exact ⟨_, rfl, rfl, rfl, rfl⟩
  obtain ⟨outcome, told, isStatus, noValues⟩ := told
  exact ⟨outcome, solve_eq_of_solution isSetUp searched told, isStatus, noValues⟩

end Solving

end Backtracking

end Optima
