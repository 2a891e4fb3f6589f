import Optima.Proofs.Backtracking.Verdict
import Optima.Proofs.Search.Naming

namespace Optima

/-!
# Backtracking finds its names

A check that misses a name on the way cuts off what is below, as one that fails does.  What is
kept of a search is a vector of all components, so what is told of it misses no name.
-/

namespace Backtracking

variable {α γ : Type} [Scalar α] {candidates : Candidates α}
  {parameters : BacktrackingParameters α} {budget : Budget α} {exhaustive : Bool}
  {levels : List (Level α)} {chosen : List (Level α × α)} {progress after : Progress α}
  {halt? : Option Halt} {vector : List α}

section Levels

omit [Scalar α] in
/-- A name that has no place among the variables is no name without a value. -/
theorem findsNames_depthOf
    (names : List String)
    (order : List Nat)
    (constraint : Constraint α) :
    FindsNames (depthOf names order constraint) := by
  unfold depthOf
  split
  · exact findsNames_ok _
  · refine (findsNames_mapM fun name _ => ?_).bind fun _ _ => findsNames_ok _
    split
    · exact findsNames_ok _
    · exact findsNames_error id

theorem findsNames_levels
    [RandomSource γ α]
    (candidates : Candidates α)
    (parameters : BacktrackingParameters α)
    (source : γ) :
    FindsNames (Backtracking.levels candidates parameters source) :=
  failsOnly_levels candidates.findsNames_thresholds parameters source fun _ _ =>
    findsNames_depthOf _ _ _

end Levels

section Descent

/-- The leaves of the tree are vectors of all components. -/
theorem length_of_mem_survivors
    {vector : List α}
    (member : vector ∈ survivors candidates levels chosen) :
    vector.length = candidates.size := by
  induction levels generalizing chosen with
  | nil =>
      rw [List.mem_singleton.mp member]
      exact length_vectorOf _ _
  | cons level deeper inductionHypothesis =>
      obtain ⟨value, -, isBelow⟩ := List.mem_flatMap.mp member
      split at isBelow
      · exact inductionHypothesis isBelow
      · cases isBelow

/-- The constraints that are checked on the way are those of the problem. -/
theorem mem_constraints_of_levels_eq_ok
    [RandomSource γ α]
    {source : γ}
    (areLevels : Backtracking.levels candidates parameters source = .ok levels) :
    ∀ level ∈ levels, ∀ constraint ∈ level.checks,
      constraint ∈ candidates.problem.constraints := by
  obtain ⟨domains, -, areLevels⟩ := bind_eq_ok areLevels
  obtain ⟨depths, areDepths, areLevels⟩ := bind_eq_ok areLevels
  cases areLevels
  intro level inLevels constraint isCheck
  obtain ⟨⟨⟨position, domain⟩, depth⟩, -, rfl⟩ := List.mem_map.mp inLevels
  obtain ⟨other, isOther, isDepth⟩ :=
    exists_of_mem_results_of_mapM_eq_ok (mapError_eq_ok areDepths) (mem_checksAt_iff.mp isCheck)
  obtain ⟨found, -, isDepth⟩ := bind_eq_ok isDepth
  cases isDepth
  exact isOther

theorem findsNames_tryEach
    {ε σ β : Type}
    [NamingFailure ε]
    {attempt : β → σ → Except ε (Option Halt × σ)}
    (finds : ∀ value state, FindsNames (attempt value state))
    (values : List β)
    (state : σ) :
    FindsNames (tryEach attempt values state) := by
  induction values generalizing state with
  | nil =>
      exact findsNames_ok _
  | cons value rest inductionHypothesis =>
      refine (finds value state).bind fun outcome _ => ?_
      obtain ⟨halt?, after⟩ := outcome
      cases halt? with
      | some halt => exact findsNames_ok (some halt, after)
      | none => exact inductionHypothesis after

variable {names : List String} (readsOnly : candidates.problem.ReadsOnly names)

include readsOnly

theorem findsNames_record
    (vector : List α)
    (progress : Progress α) :
    FindsNames (record candidates vector progress) := by
  refine (Candidates.findsNames_evaluate readsOnly vector).bind fun evaluation _ => ?_
  split
  · exact (candidates.findsNames_traceValue _).bind fun _ _ => findsNames_ok _
  · exact findsNames_ok _

/-- A descent misses no name, for a check that cannot be evaluated fails. -/
theorem findsNames_descend
    (areTame : ∀ level ∈ levels, ∀ constraint ∈ level.checks, constraint.rule.IsTame)
    (chosen : List (Level α × α))
    (progress : Progress α) :
    FindsNames (descend candidates budget exhaustive levels chosen progress) := by
  induction levels generalizing chosen progress with
  | nil =>
      exact (findsNames_record readsOnly _ _).bind fun _ _ => findsNames_ok _
  | cons level deeper inductionHypothesis =>
      rw [List.forall_mem_cons] at areTame
      refine findsNames_tryEach (fun value before => ?_) _ _
      cases budget.interruption before.nodes before.watch with
      | mk interruption? looked =>
          cases interruption? with
          | some interruption => exact findsNames_ok _
          | none =>
              dsimp only
              rw [consistent_eq_ok (isNumeric_assignmentOf _) areTame.1]
              refine (findsNames_ok _).bind fun verdict _ => ?_
              split
              · exact inductionHypothesis areTame.2 _ _
              · exact findsNames_ok _

end Descent

section Checking

/-- Whatever values the levels have down to one of them, its checks find the names that they read. -/
def ChecksFindNames (candidates : Candidates α) (levels : List (Level α)) : Prop :=
  ∀ before level after, levels = before ++ level :: after →
    ∀ chosen : List (Level α × α), chosen.map (·.1) = before ++ [level] →
      FindsNames
        (Constraints.feasible candidates.tolerance (assignmentOf chosen) level.checks)

omit [Scalar α] in
theorem covers_assignmentOf
    (chosen : List (Level α × α)) :
    (assignmentOf chosen).Covers (chosen.map (·.1.name)) := by
  have covers :
      Assignment.Covers
        (Table.ofList ((chosen.map fun entry => (entry.1.name, entry.2)).map fun entry =>
          (entry.1, Value.number entry.2)))
        (chosen.map (·.1.name)) :=
    Assignment.covers_ofList fun name member => by simpa using member
  rwa [List.map_map] at covers

/-- A constraint is checked once all names that it reads have values. -/
theorem checksFindNames_of_levels_eq_ok
    [RandomSource γ α]
    {source : γ}
    (readsOnly : candidates.problem.ReadsOnly candidates.names)
    (areLevels : Backtracking.levels candidates parameters source = .ok levels) :
    ChecksFindNames candidates levels := by
  intro before level after isSplit chosen areChosen
  have someVariable : candidates.problem.decisions ≠ [] := by
    intro noVariable
    have noOrder : visitingOrder candidates = [] := by
      have isPerm := visitingOrder_perm candidates
      rw [Candidates.size, noVariable] at isPerm
      exact isPerm.eq_nil
    obtain ⟨domains, -, areLevels⟩ := bind_eq_ok areLevels
    obtain ⟨depths, -, areLevels⟩ := bind_eq_ok areLevels
    cases areLevels
    simp [noOrder] at isSplit
  obtain ⟨grids, -, laid⟩ := exists_grids_laid areLevels someVariable
  refine Constraints.findsNames_feasible (fun constraint isCheck => ?_)
    (covers_assignmentOf chosen)
  obtain ⟨isConstraint, areRead⟩ := laid.checks before level after isSplit constraint isCheck
  obtain ⟨value, isRule, areNames⟩ :=
    (readsOnly.constraints constraint isConstraint).exists_expression
  refine ⟨value, by rw [isRule]; rfl, fun name member => ?_⟩
  have isThere := areRead name (areNames name member) fun referenced areReferenced => by
    rw [isRule] at areReferenced
    cases areReferenced
    exact member
  rw [← areChosen, List.map_map] at isThere
  exact isThere

end Checking

section Solving

variable [SeededSource γ α] {problem : Problem α} {watch : Watch α} {ending : Ending α}

/-- What a search ends with is a vector of all components. -/
theorem length_of_search_eq_ok
    (searched : search γ candidates parameters watch = .ok ending)
    (isVector : ending.vector = some vector) :
    vector.length = candidates.size := by
  unfold search at searched
  split at searched
  · cases searched
    cases isVector
  · obtain ⟨source, -, searched⟩ := bind_eq_ok searched
    obtain ⟨levels, -, searched⟩ := bind_eq_ok searched
    split at searched
    · rename_i noVariable
      obtain ⟨evaluation, -, searched⟩ := bind_eq_ok (mapError_eq_ok searched)
      split at searched
      · cases searched
        cases isVector
        exact noVariable.symm
      · cases searched
        cases isVector
    · obtain ⟨⟨halt?, progress⟩, descended, searched⟩ := bind_eq_ok searched
      cases searched
      obtain ⟨⟨kept, score⟩, isBest, rfl⟩ := Option.map_eq_some_iff.mp isVector
      rcases keepsOneOf_survivors (mapError_eq_ok descended) kept score isBest with
        wasKept | isLeaf
      · cases wasKept
      · exact length_of_mem_survivors isLeaf

/-- What is told of the end of a search misses no name. -/
theorem findsNames_solution
    (readsOnly : candidates.problem.ReadsOnly candidates.names)
    (areSizes : ∀ vector, ending.vector = some vector → vector.length = candidates.size) :
    FindsNames (solution candidates parameters ending) := by
  unfold solution
  dsimp only
  split
  · exact findsNames_ok _
  · rename_i vector isVector
    have isSize := areSizes vector isVector
    have covers := candidates.covers_assignment isSize
    refine (Candidates.findsNames_evaluate readsOnly vector).breakDown.bind fun _ _ => ?_
    refine (candidates.findsNames_decode vector).breakDown.bind fun _ _ => ?_
    refine (Candidates.findsNames_violations readsOnly covers).breakDown.bind fun _ _ => ?_
    exact (Sensitivity.findsNames_around_assignment readsOnly isSize _).settled.bind fun _ _ =>
      findsNames_ok _

variable (findsSeed : ∀ seed, FindsNames (SeededSource.ofSeed α seed : Except Breakdown γ))

include findsSeed

theorem findsNames_search
    {names : List String}
    (readsOnly : candidates.problem.ReadsOnly names) :
    FindsNames (search γ candidates parameters watch) := by
  have isTame := readsOnly.isTame
  unfold search
  split
  · exact findsNames_ok _
  · refine (findsSeed _).breakDown.bind fun source _ => ?_
    refine (findsNames_levels candidates parameters source).settled.bind fun levels areLevels => ?_
    have areChecks := mem_constraints_of_levels_eq_ok (settled_eq_ok areLevels)
    split
    · refine FindsNames.breakDown ?_
      refine (Candidates.findsNames_evaluate readsOnly []).bind fun evaluation _ => ?_
      split <;> exact findsNames_ok _
    · refine (findsNames_descend readsOnly ?_ _ _).breakDown.bind fun _ _ => findsNames_ok _
      exact fun level inLevels constraint isCheck =>
        isTame.constraints constraint (areChecks level inLevels constraint isCheck)

/-- Backtracking finds its names where the rules of a problem read those of its variables. -/
theorem findsNames_solve
    (readsOnly : problem.ReadsOnly problem.variableNames) :
    FindsNames (solve γ problem parameters watch) := by
  refine (Candidates.findsNames_ofProblem _ _ _).settled.bind fun candidates prepared => ?_
  obtain rfl := Candidates.problem_eq_of_ofProblem_eq_ok (settled_eq_ok prepared)
  refine (findsNames_search findsSeed readsOnly).bind fun ending searched => ?_
  exact findsNames_solution readsOnly fun _ => length_of_search_eq_ok searched

end Solving

end Backtracking

end Optima
