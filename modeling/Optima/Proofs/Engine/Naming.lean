import Optima.Proofs.Engine.Failures
import Optima.Proofs.Problem.WellPosed
import Optima.Proofs.Strategy.Naming

namespace Optima

/-!
# The engine finds its names

A problem without an issue reads names only that it knows: those of its variables, and of its
metrics where it has these.  The strategies for routing and scheduling bind metrics alone, so a
rule of such a problem that reads a variable is accepted and has no value.  Every other problem
without an issue that consists of expressions is solved without a name being missed.
-/

section Knowing

variable {α : Type}

/-- A rule reads a variable only by a name that the strategies for the problem bind.  They bind the
variables themselves, unless the problem is one of routing or scheduling. -/
def AnyProblem.ReadsBoundVariables (problem : AnyProblem α) : Prop :=
  ∀ rule ∈ problem.base.rules, ∀ names, rule.names? = some names →
    ∀ name ∈ names, name ∈ problem.base.variableNames → name ∈ problem.boundNames

/-- What a problem knows beside its variables are names that its strategies bind. -/
theorem AnyProblem.of_mem_knownNames
    {problem : AnyProblem α}
    {name : String}
    (isKnown : name ∈ problem.knownNames) :
    name ∈ problem.base.variableNames ∨ name ∈ problem.boundNames := by
  cases problem with
  | generic problem => exact .inl (List.mem_eraseDups.mp isKnown)
  | routing problem => exact List.mem_append.mp (List.mem_eraseDups.mp isKnown)
  | scheduling problem => exact List.mem_append.mp (List.mem_eraseDups.mp isKnown)

variable [Scalar α] {problem : AnyProblem α} {limits : ValidationLimits}

namespace Validation

/-- The expressions of a problem without an issue read names only that the problem knows. -/
theorem readsOnly_knownNames
    (areExpressions : ∀ rule ∈ problem.base.rules, rule.expression? ≠ none)
    (noIssue : issues limits problem = .ok []) :
    ∀ rule ∈ problem.base.rules, rule.ReadsOnly problem.knownNames := by
  obtain ⟨domains, -, noIssue⟩ := bind_eq_ok noIssue
  have noIssue := Except.ok.inj noIssue
  simp only [List.append_eq_nil_iff, List.flatMap_eq_nil_iff] at noIssue
  obtain ⟨⟨-, knownInObjectives, knownInConstraints⟩, -⟩ := noIssue
  intro rule isRule
  obtain ⟨value, isValue⟩ := Option.ne_none_iff_exists'.mp (areExpressions rule isRule)
  refine ⟨value, isValue, ?_⟩
  cases rule with
  | closure apply => cases isValue
  | expression other =>
      cases isValue
      rcases List.mem_append.mp isRule with inObjectives | inConstraints
      · obtain ⟨objective, member, isOther⟩ := List.mem_map.mp inObjectives
        refine mem_of_unknownReferences_eq_nil (knownInObjectives objective member) ?_
        rw [isOther]
        rfl
      · obtain ⟨constraint, member, isOther⟩ := List.mem_map.mp inConstraints
        refine mem_of_unknownReferences_eq_nil (knownInConstraints constraint member) ?_
        rw [isOther]
        rfl

theorem readsOnly_boundNames
    (areExpressions : ∀ rule ∈ problem.base.rules, rule.expression? ≠ none)
    (readsBound : problem.ReadsBoundVariables)
    (noIssue : issues limits problem = .ok []) :
    problem.base.ReadsOnly problem.boundNames := by
  refine Problem.readsOnly_of_rules fun rule isRule => ?_
  obtain ⟨value, isValue, areKnown⟩ := readsOnly_knownNames areExpressions noIssue rule isRule
  refine ⟨value, isValue, fun name isRead => ?_⟩
  rcases AnyProblem.of_mem_knownNames (areKnown name isRead) with isVariable | isBound
  · cases rule with
    | closure apply => cases isValue
    | expression other =>
        cases isValue
        exact readsBound _ isRule _ rfl name isRead isVariable
  · exact isBound

/-- That a whole variable cannot be rounded has nothing to do with names. -/
theorem findsNames_issues
    (limits : ValidationLimits)
    (problem : AnyProblem α) :
    FindsNames (issues limits problem) := by
  have findsDomains (decisions : List (Variable α)) : FindsNames (emptyDomains decisions) := by
    induction decisions with
    | nil => exact findsNames_ok []
    | cons decision rest inductionHypothesis =>
        unfold emptyDomains
        split
        · exact (decision.findsNames_bounds _).bind fun _ _ =>
            inductionHypothesis.bind fun _ _ => findsNames_ok _
        · exact inductionHypothesis
  exact (findsDomains _).bind fun _ _ => findsNames_ok _

end Validation

omit [Scalar α] in
/-- A strategy that nothing speaks against is that of the sort of the problem. -/
theorem Selection.eq_of_objection?_eq_none
    {selected own : Algorithm}
    (noObjection : objection? problem selected = none)
    (isOwn : ownStrategy? problem = some own) :
    own = selected := by
  unfold objection? at noObjection
  rw [isOwn] at noObjection
  split at noObjection
  · cases noObjection
  · rename_i noOwn
    cases noOwn
  · rename_i other isOther
    cases isOther
    by_contra isDifferent
    rw [if_neg isDifferent] at noObjection
    cases noObjection

end Knowing

namespace NamingFailure

instance : NamingFailure EngineFailure where
  MissesName
    | .rejected error => MissesName error
    | .brokeDown _ breakdown | .uncheckable breakdown => MissesName breakdown
    | .invalid _ | .misconfigured _ _ | .unknownDefault _ => False

end NamingFailure

namespace Engine

variable {configuration : Configuration} {problem : AnyProblem Float} {algorithm : Algorithm}
  {requested? : Option String}

/-- A strategy suits a problem that reads names only that it binds. -/
structure Suits (algorithm : Algorithm) (problem : AnyProblem Float) : Prop where
  isOwn : ∀ own, Selection.ownStrategy? problem = some own → own = algorithm
  readsOnly : problem.base.ReadsOnly problem.boundNames

/-- Where a problem is in its lifecycle does not matter for what suits it. -/
theorem Suits.advance
    (suits : Suits algorithm problem)
    (next : Lifecycle) :
    Suits algorithm (Engine.advance problem next) := by
  obtain ⟨isOwn, objectives, constraints⟩ := suits
  unfold Engine.advance AnyProblem.mark
  cases problem.base.mark next with
  | error failure => exact ⟨isOwn, objectives, constraints⟩
  | ok marked => cases problem <;> exact ⟨isOwn, objectives, constraints⟩

/-- What is chosen for a problem without an issue suits it. -/
theorem suits_of_prepare_eq_ok
    (areExpressions : ∀ rule ∈ problem.base.rules, rule.expression? ≠ none)
    (readsBound : problem.ReadsBoundVariables)
    (prepared : prepare configuration problem requested? = .ok algorithm) :
    Suits algorithm problem := by
  obtain ⟨issues, areIssues, prepared⟩ := bind_eq_ok prepared
  split at prepared
  · rename_i noIssue
    obtain rfl := List.isEmpty_iff.mp noIssue
    obtain ⟨selected, -, prepared⟩ := bind_eq_ok (mapError_eq_ok prepared)
    split at prepared
    · rename_i noObjection
      cases prepared
      exact ⟨fun own => Selection.eq_of_objection?_eq_none noObjection,
        Validation.readsOnly_boundNames areExpressions readsBound (mapError_eq_ok areIssues)⟩
    · cases prepared
  · cases prepared

theorem findsNames_prepare
    (configuration : Configuration)
    (problem : AnyProblem Float)
    (requested? : Option String) :
    FindsNames (prepare configuration problem requested?) := by
  have findsIssues :
      FindsNames
        ((Validation.issues configuration.limits problem).mapError EngineFailure.uncheckable) :=
    (Validation.findsNames_issues _ _).mapError fun _ => id
  refine findsIssues.bind fun issues _ => ?_
  split
  · cases Selection.choose configuration.defaultAlgorithm problem requested? with
    | ok selected => exact findsNames_ok selected
    | error failure => cases failure <;> exact findsNames_error id
  · exact findsNames_error id

/-- The engine tells of a missed name only where the strategy misses one. -/
theorem findsNames_carryOut
    {σ : Type}
    {recipients : Recipients σ}
    {work : AnyProblem Float → Except (StrategyFailure Float) (Solution Float)}
    {stamps : Stamps}
    {state : σ}
    (finds : FindsNames (work problem))
    (findsRunning : FindsNames (work (advance problem .running))) :
    FindsNames (carryOut recipients problem work stamps state).result := by
  have findsTracked : FindsNames (track problem work).1 := by
    unfold track
    split
    · exact findsRunning
    · exact finds
  unfold carryOut
  split
  · rename_i cause tracked entered isTracked
    refine findsNames_error fun misses => findsTracked cause (congrArg Prod.fst isTracked) ?_
    rcases cause with issues | (issues | error | breakdown) <;> exact misses
  · exact findsNames_ok _

/-- A problem that consists of expressions and reads no variable that its strategies do not bind is
solved without a name being missed, whatever is configured and asked for.  A problem that is not
accepted is among them.  Where backtracking is chosen, no check of a partial assignment misses a
name either. -/
theorem solve_finds_names
    {σ : Type}
    (configuration : Configuration)
    (recipients : Recipients σ)
    (problem : AnyProblem Float)
    (areExpressions : ∀ rule ∈ problem.base.rules, rule.expression? ≠ none)
    (readsBound : problem.ReadsBoundVariables)
    (requested? : Option String)
    (watch : Watch Float)
    (stamps : Stamps)
    (state : σ) :
    FindsNames (solve configuration recipients problem requested? watch stamps state).result ∧
      (prepare configuration problem requested? = .ok .backtracking →
        ∀ (parameters : BacktrackingParameters Float) candidates levels (source : MixingGenerator),
          Candidates.ofProblem problem.base parameters.defaultBounds parameters.tolerance =
              .ok candidates →
            Backtracking.levels candidates parameters source = .ok levels →
              Backtracking.ChecksFindNames candidates levels) := by
  constructor
  · unfold solve solveBy
    split
    · rename_i failure notPrepared
      exact findsNames_error (findsNames_prepare configuration problem requested? _ notPrepared)
    · rename_i algorithm prepared
      have suits := suits_of_prepare_eq_ok areExpressions readsBound prepared
      have suitsRunning := suits.advance .running
      exact findsNames_carryOut (Strategy.findsNames_solve suits.isOwn suits.readsOnly)
        (Strategy.findsNames_solve suitsRunning.isOwn suitsRunning.readsOnly)
  · intro prepared parameters candidates levels source areCandidates areLevels
    have suits := suits_of_prepare_eq_ok areExpressions readsBound prepared
    have isProblem := Candidates.problem_eq_of_ofProblem_eq_ok areCandidates
    refine Backtracking.checksFindNames_of_levels_eq_ok ?_ areLevels
    cases problem with
    | generic problem =>
        subst isProblem
        exact suits.readsOnly
    | routing problem => cases suits.isOwn .routing rfl
    | scheduling problem => cases suits.isOwn .scheduling rfl

/-- A pending problem fails at the engine as the strategy that is chosen fails. -/
theorem result_solve_of_pending
    {σ : Type}
    {recipients : Recipients σ}
    {watch : Watch Float}
    {cause : StrategyFailure Float}
    (prepared : prepare configuration problem requested? = .ok algorithm)
    (isPending : problem.base.status = .pending)
    (fails :
      Strategy.solve algorithm (configuration.settingsFor (Labelled.label algorithm))
        (advance problem .running) watch = .error cause)
    (stamps : Stamps)
    (state : σ) :
    (solve configuration recipients problem requested? watch stamps state).result =
      .error (.ofStrategy problem.base.identifier cause) := by
  unfold solve solveBy carryOut track
  rw [prepared]
  dsimp only
  rw [if_pos isPending, fails]

section Errands

/-- An errand with a variable of its own, on which something is to be small. -/
def errandProblem (measured : String) : RoutingProblem Float where
  identifier := "errand"
  name := ""
  kind := .routeOptimization
  description := ""
  objectives := [.minimizing "f" measured 1 0 ""]
  constraints := []
  decisions := [⟨"v", "x", .continuous, some 0, some 1, none, none, ""⟩]
  parameters := none
  status := .pending
  depot := ⟨"depot", "", none, [], 0⟩
  locations := [⟨"shop", "", none, [], 0⟩]
  vehicles := [⟨"van", 1, none, none, none, ⟨0, 1, 0, 0⟩, [], []⟩]
  demands := [⟨"parcel", "shop", 1, 1, [], []⟩]
  distanceMatrix := some [[0, 1], [1, 0]]
  timeMatrix := none

/-- An errand on which a metric is to be small is accepted, and solved without a name being
missed. -/
theorem errandProblem_finds_names :
    prepare strayConfiguration (.routing (errandProblem "total_cost")) none = .ok .routing ∧
      (∀ rule ∈ (errandProblem "total_cost").toProblem.rules, rule.expression? ≠ none) ∧
      AnyProblem.ReadsBoundVariables (.routing (errandProblem "total_cost")) ∧
      FindsNames
        (solve strayConfiguration (⟨none, none⟩ : Recipients Unit)
          (.routing (errandProblem "total_cost")) none (.start (fun _ => 0) fun _ => false)
          ⟨⟨fun _ => "", 0⟩, fun _ => ⟨2000, 1, 1, 0, 0, 0, 0, none⟩, 0⟩ ()).result := by
  have areExpressions :
      ∀ rule ∈ (errandProblem "total_cost").toProblem.rules, rule.expression? ≠ none := by
    simp [Problem.rules, errandProblem, Objective.minimizing, Rule.expression?]
  have readsBound :
      AnyProblem.ReadsBoundVariables (.routing (errandProblem "total_cost")) := by
    simp [AnyProblem.ReadsBoundVariables, AnyProblem.base, Problem.rules, errandProblem,
      Objective.minimizing, Rule.names?, Expr.names, Problem.variableNames]
  exact ⟨by cbv, areExpressions, readsBound,
    (solve_finds_names strayConfiguration ⟨none, none⟩ (.routing (errandProblem "total_cost"))
      areExpressions readsBound none _ _ ()).1⟩

/-- An errand on which its variable is to be small is accepted as well, and fails because the
variable has no value. -/
theorem errandProblem_misses_variable :
    prepare strayConfiguration (.routing (errandProblem "x")) none = .ok .routing ∧
      (solve strayConfiguration (⟨none, none⟩ : Recipients Unit) (.routing (errandProblem "x")) none
          (.start (fun _ => 0) fun _ => false)
          ⟨⟨fun _ => "", 0⟩, fun _ => ⟨2000, 1, 1, 0, 0, 0, 0, none⟩, 0⟩ ()).result =
        .error (.rejected (.unbound "x")) := by
  have isPrepared :
      prepare strayConfiguration (.routing (errandProblem "x")) none = .ok .routing := by cbv
  have isRunning :
      advance (.routing (errandProblem "x")) .running =
        .routing { errandProblem "x" with status := .running } :=
    rfl
  obtain ⟨parameters, resolved⟩ :
      ∃ parameters,
        (strayConfiguration.settingsFor (Labelled.label Algorithm.routing)).resolve .routing none =
          .ok parameters :=
    exists_eq_ok_of_toBool (by decide +kernel)
  cases parameters with
  | routing given =>
      have misses :
          Strategy.solve .routing (strayConfiguration.settingsFor (Labelled.label Algorithm.routing))
              (advance (.routing (errandProblem "x")) .running)
              (.start (fun _ => 0) fun _ => false) =
            .error (.failed (.rejected (.unbound "x"))) := by
        rw [isRunning, Strategy.solve_eq_run (by decide) resolved, Strategy.run,
          Routing.solve_eq_unbound rfl rfl (by decide) rfl]
        rfl
      exact ⟨isPrepared, result_solve_of_pending isPrepared rfl misses _ _⟩
  | _ => cases Settings.algorithm_of_resolve_eq_ok resolved

end Errands

end Engine

end Optima
