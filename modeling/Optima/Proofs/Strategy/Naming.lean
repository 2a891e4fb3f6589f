import Optima.Linear.Solve
import Optima.Proofs.Backtracking.Naming
import Optima.Proofs.Evolution.Naming
import Optima.Proofs.Linear.Meaning
import Optima.Proofs.Scheduling.Naming
import Optima.Proofs.Search.Naming
import Optima.Routing.Solve
import Optima.Strategy.Solve

namespace Optima

/-!
# Strategies and the names that they bind

Each strategy finds the names that it binds: those of variables, or those of metrics.
-/

/-!
## Linear programming finds its names

A program has a column for each variable, so the forms of rules that read variables only have no
stray coefficient.  Branching changes the bounds of columns and leaves their names, and a point
has a number for each of them.
-/

theorem Makeup.map_fst_values
    (makeups : List (String × Makeup))
    (parts : List Rat) :
    (values makeups parts).map (·.1) = makeups.map (·.1) := by
  induction makeups generalizing parts with
  | nil => rfl
  | cons entry rest inductionHypothesis =>
      exact congrArg (entry.1 :: ·) (inductionHypothesis _)

namespace LinearProgram

section Points

variable {program : LinearProgram Rat} {point : LinearPoint} {names : List String}

/-- The point of a relaxation has a number for each column. -/
theorem names_of_relaxed_eq_optimal
    (isOptimal : program.relaxed = .optimal point) :
    point.values.names = program.columns.names := by
  unfold relaxed at isOptimal
  split at isOptimal
  · cases isOptimal
  · cases isOptimal
  · cases isOptimal
    refine (Makeup.map_fst_values _ _).trans ?_
    rw [makeups, List.map_map]
    rfl

@[simp] theorem names_below
    (program : LinearProgram Rat)
    (name : String)
    (limit : Rat) :
    (program.below name limit).columns.names = program.columns.names := by
  unfold below
  split
  · rfl
  · rename_i column isThere
    exact Table.names_insert_of_get?_eq_some isThere _

@[simp] theorem names_above
    (program : LinearProgram Rat)
    (name : String)
    (limit : Rat) :
    (program.above name limit).columns.names = program.columns.names := by
  unfold above
  split
  · rfl
  · rename_i column isThere
    exact Table.names_insert_of_get?_eq_some isThere _

/-- Where all parts have certain columns, the best point has a number for each of them. -/
theorem names_of_explore_eq_some
    {limit : Nat}
    {parts : List (LinearProgram Rat)}
    {best? : Option LinearPoint}
    (areNames : ∀ part ∈ parts, part.columns.names = names)
    (areBest : ∀ best, best? = some best → best.values.names = names)
    (explored : explore limit parts best? = some (some point)) :
    point.values.names = names := by
  fun_induction explore with
  | case1 => exact areBest point (Option.some.inj explored)
  | case2 => cases explored
  | case3 best? limit part others isInfeasible inductionHypothesis =>
      exact inductionHypothesis (List.forall_mem_cons.mp areNames).2 areBest explored
  | case4 best? limit part others isUnbounded inductionHypothesis =>
      exact inductionHypothesis (List.forall_mem_cons.mp areNames).2 areBest explored
  | case5 best? limit part others found isOptimal isWorse inductionHypothesis =>
      exact inductionHypothesis (List.forall_mem_cons.mp areNames).2 areBest explored
  | case6 best? limit part others found isOptimal isBetter isWhole inductionHypothesis =>
      rw [List.forall_mem_cons] at areNames
      refine inductionHypothesis areNames.2 (fun best isBest => ?_) explored
      cases isBest
      exact (names_of_relaxed_eq_optimal isOptimal).trans areNames.1
  | case7 best? limit part others found isOptimal isBetter name value isFraction
      inductionHypothesis =>
      rw [List.forall_mem_cons] at areNames
      refine inductionHypothesis ?_ areBest explored
      simp only [List.forall_mem_cons, names_below, names_above]
      exact ⟨areNames.1, areNames.1, areNames.2⟩

/-- The point of a program has a number for each column. -/
theorem names_of_solve_eq_optimal
    (isOptimal : program.solve = .optimal point) :
    point.values.names = program.columns.names := by
  unfold solve at isOptimal
  split at isOptimal
  · cases isOptimal
  · cases isOptimal
  · rename_i relaxed isRelaxed
    split at isOptimal
    · cases isOptimal
      exact names_of_relaxed_eq_optimal isRelaxed
    · split at isOptimal
      · cases isOptimal
      · cases isOptimal
      · rename_i best explored
        cases isOptimal
        exact names_of_explore_eq_some (List.forall_mem_singleton.mpr rfl) (by simp) explored

end Points

variable {α : Type} [Scalar α] {columns : Table (Column α)} {names : List String}

theorem mem_names_columnsOf
    {decisions : List (Variable α)}
    {name : String}
    (member : name ∈ decisions.map (·.name)) :
    name ∈ (columnsOf decisions).names := by
  rw [← Table.contains_iff_mem_names]
  refine Table.contains_ofList_of_mem ?_
  rw [List.map_map]
  exact member

/-- A rule that reads columns only has a form without stray names. -/
theorem findsNames_formOf
    (areColumns : ∀ name ∈ names, name ∈ columns.names)
    {rule : Rule α}
    (readsOnly : rule.ReadsOnly names)
    (noun name : String) :
    FindsNames (formOf columns noun name rule) := by
  refine rule.findsNames_linearForm?.settled.bind fun form? isForm => ?_
  cases form? with
  | none => exact findsNames_error id
  | some form =>
      have noStray :
          form.coefficients.names.find? (fun name => !columns.contains name) = none := by
        rw [List.find?_eq_none]
        intro name member
        have isName :=
          Rule.mem_names_of_linearForm?_eq_ok readsOnly (settled_eq_ok isForm) name member
        simpa [Table.contains_iff_mem_names] using areColumns name isName
      dsimp only
      rw [noStray]
      dsimp only
      split
      · exact findsNames_error id
      · split
        · exact findsNames_error id
        · exact findsNames_ok form

theorem findsNames_ofProblem
    {problem : Problem α}
    (readsOnly : problem.ReadsOnly problem.variableNames)
    (tolerance : α) :
    FindsNames (ofProblem problem tolerance) := by
  have areColumns (name : String) (member : name ∈ problem.variableNames) :
      name ∈ (columnsOf problem.decisions).names :=
    mem_names_columnsOf member
  refine failsOnly_ofProblem (fun _ => id) id ?_ ?_ tolerance
  · exact fun objective member =>
      findsNames_formOf areColumns (readsOnly.objectives objective member) _ _
  · exact fun constraint member =>
      findsNames_formOf areColumns (readsOnly.constraints constraint member) _ _

end LinearProgram

namespace LinearProgramming

variable {α : Type} [Scalar α] {problem : Problem α} {names : List String}

theorem findsNames_ofConstraints
    {pricing : Pricing α}
    {assignment : Assignment α}
    {constraints : List (Constraint α)}
    (readOnly : ∀ constraint ∈ constraints, constraint.rule.ReadsOnly names)
    (covers : assignment.Covers names) :
    FindsNames (pricing.ofConstraints assignment constraints) := by
  induction constraints with
  | nil => exact findsNames_ok []
  | cons constraint rest inductionHypothesis =>
      rw [List.forall_mem_cons] at readOnly
      have findsAccount : FindsNames (pricing.ofConstraint assignment constraint) := by
        refine (Rule.findsNames_evaluate readOnly.1 covers).bind fun value _ => ?_
        dsimp only
        split <;> exact findsNames_ok _
      exact findsAccount.bind fun _ _ =>
        (inductionHypothesis readOnly.2).bind fun _ _ => findsNames_ok _

theorem findsNames_decodedInto
    (values : Table α)
    (decoded : Table (Datum α))
    (decisions : List (Variable α)) :
    FindsNames (decodedInto values decoded decisions) := by
  induction decisions generalizing decoded with
  | nil => exact findsNames_ok decoded
  | cons decision rest inductionHypothesis =>
      exact (decision.findsNames_decode _).bind fun _ _ => inductionHypothesis _

/-- What is told of a point misses no name that the point has a number for. -/
theorem findsNames_solutionAt
    {program : LinearProgram α}
    {point : LinearPoint}
    {tolerance elapsed : α}
    (readsOnly : problem.ReadsOnly names)
    (areValues : ∀ name ∈ names, name ∈ point.values.names) :
    FindsNames (solutionAt problem program point tolerance elapsed) := by
  have covers :
      Assignment.Covers ((point.values.map Scalar.ofRat).map Value.number : Assignment α) names :=
    Assignment.covers_ofNumbers fun name member => by
      simpa [Table.map, Table.names] using areValues name member
  refine (Objectives.findsNames_values readsOnly.objectives covers).settled.bind fun _ _ => ?_
  refine (Constraints.findsNames_violations readsOnly.constraints covers).settled.bind
    fun _ _ => ?_
  refine (findsNames_decodedInto _ _ _).breakDown.bind fun _ _ => ?_
  exact (findsNames_ofConstraints readsOnly.constraints covers).settled.bind fun _ _ =>
    findsNames_ok _

/-- Linear programming finds its names where the rules of a problem read those of its
variables. -/
theorem findsNames_solve
    {parameters : LinearProgrammingParameters α}
    {watch : Watch α}
    (readsOnly : problem.ReadsOnly problem.variableNames) :
    FindsNames (solve problem parameters watch) := by
  unfold solve
  dsimp only
  split
  · exact findsNames_ok _
  · refine (LinearProgram.findsNames_ofProblem readsOnly _).bind fun program built => ?_
    split
    · rename_i point isOptimal
      refine findsNames_solutionAt readsOnly fun name member => ?_
      have isColumn : name ∈ (LinearProgram.columnsOf problem.decisions).names :=
        LinearProgram.mem_names_columnsOf member
      rw [LinearProgram.names_of_solve_eq_optimal isOptimal, LinearProgram.exact]
      rw [← (LinearProgram.of_ofProblem_eq_ok built).1] at isColumn
      simpa [Table.map, Table.names] using isColumn
    · exact findsNames_ok _

end LinearProgramming

/-!
## Routing finds its names

Every plan is measured by the same metrics, whatever it leaves unserved.  Where the rules of a
problem read these and nothing else, neither the search for a plan nor what is told of it misses
a name.
-/

namespace Fleet

variable {α : Type} [Scalar α]

/-- The metrics of a plan have a number for each of their names. -/
theorem covers_metrics
    (fleet : Fleet α)
    (plan : Plan)
    (unserved : List Nat) :
    (Assignment.ofNumbers (fleet.metrics plan unserved)).Covers RoutingProblem.metricNames :=
  Assignment.covers_ofNumbers fun _ member => member

variable {fleet : Fleet α} {unserved : List Nat}
  (readOnly :
    ∀ objective ∈ fleet.objectives, objective.rule.ReadsOnly RoutingProblem.metricNames)

include readOnly

theorem findsNames_key
    (plan : Plan) :
    FindsNames (fleet.key plan unserved) :=
  (Objectives.findsNames_values readOnly (fleet.covers_metrics plan unserved)).bind
    fun _ _ => findsNames_ok _

theorem findsNames_firstBetter?
    (plan : Plan)
    (current : List α)
    (moves : List Move) :
    FindsNames (fleet.firstBetter? plan unserved current moves) := by
  induction moves with
  | nil => exact findsNames_ok none
  | cons move rest inductionHypothesis =>
      unfold firstBetter?
      split
      · refine (findsNames_key readOnly _).bind fun candidate _ => ?_
        split
        · exact findsNames_ok _
        · exact inductionHypothesis
      · exact inductionHypothesis

theorem findsNames_improved?
    (plan : Plan) :
    FindsNames (fleet.improved? plan unserved) :=
  (findsNames_key readOnly plan).bind fun current _ =>
    findsNames_firstBetter? readOnly plan current _

end Fleet

namespace Routing

variable {α : Type} [Scalar α] {fleet : Fleet α} {parameters : RoutingParameters α}
  {watch : Watch α}

section Searching

variable
  (readOnly :
    ∀ objective ∈ fleet.objectives, objective.rule.ReadsOnly RoutingProblem.metricNames)

include readOnly

theorem findsNames_record
    (progress : Progress α) :
    FindsNames (progress.record fleet) :=
  (Objectives.findsNames_costOf readOnly (fleet.covers_metrics _ _)).bind fun _ _ =>
    findsNames_ok _

/-- However often a plan is improved, no name is missed. -/
theorem findsNames_improve
    (budget : Budget α)
    (remaining : Nat)
    (progress : Progress α) :
    FindsNames (improve fleet budget remaining progress) := by
  induction remaining generalizing progress with
  | zero =>
      unfold improve
      split <;> exact findsNames_ok _
  | succ remaining inductionHypothesis =>
      unfold improve
      split
      · exact findsNames_ok _
      · refine (Fleet.findsNames_improved? readOnly _).bind fun plan? _ => ?_
        cases plan? with
        | none => exact findsNames_ok _
        | some plan =>
            exact (findsNames_record readOnly _).bind fun after _ => inductionHypothesis after

theorem findsNames_search :
    FindsNames (search parameters fleet watch) := by
  refine (findsNames_record readOnly _).bind fun started _ => ?_
  split
  · exact findsNames_improve readOnly _ _ _
  · exact findsNames_ok _

end Searching

/-- What is told of the end of a search misses no metric. -/
theorem findsNames_solution
    {problem : Problem α}
    (readsOnly : problem.ReadsOnly RoutingProblem.metricNames)
    (interruption? : Option Interruption)
    (progress : Progress α) :
    FindsNames (solution problem parameters fleet interruption? progress) := by
  have covers := fleet.covers_metrics progress.plan progress.unserved
  refine (Objectives.findsNames_values readsOnly.objectives covers).bind fun _ _ => ?_
  refine (Constraints.findsNames_violations readsOnly.constraints covers).bind fun _ _ => ?_
  exact (Sensitivity.findsNames_ofMetrics readsOnly covers _).bind fun _ _ => findsNames_ok _

/-- Routing finds its names where the rules of a problem read those of its metrics. -/
theorem findsNames_solve
    [Elementary α]
    {problem : RoutingProblem α}
    (readsOnly : problem.toProblem.ReadsOnly RoutingProblem.metricNames) :
    FindsNames (solve problem parameters watch) := by
  unfold solve solveOn
  dsimp only
  split
  · exact findsNames_ok _
  · refine FindsNames.settled ?_
    exact (findsNames_search readsOnly.objectives).bind fun ending _ =>
      findsNames_solution readsOnly ending.1 ending.2

/-- Routing fails where the first objective is a name that no metric has, for the first plan
already has no cost then. -/
theorem solve_eq_unbound
    [Elementary α]
    {problem : RoutingProblem α}
    {objective : Objective α}
    {rest : List (Objective α)}
    {name : String}
    (areObjectives : problem.objectives = objective :: rest)
    (isVariable : objective.rule = .expression (.variable name))
    (isUnbound : name ∉ RoutingProblem.metricNames)
    (started : watch.lookAtFlag.1 = false) :
    solve problem parameters watch = .error (.rejected (.unbound name)) := by
  have noValue (fleet : Fleet α) (plan : Plan) (unserved : List Nat) :
      (Assignment.ofNumbers (fleet.metrics plan unserved)).read name =
        .error (.rejected (.unbound name)) := by
    have isMissing : (Assignment.ofNumbers (fleet.metrics plan unserved)).get? name = none := by
      by_contra isThere
      exact isUnbound ((Table.mem_names_iff _ _).mpr isThere)
    rw [Assignment.read, isMissing]
  have noCost (fleet : Fleet α) (plan : Plan) (unserved : List Nat) :
      Objectives.costOf problem.objectives
          (Assignment.ofNumbers (fleet.metrics plan unserved)) =
        .error (.rejected (.unbound name)) := by
    rw [areObjectives, Objectives.costOf, Objectives.values, Objectives.valuesInto,
      Objective.evaluate, isVariable]
    change ((Assignment.read _ name >>= _).map _) = _
    rw [noValue]
    rfl
  have notSearched (fleet : Fleet α) (areAlike : fleet.objectives = problem.objectives)
      (looked : Watch α) :
      search parameters fleet looked = .error (.rejected (.unbound name)) := by
    unfold search Progress.record
    dsimp only
    rw [areAlike, noCost]
    rfl
  unfold solve solveOn
  dsimp only
  rw [started, if_neg Bool.false_ne_true, notSearched _ rfl]
  rfl

end Routing

/-!
## Strategies find their names

A strategy binds the names of the variables, and the strategies of routing and scheduling bind
those of their metrics.  Parameters that are decoded for a strategy are of this strategy, so none
works on a problem of a sort that has another one.
-/

namespace Decode

variable {β γ : Type} {holds : β → Prop}

/-- Whatever has been decoded before, a value that a step gives has a property. -/
def Gives (holds : β → Prop) (step : Decode (Option β)) : Prop :=
  ∀ state value, (step state).1 = some value → holds value

theorem Gives.bind
    {first : Decode γ}
    {next : γ → Decode (Option β)}
    (gives : ∀ value, Gives holds (next value)) :
    Gives holds (first >>= next) :=
  fun state => gives (first state).1 (first state).2

theorem gives_pure
    {value? : Option β}
    (isGood : ∀ value, value? = some value → holds value) :
    Gives holds (pure value?) :=
  fun _ => isGood

theorem gives_record
    {build : Decoder.Fields → Decode (Option β)}
    (gives : ∀ fields, Gives holds (build fields))
    (place : List Step)
    (document : Document Float) :
    Gives holds (Decoder.record build place document) := by
  unfold Decoder.record Decoder.recordWith
  split
  · exact gives _
  · exact nofun

/-- A document that is decoded as a whole has the properties of all values that are given. -/
theorem Gives.of_check_eq_ok
    {decoder : Decoder β}
    {document : Document Float}
    {value : β}
    (gives : Gives holds (decoder [] document))
    (checked : check decoder document = .ok value) :
    holds value := by
  unfold check run at checked
  cases given : decoder [] document ⟨⟨fun _ => "", 0⟩, []⟩ with
  | mk value? after =>
      rw [StateT.run, given] at checked
      dsimp only at checked
      split at checked
      · rename_i found isClean
        cases checked
        exact gives _ _ (congrArg Prod.fst given)
      · cases checked

end Decode

/-- The parameters that are decoded for a strategy are those of this strategy. -/
theorem Parameters.algorithm_of_decoder
    (algorithm : Algorithm)
    (place : List Step)
    (document : Document Float) :
    Decode.Gives (fun parameters => parameters.algorithm = algorithm)
      (decoder algorithm place document) := by
  have ofMap {δ : Type} {build : δ → Parameters Float}
      (isOwn : ∀ given, (build given).algorithm = algorithm) (given? : Option δ) :
      ∀ parameters, given?.map build = some parameters → parameters.algorithm = algorithm := by
    rintro parameters isMapped
    obtain ⟨given, -, rfl⟩ := Option.map_eq_some_iff.mp isMapped
    exact isOwn given
  cases algorithm with
  | backtracking => exact .bind fun given? => Decode.gives_pure (ofMap (fun _ => rfl) given?)
  | genetic => exact .bind fun given? => Decode.gives_pure (ofMap (fun _ => rfl) given?)
  | pareto => exact .bind fun given? => Decode.gives_pure (ofMap (fun _ => rfl) given?)
  | linearProgramming =>
      refine Decode.gives_record (fun fields => ?_) place document
      refine .bind fun shared? => .bind fun partial? => .bind fun penalty? =>
        Decode.gives_pure fun parameters isBuilt => ?_
      cases shared? <;> cases partial? <;> cases penalty? <;> cases isBuilt
      rfl
  | routing =>
      refine Decode.gives_record (fun fields => ?_) place document
      refine .bind fun shared? => .bind fun search? => .bind fun speed? =>
        Decode.gives_pure fun parameters isBuilt => ?_
      cases shared? <;> cases search? <;> cases speed? <;> cases isBuilt
      rfl
  | scheduling =>
      refine Decode.gives_record (fun fields => ?_) place document
      refine .bind fun shared? => .bind fun candidates? =>
        Decode.gives_pure fun parameters isBuilt => ?_
      cases shared? <;> cases candidates? <;> cases isBuilt
      rfl

theorem Settings.algorithm_of_resolve_eq_ok
    {settings : Settings}
    {algorithm : Algorithm}
    {given? : Option (GivenParameters Float)}
    {parameters : Parameters Float}
    (resolved : settings.resolve algorithm given? = .ok parameters) :
    parameters.algorithm = algorithm := by
  have gives := Parameters.algorithm_of_decoder algorithm []
    (.ofTable (settings.merged algorithm given?))
  exact (gives.of_check_eq_ok resolved :)

/-- The names that the strategies for a sort of problems bind to numbers. -/
def AnyProblem.boundNames {α : Type} : AnyProblem α → List String
  | .generic problem => problem.variableNames
  | .routing _ => RoutingProblem.metricNames
  | .scheduling _ => SchedulingProblem.metricNames

namespace NamingFailure

variable {α : Type}

instance : NamingFailure (StrategyFailure α) where
  MissesName
    | .misconfigured _ => False
    | .failed failure => MissesName failure

end NamingFailure

namespace Strategy

/-- A strategy finds the names that it binds, unless a sort of problems has another strategy. -/
theorem findsNames_run
    {α γ : Type}
    [Scalar α]
    [Elementary α]
    [SeededSource γ α]
    [LimitedSource γ α]
    {parameters : Parameters α}
    {problem : AnyProblem α}
    {watch : Watch α}
    (findsSeed : ∀ seed, FindsNames (SeededSource.ofSeed α seed : Except Breakdown γ))
    (isOwn : ∀ own, Selection.ownStrategy? problem = some own → own = parameters.algorithm)
    (readsOnly : problem.base.ReadsOnly problem.boundNames) :
    FindsNames (run γ parameters problem watch) := by
  cases problem with
  | generic problem =>
      cases parameters with
      | backtracking given => exact Backtracking.findsNames_solve findsSeed readsOnly
      | genetic given => exact Evolution.findsNames_genetic_solve findsSeed readsOnly
      | pareto given => exact Evolution.findsNames_pareto_solve findsSeed readsOnly
      | linearProgramming given => exact LinearProgramming.findsNames_solve readsOnly
      | routing given => exact findsNames_error id
      | scheduling given => exact findsNames_error id
  | routing problem =>
      cases parameters with
      | routing given => exact Routing.findsNames_solve readsOnly
      | _ => cases isOwn .routing rfl
  | scheduling problem =>
      cases parameters with
      | scheduling given => exact Scheduling.findsNames_solve readsOnly
      | _ => cases isOwn .scheduling rfl

theorem findsNames_ofSeed
    (seed : Option Int) :
    FindsNames (SeededSource.ofSeed Float seed : Except Breakdown MixingGenerator) := by
  change FindsNames (MixingGenerator.ofSeed seed)
  unfold MixingGenerator.ofSeed
  dsimp only
  split
  · exact findsNames_error id
  · exact findsNames_ok _

instance : LimitedSource MixingGenerator Float where
  below_lt _ _ isLimit := Nat.mod_lt _ isLimit

/-- A strategy that is set up finds the names that it binds, unless a sort of problems has another
strategy. -/
theorem findsNames_solve
    {algorithm : Algorithm}
    {settings : Settings}
    {problem : AnyProblem Float}
    {watch : Watch Float}
    (isOwn : ∀ own, Selection.ownStrategy? problem = some own → own = algorithm)
    (readsOnly : problem.base.ReadsOnly problem.boundNames) :
    FindsNames (solve algorithm settings problem watch) := by
  unfold solve
  split
  · exact findsNames_error id
  · have findsParameters : FindsNames (parametersFor algorithm settings problem) := by
      unfold parametersFor
      cases settings.resolve algorithm problem.base.parameters with
      | ok parameters => exact findsNames_ok parameters
      | error issues => exact findsNames_error id
    refine findsParameters.bind fun parameters areParameters => ?_
    have isAlgorithm := Settings.algorithm_of_resolve_eq_ok (mapError_eq_ok areParameters)
    subst isAlgorithm
    exact (findsNames_run findsNames_ofSeed isOwn readsOnly).mapError fun _ => id

/-- A strategy that fits a problem is run with the parameters that it is set up with. -/
theorem solve_eq_run
    {algorithm : Algorithm}
    {settings : Settings}
    {problem : AnyProblem Float}
    {parameters : Parameters Float}
    (fits : algorithm.misfit? problem = none)
    (resolved : settings.resolve algorithm problem.base.parameters = .ok parameters)
    (watch : Watch Float) :
    solve algorithm settings problem watch =
      (run MixingGenerator parameters problem watch).mapError .failed := by
  unfold solve parametersFor
  rw [fits, resolved]
  rfl

end Strategy

end Optima
