import Optima.Engine.Basic
import Optima.Proofs.Lists

namespace Optima

/-!
# How the engine fails

A strategy works under the eyes of the engine: however it fails, the engine tells it as a
failure of its own.  The check of a problem and the choice of a strategy come before that.  Of
these the check breaks down on a whole variable whose bounds cannot be rounded, and the choice
on a configured strategy that does not exist, and the engine hands on both as they are.  Who
gets the solution does not matter for the result.
-/

/-- The engine declares to fail this way: the problem is malformed, an expression has no value, or
the strategy fails. -/
def EngineFailure.IsDeclared : EngineFailure → Prop
  | .invalid _ | .rejected _ | .brokeDown _ _ | .misconfigured _ _ => True
  | .unknownDefault _ | .uncheckable _ => False

theorem EngineFailure.isDeclared_ofStrategy
    (problem : String)
    (failure : StrategyFailure Float) :
    (ofStrategy problem failure).IsDeclared := by
  rcases failure with issues | (issues | error | breakdown) <;> trivial

section Checking

variable {α : Type} [Scalar α]

/-- A whole part of a number is asked for that has none. -/
def Scalar.IsUnroundable (value : α) : Prop :=
  Scalar.isNaN value = true ∨ Scalar.isFinite value = false

/-- A whole variable is declared between ends one of which cannot be rounded. -/
def Variable.IsUnroundable (decision : Variable α) : Prop :=
  decision.kind = .integer ∧
    (Scalar.IsUnroundable (decision.openBounds Variable.usualBounds).1 ∨
      Scalar.IsUnroundable (decision.openBounds Variable.usualBounds).2)

theorem Variable.exists_wholePart_eq_error_iff
    (round : α → α)
    (value : α) :
    (∃ breakdown, wholePart round value = .error breakdown) ↔ Scalar.IsUnroundable value := by
  unfold wholePart Scalar.IsUnroundable
  cases Scalar.isNaN value with
  | true => simp
  | false => cases Scalar.isFinite value <;> simp

/-- The bounds of a whole variable break down where one of their ends cannot be rounded. -/
theorem Variable.exists_bounds_eq_error_iff
    {decision : Variable α}
    (isInteger : decision.kind = .integer) :
    (∃ breakdown, decision.bounds usualBounds = .error breakdown) ↔ decision.IsUnroundable := by
  unfold bounds IsUnroundable
  rw [isInteger, ← exists_wholePart_eq_error_iff Scalar.ceiling,
    ← exists_wholePart_eq_error_iff Scalar.floor]
  dsimp only
  cases wholePart Scalar.ceiling (decision.openBounds usualBounds).1 with
  | error breakdown => simp [bind, Except.bind]
  | ok first =>
      cases wholePart Scalar.floor (decision.openBounds usualBounds).2 with
      | error breakdown => simp [bind, Except.bind]
      | ok last => simp [bind, Except.bind, pure, Except.pure]

namespace Validation

variable {decisions : List (Variable α)}

/-- Looking for empty domains breaks down where a whole variable cannot be rounded. -/
theorem exists_emptyDomains_eq_error_iff :
    (∃ breakdown, emptyDomains decisions = .error breakdown) ↔
      ∃ decision ∈ decisions, decision.IsUnroundable := by
  induction decisions with
  | nil => simp [emptyDomains]
  | cons decision rest inductionHypothesis =>
      rw [emptyDomains, List.exists_mem_cons_iff, ← inductionHypothesis]
      by_cases isInteger : decision.kind = .integer
      · rw [if_pos isInteger, ← Variable.exists_bounds_eq_error_iff isInteger]
        cases decision.bounds Variable.usualBounds with
        | error breakdown => simp [bind, Except.bind]
        | ok interval =>
            cases emptyDomains rest with
            | error breakdown => simp [bind, Except.bind]
            | ok others => simp [bind, Except.bind, pure, Except.pure]
      · have isRounded : ¬ decision.IsUnroundable := fun isUnroundable => isInteger isUnroundable.1
        rw [if_neg isInteger]
        exact (or_iff_right isRounded).symm

/-- A problem cannot be checked where one of its whole variables cannot be rounded. -/
theorem exists_issues_eq_error_iff
    (limits : ValidationLimits)
    (problem : AnyProblem α) :
    (∃ breakdown, issues limits problem = .error breakdown) ↔
      ∃ decision ∈ problem.base.decisions, decision.IsUnroundable := by
  rw [← exists_emptyDomains_eq_error_iff]
  unfold issues
  dsimp only
  cases emptyDomains problem.base.decisions with
  | error breakdown => simp [bind, Except.bind]
  | ok domains => simp [bind, Except.bind, pure, Except.pure]

end Validation

end Checking

namespace Selection

/-- Nothing but a configured strategy that does not exist decides on the strategy. -/
def IsLost {α : Type} (defaultName : String) (problem : AnyProblem α)
    (requested? : Option String) : Prop :=
  requested? = none ∧ problem.base.parameters = none ∧ problem.base.kind = .geneticAlgorithm ∧
    ∀ algorithm : Algorithm, label algorithm ≠ defaultName

theorem ofLabel?_eq_none_iff
    {name : String} :
    (Labelled.ofLabel? name : Option Algorithm) = none ↔
      ∀ algorithm : Algorithm, label algorithm ≠ name := by
  unfold Labelled.ofLabel?
  rw [List.find?_eq_none]
  constructor
  · intro noneFound algorithm
    simpa using noneFound algorithm (by cases algorithm <;> decide)
  · intro noneNamed algorithm _
    simpa using noneNamed algorithm

variable {α : Type} {problem : AnyProblem α} {defaultName : String} {requested? : Option String}

/-- A strategy that is wanted does not exist where nothing else decides. -/
theorem exists_wanted_eq_unknownDefault_iff :
    (∃ name, wanted defaultName problem requested? = .error (.unknownDefault name)) ↔
      IsLost defaultName problem requested? := by
  unfold wanted IsLost
  rw [← ofLabel?_eq_none_iff]
  cases requested? with
  | some name =>
      dsimp only
      split <;> simp
  | none =>
      cases problem.base.parameters with
      | some given => simp
      | none =>
          cases problem.base.kind with
          | geneticAlgorithm =>
              cases (Labelled.ofLabel? defaultName : Option Algorithm) <;>
                simp [ProblemKind.suggested?]
          | _ => simp [ProblemKind.suggested?]

/-- The choice of a strategy ends with one that does not exist where nothing else decides. -/
theorem exists_choose_eq_unknownDefault_iff :
    (∃ name, choose defaultName problem requested? = .error (.unknownDefault name)) ↔
      IsLost defaultName problem requested? := by
  rw [← exists_wanted_eq_unknownDefault_iff]
  unfold choose
  cases wanted defaultName problem requested? with
  | error failure => simp [bind, Except.bind]
  | ok selected =>
      simp only [bind, Except.bind]
      cases objection? problem selected <;> simp [pure, Except.pure]

end Selection

namespace Engine

variable {configuration : Configuration} {problem : AnyProblem Float}
  {requested? : Option String}

/-- What the engine does not declare comes from the check of a problem or from the choice of a
strategy. -/
theorem exists_prepare_eq_undeclared_iff :
    (∃ failure,
        prepare configuration problem requested? = .error failure ∧ ¬ failure.IsDeclared) ↔
      (∃ decision ∈ problem.base.decisions, decision.IsUnroundable) ∨
        (Validation.issues configuration.limits problem).toOption.map List.isEmpty = some true ∧
          Selection.IsLost configuration.defaultAlgorithm problem requested? := by
  rw [← Validation.exists_issues_eq_error_iff configuration.limits,
    ← Selection.exists_choose_eq_unknownDefault_iff]
  unfold prepare
  cases Validation.issues configuration.limits problem with
  | error breakdown =>
      simp [bind, Except.bind, Except.mapError, EngineFailure.IsDeclared]
  | ok issues =>
      cases issues with
      | cons issue rest =>
          simp [bind, Except.bind, Except.mapError, EngineFailure.IsDeclared, Except.toOption]
      | nil =>
          cases Selection.choose configuration.defaultAlgorithm problem requested? with
          | error failure =>
              cases failure <;>
                simp [bind, Except.bind, Except.mapError, EngineFailure.ofSelection,
                  EngineFailure.IsDeclared, Except.toOption]
          | ok algorithm => simp [bind, Except.bind, Except.mapError, Except.toOption]

/-- However a strategy works, the engine tells its failure as one that it declares. -/
theorem isDeclared_of_carryOut
    {σ : Type}
    {recipients : Recipients σ}
    {work : AnyProblem Float → Except (StrategyFailure Float) (Solution Float)}
    {stamps : Stamps}
    {state : σ}
    {failure : EngineFailure}
    (failed : (carryOut recipients problem work stamps state).result = .error failure) :
    failure.IsDeclared := by
  unfold carryOut at failed
  split at failed
  · rename_i cause tracked
    cases failed
    exact EngineFailure.isDeclared_ofStrategy _ _
  · cases failed

/-- A solve ends with a solution or with a failure that the engine declares, unless a whole
variable cannot be rounded or nothing but a strategy that does not exist is left to choose.  Then
it ends with neither, whoever gets the solution. -/
theorem solve_fails_undeclared_iff
    {σ : Type}
    (configuration : Configuration)
    (recipients : Recipients σ)
    (problem : AnyProblem Float)
    (requested? : Option String)
    (watch : Watch Float)
    (stamps : Stamps)
    (state : σ) :
    (∃ failure,
        (solve configuration recipients problem requested? watch stamps state).result =
            .error failure ∧
          ¬ failure.IsDeclared) ↔
      (∃ decision ∈ problem.base.decisions, decision.IsUnroundable) ∨
        (Validation.issues configuration.limits problem).toOption.map List.isEmpty = some true ∧
          Selection.IsLost configuration.defaultAlgorithm problem requested? := by
  rw [← exists_prepare_eq_undeclared_iff]
  unfold solve solveBy
  cases prepare configuration problem requested? with
  | error failure => simp [reject]
  | ok algorithm =>
      constructor
      · rintro ⟨failure, failed, notDeclared⟩
        exact absurd (isDeclared_of_carryOut failed) notDeclared
      · rintro ⟨failure, failed, -⟩
        cases failed

section Strays

/-- A configuration that names a strategy that does not exist. -/
def strayConfiguration : Configuration where
  engineName := "opt-engine"
  engineVersion := "0.1.0"
  logLevel := "INFO"
  logFormat := Configuration.usualFormat
  defaultAlgorithm := "simplex"
  timeLimit := 300
  tolerance := 1
  parameters := {}
  storageBackend := "memory"
  storagePath := "./results"
  limits := ⟨100000, 100000, false⟩

/-- A problem that leaves the strategy to the configuration. -/
def undecidedProblem : Problem Float where
  identifier := "p"
  name := ""
  kind := .geneticAlgorithm
  description := ""
  objectives := [.minimizing "f" "x" 1 0 ""]
  constraints := []
  decisions := [⟨"x", "x", .continuous, some 0, some 1, none, none, ""⟩]
  parameters := none
  status := .pending

/-- A problem without an issue is not solved with a strategy that does not exist, and the engine
does not declare to fail this way. -/
theorem strayConfiguration_fails_undeclared :
    Validation.issues strayConfiguration.limits (.generic undecidedProblem) = .ok [] ∧
      ∃ failure,
        (solve strayConfiguration (⟨none, none⟩ : Recipients Unit) (.generic undecidedProblem) none
            (.start (fun _ => 0) fun _ => false)
            ⟨⟨fun _ => "", 0⟩, fun _ => ⟨2000, 1, 1, 0, 0, 0, 0, none⟩, 0⟩ ()).result =
            .error failure ∧
          ¬ failure.IsDeclared := by
  have noIssue :
      Validation.issues strayConfiguration.limits (.generic undecidedProblem) = .ok [] := by
    with_unfolding_all rfl
  have isUnknown : (Labelled.ofLabel? "simplex" : Option Algorithm) = none := by decide
  have notPrepared :
      prepare strayConfiguration (.generic undecidedProblem) none =
        .error (.unknownDefault "simplex") := by
    unfold prepare Selection.choose Selection.wanted
    rw [noIssue]
    simp only [AnyProblem.base, undecidedProblem, ProblemKind.suggested?, strayConfiguration,
      isUnknown]
    rfl
  refine ⟨noIssue, .unknownDefault "simplex", ?_, id⟩
  unfold solve solveBy
  rw [notPrepared]
  rfl

end Strays

end Engine

end Optima
