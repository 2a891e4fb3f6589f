import Optima.Allocation
import Optima.Configuration.Basic
import Optima.Solution.Decoding
import Optima.Strategy.Settings
import Optima.Strategy.Solve

namespace Optima

/-!
# The engine

The engine checks a problem, chooses a strategy, leads the problem along its
lifecycle while the strategy works on it, hands the solution to the store and at
last tells whoever waits for it.  All of this is noted in order.  That the store or
the one who waits fails changes nothing else.
-/

/-- Why the engine gives no solution. -/
inductive EngineFailure where
  /-- The problem is malformed, or no strategy suits it. -/
  | invalid (issues : List String)
  /-- An expression of the problem has no value where the strategy needs one. -/
  | rejected (error : EvalError Float)
  /-- The strategy broke down on a problem. -/
  | brokeDown (problem : String) (breakdown : Breakdown)
  /-- The parameters of the strategy are not well formed. -/
  | misconfigured (problem : String) (issues : List Issue)
  /-- The configured strategy does not exist. -/
  | unknownDefault (name : String)
  /-- The problem cannot even be checked. -/
  | uncheckable (breakdown : Breakdown)
  deriving Repr

namespace EngineFailure

/-- The message on a strategy that failed unexpectedly. -/
def brokenMessage (problem : String) (reason? : Option String) : String :=
  "Solving problem " ++ problem ++ " failed"
    ++ match reason? with
      | some reason => ": " ++ reason
      | none => ""

/-- The message of a failure, where it has one of its own. -/
def message? : EngineFailure → Option String
  | .invalid issues => some ("Invalid problem: " ++ "; ".intercalate issues)
  | .rejected error => some error.message
  | .brokeDown problem breakdown => some (brokenMessage problem breakdown.message?)
  | .misconfigured problem _ => some (brokenMessage problem none)
  | .unknownDefault name => some (quoted name ++ " is not a valid Algorithm")
  | .uncheckable breakdown => breakdown.message?

/-- What the failure of a strategy means for the problem that it worked on. -/
def ofStrategy (problem : String) : StrategyFailure Float → EngineFailure
  | .misconfigured issues => .misconfigured problem issues
  | .failed (.invalid issues) => .invalid issues
  | .failed (.rejected error) => .rejected error
  | .failed (.broken breakdown) => .brokeDown problem breakdown

/-- What it means that no strategy is chosen. -/
def ofSelection : SelectionFailure → EngineFailure
  | .unsuitable issue => .invalid [issue]
  | .unknownDefault name => .unknownDefault name

end EngineFailure

/-- Where solutions get their identifiers and moments from. -/
structure Stamps where
  supply : Supply
  moments : Nat → Timestamp
  used : Nat

namespace Stamps

/-- Give a solution its identifiers and its moment. -/
def stamp (stamps : Stamps) (solution : Solution Float) : Record × Stamps :=
  let (record, supply) := Record.stamp stamps.supply (stamps.moments stamps.used) solution
  (record, { stamps with supply := supply, used := stamps.used + 1 })

end Stamps

/-- What is done to a problem and with its solution. -/
inductive Event where
  /-- The problem enters a stage of its lifecycle. -/
  | entered (stage : Lifecycle)
  /-- The store gets a solution, and may fail for a reason. -/
  | stored (record : Record) (reason? : Option String)
  /-- Whoever waits for a solution gets it, and may fail for a reason. -/
  | notified (record : Record) (reason? : Option String)
  deriving Repr

/-- Those who get a solution: each changes the state, and may fail for a reason. -/
structure Recipients (σ : Type) where
  store : Option (Record → σ → σ × Option String)
  notify : Option (Record → σ → σ × Option String)

namespace Recipients

variable {σ : Type}

/-- Hand a solution to one who gets it, if there is one. -/
def hand (event : Record → Option String → Event)
    (recipient? : Option (Record → σ → σ × Option String)) (record : Record) (state : σ) :
    σ × List Event :=
  match recipient? with
  | none => (state, [])
  | some recipient =>
    let (after, reason?) := recipient record state
    (after, [event record reason?])

/-- Hand a solution to the store, and then to the one who waits for it. -/
def deliver (recipients : Recipients σ) (record : Record) (state : σ) : σ × List Event :=
  let (kept, storing) := hand .stored recipients.store record state
  let (told, telling) := hand .notified recipients.notify record kept
  (told, storing ++ telling)

end Recipients

/-- How a solve ends for the problem, for the one who asked and for the others. -/
structure Outcome (σ : Type) where
  result : Except EngineFailure Record
  problem : AnyProblem Float
  stamps : Stamps
  state : σ
  events : List Event

/-- What works on a problem for a strategy and its settings. -/
abbrev Solver := Algorithm → Settings → AnyProblem Float → Watch Float →
  Except (StrategyFailure Float) (Solution Float)

/-- What works on a problem of suppliers and demands for the settings of a strategy, with fresh
identifiers. -/
abbrev Allocator := Settings → List (Supplier Float) → List (Requisition Float) →
  (Nat → String) → Watch Float → AnyProblem Float →
  Except (StrategyFailure Float) (Solution Float)

namespace Engine

/-- A problem moved along its lifecycle, where that is allowed. -/
def advance (problem : AnyProblem Float) (next : Lifecycle) : AnyProblem Float :=
  match problem.mark next with
  | .ok marked => marked
  | .error _ => problem

/-- That a problem enters a stage of its lifecycle, where that is allowed. -/
def entry (problem : AnyProblem Float) (next : Lifecycle) : List Event :=
  match problem.mark next with
  | .ok _ => [.entered next]
  | .error _ => []

/-- The end of the lifecycle after a strategy has worked. -/
def ending {ε β : Type} : Except ε β → Lifecycle
  | .ok _ => .completed
  | .error _ => .failed

/-- Lead a problem along its lifecycle while a strategy works on it. -/
def track {ε β : Type} (problem : AnyProblem Float) (work : AnyProblem Float → Except ε β) :
    Except ε β × AnyProblem Float × List Event :=
  if problem.base.status = .pending then
    let running := advance problem .running
    let result := work running
    (result, advance running (ending result),
      entry problem .running ++ entry running (ending result))
  else (work problem, problem, [])

/-- Reject a problem before any strategy works on it. -/
def reject {σ : Type} (failure : EngineFailure) (problem : AnyProblem Float) (stamps : Stamps)
    (state : σ) : Outcome σ :=
  ⟨.error failure, problem, stamps, state, []⟩

/-- Let a strategy work on a problem and deliver the solution. -/
def carryOut {σ : Type} (recipients : Recipients σ) (problem : AnyProblem Float)
    (work : AnyProblem Float → Except (StrategyFailure Float) (Solution Float)) (stamps : Stamps)
    (state : σ) : Outcome σ :=
  match track problem work with
  | (.error failure, tracked, entered) =>
    ⟨.error (.ofStrategy problem.base.identifier failure), tracked, stamps, state, entered⟩
  | (.ok solution, tracked, entered) =>
    let (record, rest) := stamps.stamp solution
    let (after, delivered) := recipients.deliver record state
    ⟨.ok record, tracked, rest, after, entered ++ delivered⟩

/-- Check a problem and choose a strategy for it. -/
def prepare (configuration : Configuration) (problem : AnyProblem Float)
    (requested? : Option String) : Except EngineFailure Algorithm := do
  let issues ← (Validation.issues configuration.limits problem).mapError .uncheckable
  if issues.isEmpty then
    (Selection.choose configuration.defaultAlgorithm problem requested?).mapError .ofSelection
  else .error (.invalid (issues.map StructuralIssue.message))

/-- Let a solver work on a problem once it is checked and a strategy is chosen. -/
def solveBy {σ : Type} (solver : Solver) (configuration : Configuration)
    (recipients : Recipients σ) (problem : AnyProblem Float) (requested? : Option String)
    (watch : Watch Float) (stamps : Stamps) (state : σ) : Outcome σ :=
  match prepare configuration problem requested? with
  | .error failure => reject failure problem stamps state
  | .ok algorithm =>
    let settings := configuration.settingsFor (label algorithm)
    carryOut recipients problem (fun running => solver algorithm settings running watch) stamps
      state

/-- Solve a problem. -/
def solve {σ : Type} (configuration : Configuration) (recipients : Recipients σ)
    (problem : AnyProblem Float) (requested? : Option String) (watch : Watch Float)
    (stamps : Stamps) (state : σ) : Outcome σ :=
  solveBy Strategy.solve configuration recipients problem requested? watch stamps state

/-- The identifiers that occur more than once, each once, in the order of their first places. -/
def repeated (identifiers : List String) : List String :=
  identifiers.eraseDups.filter fun identifier => 1 < identifiers.count identifier

/-- What is wrong with the identifiers of suppliers and demands. -/
def allocationIssues (suppliers : List (Supplier Float))
    (requisitions : List (Requisition Float)) : List String :=
  (repeated (suppliers.map (·.identifier))).map (fun identifier =>
      "duplicate resource id '" ++ identifier ++ "'")
    ++ (repeated (requisitions.map (·.identifier))).map fun identifier =>
      "duplicate demand id '" ++ identifier ++ "'"

/-- Find the cheapest allocation for a problem. -/
def allocate (settings : Settings) (suppliers : List (Supplier Float))
    (requisitions : List (Requisition Float)) (fresh : Nat → String) (watch : Watch Float)
    (problem : AnyProblem Float) : Except (StrategyFailure Float) (Solution Float) := do
  match ← Strategy.parametersFor .linearProgramming settings problem with
  | .linearProgramming parameters =>
    let allocation := Allocation.ofParameters parameters suppliers requisitions
    (allocation.solve problem.base parameters fresh watch).mapError .failed
  | _ => .error (.failed (.invalid []))

/-- Let an allocator work on a problem once the identifiers of suppliers and demands are checked. -/
def allocateBy {σ : Type} (allocator : Allocator) (configuration : Configuration)
    (recipients : Recipients σ) (problem : AnyProblem Float) (suppliers : List (Supplier Float))
    (requisitions : List (Requisition Float)) (watch : Watch Float) (stamps : Stamps)
    (state : σ) : Outcome σ :=
  let issues := allocationIssues suppliers requisitions
  if !issues.isEmpty then reject (.invalid issues) problem stamps state
  else
    let settings := configuration.settingsFor (label Algorithm.linearProgramming)
    let (fresh, rest) := stamps.supply.reserve
      (suppliers.length * requisitions.length + requisitions.length + 1)
    carryOut recipients problem (allocator settings suppliers requisitions fresh watch)
      { stamps with supply := rest } state

/-- Solve a problem of suppliers and demands. -/
def solveAllocation {σ : Type} (configuration : Configuration) (recipients : Recipients σ)
    (problem : AnyProblem Float) (suppliers : List (Supplier Float))
    (requisitions : List (Requisition Float)) (watch : Watch Float) (stamps : Stamps)
    (state : σ) : Outcome σ :=
  allocateBy allocate configuration recipients problem suppliers requisitions watch stamps state

/-- What the engine says of its strategies. -/
def profile (configuration : Configuration) : Document Float :=
  .mapping [("default", .text configuration.defaultAlgorithm),
    ("solvers", .mapping ((Labelled.all (β := Algorithm)).map fun algorithm =>
      (label algorithm, algorithm.profile)))]

end Engine

end Optima
