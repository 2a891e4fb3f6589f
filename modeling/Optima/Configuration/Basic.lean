import Optima.Problem.Any
import Optima.Strategy.Settings

namespace Optima

/-!
# Configuration

How the library is set up: the limits and parameters of the strategies, where
solutions are kept, what problems are checked against, and how much is logged.
-/

/-- The configuration of the library. -/
structure Configuration where
  engineName : String
  engineVersion : String
  logLevel : String
  logFormat : String
  /-- The strategy for problems whose kind suggests none. -/
  defaultAlgorithm : String
  timeLimit : Float
  tolerance : Float
  /-- Parameters by strategy, not checked yet. -/
  parameters : Table (Table (Document Float))
  storageBackend : String
  storagePath : String
  limits : ValidationLimits
  deriving Repr

namespace Configuration

/-- The form of a line of the log. -/
def usualFormat : String := "%(asctime)s - %(name)s - %(levelname)s - %(message)s"

/-- The part that names the library. -/
def engineDecoder : Decoder (String × String) :=
  .record fun fields => do
    let name? ← fields.textOr "name" "opt-engine"
    let version? ← fields.textOr "version" "0.1.0"
    return do return (← name?, ← version?)

/-- The part on logging. -/
def loggingDecoder : Decoder (String × String) :=
  .record fun fields => do
    let level? ← fields.textOr "level" "INFO"
    let format? ← fields.textOr "format" usualFormat
    return do return (← level?, ← format?)

/-- The part on the strategies. -/
def solversDecoder : Decoder (String × Float × Float × Table (Table (Document Float))) :=
  .record fun fields => do
    let default? ← fields.textOr "default" "genetic"
    let limit? ← fields.defaulted "time_limit" .number 300
    let tolerance? ← fields.defaulted "tolerance" .number 1e-6
    let parameters? ← fields.defaulted "parameters" (.table (.table .any)) {}
    return do return (← default?, ← limit?, ← tolerance?, ← parameters?)

/-- The part on storage. -/
def storageDecoder : Decoder (String × String) :=
  .record fun fields => do
    let backend? ← fields.textOr "backend" "memory"
    let path? ← fields.textOr "path" "./results"
    return do return (← backend?, ← path?)

/-- The part on validation. -/
def limitsDecoder : Decoder ValidationLimits :=
  .record fun fields => do
    let usual := ValidationLimits.usual
    let mostDecisions? ← fields.defaulted "max_variables" .integer usual.maxVariables
    let constraints? ← fields.defaulted "max_constraints" .integer usual.maxConstraints
    let weights? ← fields.defaulted "require_nonnegative_weights" .boolean usual.nonnegativeWeights
    return do return ⟨← mostDecisions?, ← constraints?, ← weights?⟩

/-- A configuration. -/
def decoder : Decoder Configuration :=
  .record fun fields => do
    let engine? ← fields.defaulted "engine" engineDecoder ("opt-engine", "0.1.0")
    let logging? ← fields.defaulted "logging" loggingDecoder ("INFO", usualFormat)
    let solvers? ← fields.defaulted "solvers" solversDecoder ("genetic", 300, 1e-6, {})
    let storage? ← fields.defaulted "storage" storageDecoder ("memory", "./results")
    let limits? ← fields.defaulted "validation" limitsDecoder .usual
    return do
      let (name, version) ← engine?
      let (level, format) ← logging?
      let (default, limit, tolerance, parameters) ← solvers?
      let (backend, path) ← storage?
      return ⟨name, version, level, format, default, limit, tolerance, parameters, backend, path,
        ← limits?⟩

/-- The part that names the library as a document. -/
def engineDocument (name version : String) : Document Float :=
  .mapping [("name", .text name), ("version", .text version)]

/-- The part on logging as a document. -/
def loggingDocument (level format : String) : Document Float :=
  .mapping [("level", .text level), ("format", .text format)]

/-- The part on the strategies as a document. -/
def solversDocument (default : String) (timeLimit tolerance : Float)
    (parameters : Table (Table (Document Float))) : Document Float :=
  .mapping [("default", .text default), ("time_limit", .number timeLimit),
    ("tolerance", .number tolerance), ("parameters", .tableOf Document.ofTable parameters)]

/-- The part on storage as a document. -/
def storageDocument (backend path : String) : Document Float :=
  .mapping [("backend", .text backend), ("path", .text path)]

/-- The part on validation as a document. -/
def limitsDocument (limits : ValidationLimits) : Document Float :=
  .mapping [("max_variables", .integer limits.maxVariables),
    ("max_constraints", .integer limits.maxConstraints),
    ("require_nonnegative_weights", .boolean limits.nonnegativeWeights)]

/-- A configuration as a document. -/
def toDocument (configuration : Configuration) : Document Float :=
  .mapping
    [("engine", engineDocument configuration.engineName configuration.engineVersion),
     ("logging", loggingDocument configuration.logLevel configuration.logFormat),
     ("solvers", solversDocument configuration.defaultAlgorithm configuration.timeLimit
      configuration.tolerance configuration.parameters),
     ("storage", storageDocument configuration.storageBackend configuration.storagePath),
     ("validation", limitsDocument configuration.limits)]

/-- The document at a path of names. -/
def follow : List String → Document Float → Option (Document Float)
  | [], document => some document
  | name :: rest, document => (document.field? name).bind (follow rest)

/-- The document at a path written with dots between the names. -/
def get? (configuration : Configuration) (path : String) : Option (Document Float) :=
  follow (Letters.split '.' path) configuration.toDocument

/-- What a strategy is set up with. -/
def settingsFor (configuration : Configuration) (algorithm : String) : Settings :=
  ⟨.number configuration.timeLimit, .number configuration.tolerance,
    (configuration.parameters.get? algorithm).getD {}⟩

/-- The numbers of the levels of the log. -/
def logLevels : List (String × Nat) :=
  [("DEBUG", 10), ("INFO", 20), ("WARNING", 30), ("WARN", 30), ("ERROR", 40), ("CRITICAL", 50),
   ("FATAL", 50), ("NOTSET", 0)]

/-- The number of the level from which on messages are logged. -/
def logThreshold? (configuration : Configuration) : Option Nat :=
  logLevels.lookup (Letters.upper configuration.logLevel)

/-- The configuration that comes with the library. -/
def packaged : Document Float :=
  .mapping
    [("engine", .mapping [("name", .text "opt-engine"), ("version", .text "0.1.0")]),
     ("logging", .mapping [("level", .text "INFO"), ("format", .text usualFormat)]),
     ("solvers", .mapping
      [("default", .text "genetic"), ("time_limit", .integer 300), ("tolerance", .number 1e-6),
       ("parameters", .mapping
        [("backtracking", .mapping [("max_iterations", .integer 100000),
          ("value_ordering", .text "ascending"), ("continuous_steps", .integer 101)]),
         ("genetic", .mapping [("max_iterations", .integer 1000),
          ("population_size", .integer 100), ("crossover_rate", .number 0.8),
          ("mutation_rate", .number 0.1), ("elitism_rate", .number 0.1),
          ("tournament_size", .integer 3)]),
         ("pareto", .mapping [("max_iterations", .integer 200),
          ("population_size", .integer 100)]),
         ("linear_programming", .mapping [("allow_partial", .boolean false)]),
         ("routing", .mapping [("max_iterations", .integer 1000), ("local_search", .boolean true)]),
         ("scheduling", .mapping [("max_iterations", .integer 10000),
          ("max_candidates", .integer 3)])])]),
     ("storage", .mapping [("backend", .text "memory"), ("path", .text "./results")]),
     ("validation", .mapping [("max_variables", .integer 100000),
      ("max_constraints", .integer 100000), ("require_nonnegative_weights", .boolean true)])]

end Configuration

end Optima
