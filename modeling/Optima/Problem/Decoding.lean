import Optima.Document.Writer
import Optima.Expression.Decoding
import Optima.Problem.Basic
import Optima.Scalar.Basic

namespace Optima

/-!
# Problems in documents

Decoders for variables, objectives, constraints, parameters and problems, and the
documents that these are written as.  A document cannot hold a closure; what it
holds in place of one is handed to the caller, who may know the closure meant.
-/

/-- The closures that a caller knows, by what stands for them in a document. -/
abbrev Closures := Document Float → Option (Closure Float)

namespace Closures

/-- No closures. -/
def unknown : Closures := fun _ => none

/-- What stands for a closure, or `null`. -/
def decoder (closures : Closures) : Decoder (Closure Float) :=
  .ofReader fun document =>
    match closures document with
    | some closure => .ok closure
    | none => .error .notCallable

end Closures

namespace Value

/-- What a name is bound to by a caller. -/
def ofDocument : Document Float → Value Float
  | .text value => .text value
  | document =>
    match document.toNumber with
    | .ok value => .number value
    | .error breakdown => .unusable breakdown

end Value

namespace Returned

/-- What a closure gives back. -/
def ofDocument (document : Document Float) : Returned Float :=
  match document.toNumber with
  | .ok value => .number value
  | .error .numberTooLarge => .unusable .numberTooLarge
  | .error _ => .notNumeric document.shown

end Returned

namespace Datum

/-- A number or a text; a text is not read as a number. -/
def decoder : Decoder (Datum Float) :=
  fun place document =>
    match document with
    | .text value => return some (.text value)
    | _ => do
      match Document.floatOf document with
      | .ok value => return some (.number value)
      | .error fault =>
        let _ ← Decode.report (β := Datum Float) (place ++ [.name "float"]) fault
        Decode.report (place ++ [.name "str"]) .textType

/-- A number or a text as a document. -/
def toDocument {α : Type} : Datum α → Document α
  | .number value => .number value
  | .text value => .text value

end Datum

namespace Rule

/-- The rule made of an expression or a closure, of which there has to be exactly one. -/
def ofParts? (expression : Option (Expr Float)) (closure : Option (Closure Float)) :
    Option (Rule Float) :=
  match expression, closure with
  | some value, none => some (.expression value)
  | none, some apply => some (.closure apply)
  | _, _ => none

/-- The message of a record with no rule or with two. -/
def missingMessage : String :=
  "exactly one of 'expression' or 'function' must be given"

/-- The field of a rule in a document; a closure is not written. -/
def field {α : Type} (rule : Rule α) : String × Document α :=
  ("expression", .optional Expr.toDocument rule.expression?)

end Rule

/-- Decode a record that holds a rule, given how the rest of it is decoded. -/
def ruleRecord {β : Type} (closures : Closures)
    (rest : Decoder.Fields → Decode (Option (Rule Float → β))) : Decoder β :=
  fun place document =>
    match document with
    | .mapping entries => do
      let fields : Decoder.Fields := ⟨place, entries⟩
      let expression? ← fields.optional "expression" Expr.decoder
      let closure? ← fields.optional "function" closures.decoder
      let build? ← rest fields
      match expression?, closure?, build? with
      | some expression, some closure, some build =>
        match Rule.ofParts? expression closure with
        | some rule => return some (build rule)
        | none => Decode.report place (.rule Rule.missingMessage)
      | _, _, _ => return none
    | _ => Decode.report place .recordType

namespace Objective

/-- An objective. -/
def decoder (closures : Closures) : Decoder (Objective Float) :=
  ruleRecord closures fun fields => do
    let identifier? ← fields.identifier "objective_id"
    let name? ← fields.required "name" .text
    let direction? ← fields.defaulted "direction" .choice .minimize
    let weight? ← fields.defaulted "weight" .number 1
    let priority? ← fields.defaulted "priority" .integer 0
    let description? ← fields.textOr "description" ""
    return do
      let identifier ← identifier?
      let name ← name?
      let direction ← direction?
      let weight ← weight?
      let priority ← priority?
      let description ← description?
      return fun rule => ⟨rule, identifier, name, direction, weight, priority, description⟩

/-- An objective as a document. -/
def toDocument {α : Type} (objective : Objective α) : Document α :=
  .mapping [objective.rule.field, ("objective_id", .text objective.identifier),
    ("name", .text objective.name), ("direction", .labelled objective.direction),
    ("weight", .number objective.weight), ("priority", .integer objective.priority),
    ("description", .text objective.description)]

end Objective

namespace Constraint

/-- A constraint. -/
def decoder (closures : Closures) : Decoder (Constraint Float) :=
  ruleRecord closures fun fields => do
    let identifier? ← fields.identifier "constraint_id"
    let name? ← fields.required "name" .text
    let kind? ← fields.defaulted "kind" .choice .inequality
    let comparison? ← fields.defaulted "operator" .choice .atMost
    let target? ← fields.defaulted "value" .number 0
    let tolerance? ← fields.optional "tolerance" (.numberFrom 0)
    let description? ← fields.textOr "description" ""
    return do
      let identifier ← identifier?
      let name ← name?
      let kind ← kind?
      let comparison ← comparison?
      let target ← target?
      let tolerance ← tolerance?
      let description ← description?
      return fun rule =>
        ⟨rule, identifier, name, kind, comparison, target, tolerance, description⟩

/-- A constraint as a document. -/
def toDocument {α : Type} (constraint : Constraint α) : Document α :=
  .mapping [constraint.rule.field, ("constraint_id", .text constraint.identifier),
    ("name", .text constraint.name), ("kind", .labelled constraint.kind),
    ("operator", .labelled constraint.comparison), ("value", .number constraint.target),
    ("tolerance", .optional .number constraint.tolerance),
    ("description", .text constraint.description)]

end Constraint

namespace Variable

/-- A variable. -/
def decoder : Decoder (Variable Float) :=
  .checkedRecord (fun decision => decision.fault?.map VariableFault.message) fun fields => do
    let identifier? ← fields.identifier "variable_id"
    let name? ← fields.required "name" .text
    let kind? ← fields.defaulted "kind" .choice .continuous
    let lower? ← fields.optional "lower_bound" .number
    let upper? ← fields.optional "upper_bound" .number
    let initial? ← fields.optional "initial_value" Datum.decoder
    let categories? ← fields.optional "categories" (.list .text)
    let description? ← fields.textOr "description" ""
    return do
      return ⟨← identifier?, ← name?, ← kind?, ← lower?, ← upper?, ← initial?, ← categories?,
        ← description?⟩

/-- A variable as a document. -/
def toDocument {α : Type} (decision : Variable α) : Document α :=
  .mapping [("variable_id", .text decision.identifier), ("name", .text decision.name),
    ("kind", .labelled decision.kind), ("lower_bound", .optional .number decision.lower),
    ("upper_bound", .optional .number decision.upper),
    ("initial_value", .optional Datum.toDocument decision.initial),
    ("categories", .optional .texts decision.categories),
    ("description", .text decision.description)]

/-- The number of a value given by a caller: a category by its position. -/
def encodeDocument (decision : Variable Float) (document : Document Float) :
    Except Breakdown Float :=
  match decision.kind, document with
  | .categorical, .text value => decision.encode (.text value)
  | _, _ => document.toNumber

end Variable

namespace Convergence

/-- When a search counts as settled. -/
def decoder : Decoder (Convergence Float) :=
  .record fun fields => do
    let kind? ← fields.defaulted "type" .choice .objectiveChange
    let threshold? ← fields.defaulted "threshold" (.numberFrom 0) (Scalar.decimal 1 6)
    let window? ← fields.defaulted "consecutive_iterations" (.naturalFrom 1) 10
    return do return ⟨← kind?, ← threshold?, ← window?⟩

/-- A convergence criterion as a document. -/
def toDocument {α : Type} (convergence : Convergence α) : Document α :=
  .mapping [("type", .labelled convergence.kind), ("threshold", .number convergence.threshold),
    ("consecutive_iterations", .natural convergence.window)]

end Convergence

namespace Parallelization

/-- A hint on evaluating candidates side by side. -/
def decoder : Decoder Parallelization :=
  .record fun fields => do
    let enabled? ← fields.defaulted "enabled" .boolean false
    let threads? ← fields.defaulted "threads" (.naturalFrom 1) 1
    let strategy? ← fields.defaulted "strategy" .choice .masterSlave
    return do return ⟨← enabled?, ← threads?, ← strategy?⟩

/-- The hint as a document. -/
def toDocument {α : Type} (parallelization : Parallelization) : Document α :=
  .mapping [("enabled", .boolean parallelization.enabled),
    ("threads", .natural parallelization.threads),
    ("strategy", .labelled parallelization.strategy)]

end Parallelization

namespace SharedParameters

/-- The parameters that every strategy has. -/
def decode (fields : Decoder.Fields) (maxIterations : Nat) :
    Decode (Option (SharedParameters Float)) := do
  let usual : SharedParameters Float := .usual maxIterations
  let iterations? ← fields.defaulted "max_iterations" (.naturalFrom 1) usual.maxIterations
  let tolerance? ← fields.defaulted "tolerance" (.numberFrom 0) usual.tolerance
  let limit? ← fields.defaulted "time_limit" (.nullable (.numberAbove 0)) usual.timeLimit
  let seed? ← fields.optional "seed" .integer
  let convergence? ← fields.defaulted "convergence" Convergence.decoder usual.convergence
  let parallelization? ←
    fields.defaulted "parallelization" Parallelization.decoder usual.parallelization
  let bounds? ← fields.defaulted "default_bounds" .pair usual.defaultBounds
  return do
    return ⟨← iterations?, ← tolerance?, ← limit?, ← seed?, ← convergence?, ← parallelization?,
      ← bounds?⟩

/-- The shared parameters of a strategy, which need not be named. -/
def decodeFor (algorithm : Algorithm) (fields : Decoder.Fields) (maxIterations : Nat) :
    Decode (Option (SharedParameters Float)) := do
  let shared? ← decode fields maxIterations
  let algorithm? ← fields.defaulted "algorithm" (.literal (label algorithm)) ()
  return algorithm?.bind fun _ => shared?

/-- The shared parameters as fields of a document. -/
def fields {α : Type} (shared : SharedParameters α) : List (String × Document α) :=
  [("max_iterations", .natural shared.maxIterations), ("tolerance", .number shared.tolerance),
   ("time_limit", .optional .number shared.timeLimit), ("seed", .optional .integer shared.seed),
   ("convergence", shared.convergence.toDocument),
   ("parallelization", shared.parallelization.toDocument),
   ("default_bounds", .list [.number shared.defaultBounds.1, .number shared.defaultBounds.2])]

end SharedParameters

namespace GeneticParameters

/-- The parameters of an evolutionary strategy. -/
def decoder (algorithm : Algorithm) (maxIterations : Nat) : Decoder (GeneticParameters Float) :=
  .record fun fields => do
    let usual : GeneticParameters Float := .usual maxIterations
    let shared? ← SharedParameters.decodeFor algorithm fields maxIterations
    let size? ← fields.defaulted "population_size" (.naturalFrom 2) usual.populationSize
    let crossover? ← fields.defaulted "crossover_rate" (.numberBetween 0 1) usual.crossoverRate
    let mutation? ← fields.defaulted "mutation_rate" (.numberBetween 0 1) usual.mutationRate
    let elitism? ← fields.defaulted "elitism_rate" (.numberBetween 0 1) usual.elitismRate
    let tournament? ← fields.defaulted "tournament_size" (.naturalFrom 1) usual.tournamentSize
    let scale? ← fields.defaulted "mutation_scale" (.numberAbove 0) usual.mutationScale
    let decay? ← fields.defaulted "mutation_decay" (.numberAboveUpTo 0 1) usual.mutationDecay
    let penalty? ← fields.defaulted "penalty_coefficient" (.numberAbove 0) usual.penaltyCoefficient
    let alternatives? ← fields.defaulted "alternatives_count" (.naturalFrom 0) usual.alternativesCount
    return do
      return ⟨← shared?, ← size?, ← crossover?, ← mutation?, ← elitism?, ← tournament?, ← scale?,
        ← decay?, ← penalty?, ← alternatives?⟩

/-- What an evolutionary strategy adds to the shared parameters. -/
def ownFields {α : Type} (parameters : GeneticParameters α) : List (String × Document α) :=
  [("population_size", .natural parameters.populationSize),
   ("crossover_rate", .number parameters.crossoverRate),
   ("mutation_rate", .number parameters.mutationRate),
   ("elitism_rate", .number parameters.elitismRate),
   ("tournament_size", .natural parameters.tournamentSize),
   ("mutation_scale", .number parameters.mutationScale),
   ("mutation_decay", .number parameters.mutationDecay),
   ("penalty_coefficient", .number parameters.penaltyCoefficient),
   ("alternatives_count", .natural parameters.alternativesCount)]

end GeneticParameters

namespace BacktrackingParameters

/-- The parameters of backtracking. -/
def decoder : Decoder (BacktrackingParameters Float) :=
  .record fun fields => do
    let shared? ← SharedParameters.decodeFor .backtracking fields 1000
    let ordering? ← fields.defaulted "value_ordering" (.labelled .unknownLiteral) .ascending
    let steps? ← fields.defaulted "continuous_steps" (.naturalFrom 2) 101
    let exhaustive? ← fields.defaulted "exhaustive" .boolean false
    return do return ⟨← shared?, ← ordering?, ← steps?, ← exhaustive?⟩

end BacktrackingParameters

namespace Parameters

/-- The parameters of a strategy. -/
def decoder : Algorithm → Decoder (Parameters Float)
  | .backtracking => fun place document => do
    return (← BacktrackingParameters.decoder place document).map .backtracking
  | .genetic => fun place document => do
    return (← GeneticParameters.decoder .genetic 1000 place document).map .genetic
  | .pareto => fun place document => do
    return (← GeneticParameters.decoder .pareto 200 place document).map .pareto
  | .linearProgramming => .record fun fields => do
    let shared? ← SharedParameters.decodeFor .linearProgramming fields 1000
    let partial? ← fields.defaulted "allow_partial" .boolean false
    let penalty? ← fields.defaulted "unmet_penalty" (.numberFrom 0) 1000000
    return do return .linearProgramming ⟨← shared?, ← partial?, ← penalty?⟩
  | .routing => .record fun fields => do
    let shared? ← SharedParameters.decodeFor .routing fields 1000
    let search? ← fields.defaulted "local_search" .boolean true
    let speed? ← fields.defaulted "average_speed" (.numberAbove 0) 50
    return do return .routing ⟨← shared?, ← search?, ← speed?⟩
  | .scheduling => .record fun fields => do
    let shared? ← SharedParameters.decodeFor .scheduling fields 1000
    let candidates? ← fields.defaulted "max_candidates" (.naturalFrom 1) 3
    return do return .scheduling ⟨← shared?, ← candidates?⟩

/-- What a strategy adds to the shared parameters. -/
def ownFields {α : Type} : Parameters α → List (String × Document α)
  | .backtracking value =>
    [("value_ordering", .labelled value.valueOrdering),
     ("continuous_steps", .natural value.gridSteps), ("exhaustive", .boolean value.exhaustive)]
  | .genetic value => value.ownFields
  | .pareto value => value.ownFields
  | .linearProgramming value =>
    [("allow_partial", .boolean value.allowPartial), ("unmet_penalty", .number value.unmetPenalty)]
  | .routing value =>
    [("local_search", .boolean value.localSearch), ("average_speed", .number value.averageSpeed)]
  | .scheduling value => [("max_candidates", .natural value.maxCandidates)]

/-- The parameters as fields of a document. -/
def fields {α : Type} (parameters : Parameters α) : List (String × Document α) :=
  parameters.shared.fields ++ [("algorithm", .labelled parameters.algorithm)]
    ++ parameters.ownFields

/-- The parameters as a document. -/
def toDocument {α : Type} (parameters : Parameters α) : Document α :=
  .mapping parameters.fields

end Parameters

namespace GivenParameters

/-- Parameters for the strategy that they name. -/
def decoder : Decoder (GivenParameters Float) :=
  .tagged "algorithm" fun name =>
    (Labelled.ofLabel? name).map fun algorithm : Algorithm => fun place document => do
      let parameters? ← Parameters.decoder algorithm place document
      return parameters?.map fun parameters =>
        let names := parameters.fields.map (·.1)
        ⟨parameters, names.filter fun field => document.hasField field⟩

/-- The parameters that were given, as fields of a document. -/
def givenFields {α : Type} (given : GivenParameters α) : List (String × Document α) :=
  given.parameters.fields.filter fun field => given.given.contains field.1

end GivenParameters

namespace Problem

/-- The fields of every problem, given the kind of a problem that names none. -/
def decode (closures : Closures) (fields : Decoder.Fields) (usualKind : ProblemKind) :
    Decode (Option (Problem Float)) := do
  let identifier? ← fields.identifier "problem_id"
  let name? ← fields.required "name" .text
  let kind? ← fields.defaulted "problem_type" .choice usualKind
  let description? ← fields.textOr "description" ""
  let objectives? ← fields.listOf "objectives" (Objective.decoder closures)
  let constraints? ← fields.listOf "constraints" (Constraint.decoder closures)
  let decisions? ← fields.listOf "variables" Variable.decoder
  let parameters? ← fields.optional "parameters" GivenParameters.decoder
  let status? ← fields.defaulted "status" .choice .pending
  return do
    return ⟨← identifier?, ← name?, ← kind?, ← description?, ← objectives?, ← constraints?,
      ← decisions?, ← parameters?, ← status?⟩

/-- A problem. -/
def decoder (closures : Closures) : Decoder (Problem Float) :=
  .record fun fields => decode closures fields .constraintSatisfaction

/-- A problem as fields of a document. -/
def fields {α : Type} (problem : Problem α) : List (String × Document α) :=
  [("problem_id", .text problem.identifier), ("name", .text problem.name),
   ("problem_type", .labelled problem.kind), ("description", .text problem.description),
   ("objectives", .listOf Objective.toDocument problem.objectives),
   ("constraints", .listOf Constraint.toDocument problem.constraints),
   ("variables", .listOf Variable.toDocument problem.decisions),
   ("parameters", .optional (fun given => given.parameters.toDocument) problem.parameters),
   ("status", .labelled problem.status)]

/-- A problem as a document. -/
def toDocument {α : Type} (problem : Problem α) : Document α :=
  .mapping problem.fields

end Problem

end Optima
