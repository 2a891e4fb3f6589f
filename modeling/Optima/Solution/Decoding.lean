import Optima.Problem.Decoding
import Optima.Solution.Basic
import Optima.Solution.Timestamp

namespace Optima

/-!
# Solutions in documents

A solution that leaves the library gets an identifier and the moment at which it
was made; so do the alternatives get identifiers.  `Record` is a solution together
with these.
-/

/-- A solution with its identifiers and the moment at which it was made. -/
structure Record where
  identifier : String
  createdAt : Timestamp
  solution : Solution Float
  /-- The identifiers of the alternatives in order. -/
  alternativeIdentifiers : List String
  deriving Repr

namespace Violation

/-- A violation. -/
def decoder : Decoder (Violation Float) :=
  .record fun fields => do
    let identifier? ← fields.required "constraint_id" .text
    let magnitude? ← fields.required "violation" .number
    let severity? ← fields.required "severity" .choice
    let message? ← fields.optional "message" .text
    return do
      return ⟨← identifier?, ← magnitude?, ← severity?, (← message?).map .stated⟩

/-- A violation as a document. -/
def toDocument (violation : Violation Float) : Document Float :=
  .mapping [("constraint_id", .text violation.identifier),
    ("violation", .number violation.magnitude), ("severity", .labelled violation.severity),
    ("message", .optional (fun reason => .text reason.message) violation.reason)]

end Violation

namespace ConvergencePoint

/-- A point of the history. -/
def decoder : Decoder (ConvergencePoint Float) :=
  .record fun fields => do
    let iteration? ← fields.required "iteration" .integer
    let value? ← fields.required "objective_value" .number
    let violation? ← fields.required "constraint_violation" .number
    let elapsed? ← fields.defaulted "elapsed" .number 0
    return do return ⟨← iteration?, ← value?, ← violation?, ← elapsed?⟩

/-- A point of the history as a document. -/
def toDocument {α : Type} (point : ConvergencePoint α) : Document α :=
  .mapping [("iteration", .integer point.iteration),
    ("objective_value", .number point.objectiveValue),
    ("constraint_violation", .number point.constraintViolation),
    ("elapsed", .number point.elapsed)]

end ConvergencePoint

namespace SearchAccount

/-- An account of the search. -/
def decoder : Decoder (SearchAccount Float) :=
  .record fun fields => do
    let algorithm? ← fields.required "algorithm" .text
    let iterations? ← fields.defaulted "iterations" .integer 0
    let runtime? ← fields.defaulted "runtime" .number 0
    let history? ← fields.listOf "convergence_history" ConvergencePoint.decoder
    let details? ← fields.defaulted "algorithm_specific" (.table .any) {}
    return do return ⟨← algorithm?, ← iterations?, ← runtime?, ← history?, ← details?⟩

/-- An account of the search as a document. -/
def toDocument {α : Type} (account : SearchAccount α) : Document α :=
  .mapping [("algorithm", .text account.algorithm), ("iterations", .integer account.iterations),
    ("runtime", .number account.runtime),
    ("convergence_history", .listOf ConvergencePoint.toDocument account.history),
    ("algorithm_specific", .ofTable account.details)]

end SearchAccount

namespace Alternative

/-- An alternative with its identifier. -/
def decoder : Decoder (String × Alternative Float) :=
  .record fun fields => do
    let identifier? ← fields.identifier "solution_id"
    let rank? ← fields.required "rank" .integer
    let objectives? ← fields.defaulted "objective_values" (.table .number) {}
    let decisions? ← fields.defaulted "variable_values" (.table Datum.decoder) {}
    let fitness? ← fields.optional "fitness" .number
    let violation? ← fields.defaulted "constraint_violation" .number 0
    let domination? ← fields.defaulted "domination_count" .integer 0
    let crowding? ← fields.defaulted "crowding_distance" .number 0
    return do
      return (← identifier?,
        ⟨← rank?, ← objectives?, ← decisions?, ← fitness?, ← violation?, ← domination?,
          ← crowding?⟩)

/-- An alternative as a document. -/
def toDocument {α : Type} (identifier : String) (alternative : Alternative α) : Document α :=
  .mapping [("solution_id", .text identifier), ("rank", .integer alternative.rank),
    ("objective_values", .tableOf .number alternative.objectiveValues),
    ("variable_values", .tableOf Datum.toDocument alternative.variableValues),
    ("fitness", .optional .number alternative.fitness),
    ("constraint_violation", .number alternative.constraintViolation),
    ("domination_count", .integer alternative.dominationCount),
    ("crowding_distance", .number alternative.crowdingDistance)]

end Alternative

/-- How far something may move, as two fields of a document. -/
def allowableFields {α : Type} (increase decrease : Option α) : List (String × Document α) :=
  [("allowable_increase", .optional .number increase),
   ("allowable_decrease", .optional .number decrease)]

/-- What an objective is worth as a document. -/
def ObjectiveSensitivity.toDocument {α : Type} (account : ObjectiveSensitivity α) : Document α :=
  .mapping ([("objective_id", .text account.identifier),
      ("shadow_price", .number account.shadowPrice)]
    ++ allowableFields account.allowableIncrease account.allowableDecrease)

/-- What a constraint is worth as a document. -/
def ConstraintSensitivity.toDocument {α : Type} (account : ConstraintSensitivity α) : Document α :=
  .mapping ([("constraint_id", .text account.identifier),
      ("shadow_price", .number account.shadowPrice), ("slack", .number account.slack)]
    ++ allowableFields account.allowableIncrease account.allowableDecrease)

/-- What moving a variable costs as a document. -/
def VariableSensitivity.toDocument {α : Type} (account : VariableSensitivity α) : Document α :=
  .mapping ([("variable_id", .text account.identifier),
      ("reduced_cost", .number account.reducedCost)]
    ++ allowableFields account.allowableIncrease account.allowableDecrease)

namespace Sensitivity

/-- What an objective is worth. -/
def objectiveDecoder : Decoder (ObjectiveSensitivity Float) :=
  .record fun fields => do
    let identifier? ← fields.required "objective_id" .text
    let price? ← fields.required "shadow_price" .number
    let increase? ← fields.optional "allowable_increase" .number
    let decrease? ← fields.optional "allowable_decrease" .number
    return do return ⟨← identifier?, ← price?, ← increase?, ← decrease?⟩

/-- What a constraint is worth. -/
def constraintDecoder : Decoder (ConstraintSensitivity Float) :=
  .record fun fields => do
    let identifier? ← fields.required "constraint_id" .text
    let price? ← fields.required "shadow_price" .number
    let slack? ← fields.required "slack" .number
    let increase? ← fields.optional "allowable_increase" .number
    let decrease? ← fields.optional "allowable_decrease" .number
    return do return ⟨← identifier?, ← price?, ← slack?, ← increase?, ← decrease?⟩

/-- What moving a variable costs. -/
def variableDecoder : Decoder (VariableSensitivity Float) :=
  .record fun fields => do
    let identifier? ← fields.required "variable_id" .text
    let cost? ← fields.required "reduced_cost" .number
    let increase? ← fields.optional "allowable_increase" .number
    let decrease? ← fields.optional "allowable_decrease" .number
    return do return ⟨← identifier?, ← cost?, ← increase?, ← decrease?⟩

/-- Prices and ranges. -/
def decoder : Decoder (Sensitivity Float) :=
  .record fun fields => do
    let objectives? ← fields.listOf "objective_sensitivity" objectiveDecoder
    let constraints? ← fields.listOf "constraint_sensitivity" constraintDecoder
    let decisions? ← fields.listOf "variable_sensitivity" variableDecoder
    return do return ⟨← objectives?, ← constraints?, ← decisions?⟩

/-- Prices and ranges as a document. -/
def toDocument {α : Type} (sensitivity : Sensitivity α) : Document α :=
  .mapping
    [("objective_sensitivity", .listOf ObjectiveSensitivity.toDocument sensitivity.objectives),
     ("constraint_sensitivity", .listOf ConstraintSensitivity.toDocument sensitivity.constraints),
     ("variable_sensitivity", .listOf VariableSensitivity.toDocument sensitivity.decisions)]

end Sensitivity

namespace Timestamp

/-- A moment. -/
def decoder : Decoder Timestamp :=
  .ofReader fun
    | .text written =>
      match ofText? written with
      | some timestamp => .ok timestamp
      | none => .error .timestampParsing
    | _ => .error .timestampType

end Timestamp

namespace Record

/-- A solution with its identifiers; the moment is given unless the document has one. -/
def decoder (now : Timestamp) : Decoder Record :=
  .record fun fields => do
    let identifier? ← fields.identifier "solution_id"
    let problem? ← fields.required "problem_id" .text
    let status? ← fields.required "status" .choice
    let objectives? ← fields.defaulted "objective_values" (.table .number) {}
    let decisions? ← fields.defaulted "variable_values" (.table Datum.decoder) {}
    let violations? ← fields.listOf "constraint_violations" Violation.decoder
    let account? ← fields.required "metadata" SearchAccount.decoder
    let alternatives? ← fields.listOf "alternatives" Alternative.decoder
    let sensitivity? ← fields.defaulted "sensitivity" Sensitivity.decoder .empty
    let created? ← fields.defaulted "created_at" Timestamp.decoder now
    return do
      let alternatives ← alternatives?
      let solution : Solution Float :=
        ⟨← problem?, ← status?, ← objectives?, ← decisions?, ← violations?, ← account?,
          alternatives.map (·.2), ← sensitivity?⟩
      return ⟨← identifier?, ← created?, solution, alternatives.map (·.1)⟩

/-- A solution with its identifiers as a document. -/
def toDocument (record : Record) : Document Float :=
  let solution := record.solution
  .mapping [("solution_id", .text record.identifier), ("problem_id", .text solution.problem),
    ("status", .labelled solution.status),
    ("objective_values", .tableOf .number solution.objectiveValues),
    ("variable_values", .tableOf Datum.toDocument solution.variableValues),
    ("constraint_violations", .listOf Violation.toDocument solution.violations),
    ("metadata", solution.account.toDocument),
    ("alternatives", .list ((record.alternativeIdentifiers.zip solution.alternatives).map
      fun (identifier, alternative) => alternative.toDocument identifier)),
    ("sensitivity", solution.sensitivity.toDocument),
    ("created_at", .text record.createdAt.render)]

/-- Give fresh identifiers and a moment to a solution. -/
def stamp (supply : Supply) (now : Timestamp) (solution : Solution Float) : Record × Supply :=
  let count := solution.alternatives.length
  let (fresh, others) := supply.reserve count
  let (identifier, rest) := others.next
  (⟨identifier, now, solution, (List.range count).map fresh⟩, rest)

end Record

end Optima
