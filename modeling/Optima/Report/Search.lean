import Optima.Evolution.Pareto
import Optima.Problem.Decoding
import Optima.Search.Candidates
import Optima.Solution.Decoding

namespace Optima

/-!
# Reports on searches

What bound propagation, a search space, a candidate and a layered population look
like as documents.
-/

/-- A comparison of one variable with a constant, as a document. -/
def SingleTerm.toDocument {α : Type} (term : SingleTerm α) : Document α :=
  .list [.text term.name, .number term.coefficient, .number term.constant]

/-- How far bounds contradict each other, as a document. -/
def Conflict.toDocument {α : Type} [Scalar α] (conflict : Conflict α) : Document α :=
  if conflict.whole then .integer (((Scalar.toRat? conflict.gap).map Rat.floor).getD 0)
  else .number conflict.gap

/-- Intervals after propagation as a document. -/
def Reduction.toDocument {α : Type} [Scalar α] (reduction : Reduction α) : Document α :=
  .mapping [("bounds", .tableOf .interval reduction.bounds),
    ("fixed", .tableOf .number reduction.fixed),
    ("conflicts", .tableOf Conflict.toDocument reduction.conflicts),
    ("consistent", .boolean reduction.isConsistent)]

/-- What the values of objectives amount to, as a document. -/
def Objectives.report {α : Type} [Scalar α] (objectives : List (Objective α)) (values : Table α) :
    Document α :=
  .mapping [("values", .tableOf .number values),
    ("score", .number (Objectives.score objectives values)),
    ("cost", .number (Objectives.cost objectives values)),
    ("minimize", .numbers (Objectives.minimizationVector objectives values))]

namespace Candidates

/-- A search space as a document. -/
def toDocument {α : Type} [Scalar α] (candidates : Candidates α) :
    Except (EvalFailure α) (Document α) := do
  let thresholds ← candidates.names.mapM fun name => do
    return (name, Document.numbers (← candidates.thresholds name))
  return .mapping [("size", .natural candidates.size), ("lower", .numbers candidates.lower),
    ("upper", .numbers candidates.upper), ("discrete", .listOf .boolean candidates.discrete),
    ("thresholds", .mapping thresholds),
    ("threshold_vectors", .listOf .numbers (← candidates.thresholdVectors))]

/-- All that is known of a vector, as a document. -/
def report (candidates : Candidates Float) (vector : List Float) :
    Except Breakdown (Document Float) := do
  let found ← candidates.evaluate vector
  return .mapping [("repaired", .numbers (candidates.repair vector)),
    ("objectives", .tableOf .number found.objectiveValues),
    ("violation", .number found.violation), ("score", .number found.score),
    ("feasible", .boolean found.isFeasible),
    ("trace", .number (← candidates.traceValue found.score)),
    ("minimize", .numbers (candidates.minimizationVector found)),
    ("violations", .listOf Violation.toDocument (← candidates.violations vector)),
    ("decoded", .tableOf Datum.toDocument (← candidates.decode vector))]

end Candidates

/-- A layered population as a document. -/
def Layering.toDocument {α : Type} [Scalar α] (layering : Layering α) : Document α :=
  .mapping [("rank", .naturals layering.ranks), ("crowding", .numbers layering.crowding),
    ("dominated", .naturals layering.dominated), ("score", .numbers layering.selectionScores)]

end Optima
