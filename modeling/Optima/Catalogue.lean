import Optima.Allocation
import Optima.Configuration.Basic
import Optima.Problem.Any
import Optima.Solution.Decoding

namespace Optima

/-!
# The sorts of documents

Every sort of document has a name.  To complete a document is to check it and to
write it back with everything that it leaves out filled in.
-/

namespace Catalogue

/-- A decoder that writes back what it decodes. -/
def completing {β : Type} (write : β → Document Float) (decoder : Decoder β) :
    Decoder (Document Float) :=
  fun place document => do return (← decoder place document).map write

/-- The parameters of the strategies. -/
def parameterSorts : List (String × Decoder (Document Float)) :=
  let of (algorithm : Algorithm) : Decoder (Document Float) :=
    completing Parameters.toDocument (Parameters.decoder algorithm)
  let shared : Decoder (SharedParameters Float) :=
    .record fun fields => SharedParameters.decode fields 1000
  [("AnySolverParameters",
      completing (fun given => given.parameters.toDocument) GivenParameters.decoder),
   ("SolverParameters", completing (fun shared => .mapping shared.fields) shared),
   ("BacktrackingParameters", of .backtracking), ("GeneticParameters", of .genetic),
   ("ParetoParameters", of .pareto), ("LinearProgrammingParameters", of .linearProgramming),
   ("RoutingParameters", of .routing), ("SchedulingParameters", of .scheduling),
   ("ConvergenceCriteria", completing Convergence.toDocument Convergence.decoder),
   ("ParallelizationConfig", completing Parallelization.toDocument Parallelization.decoder)]

/-- Expressions of any kind and of one kind. -/
def expressionSorts : List (String × Decoder (Document Float)) :=
  let kinds : List (String × String) :=
    [("Constant", "constant"), ("VariableRef", "variable"), ("Linear", "linear"), ("Sum", "sum"),
     ("Product", "product"), ("Power", "power"), ("Absolute", "abs"), ("Condition", "condition")]
  ("Expression", completing Expr.toDocument Expr.decoder)
    :: kinds.filterMap fun (name, kind) =>
      (Expr.decoderOf Expr.decoder kind).map fun decoder =>
        (name, completing Expr.toDocument decoder)

/-- Problems and their parts. -/
def problemSorts (closures : Closures) : List (String × Decoder (Document Float)) :=
  [("Objective", completing Objective.toDocument (Objective.decoder closures)),
   ("Constraint", completing Constraint.toDocument (Constraint.decoder closures)),
   ("Variable", completing Variable.toDocument Variable.decoder),
   ("Problem", completing Problem.toDocument (Problem.decoder closures)),
   ("RouteOptimizationProblem",
      completing RoutingProblem.toDocument (RoutingProblem.decoder closures)),
   ("TimeWindow", completing TimeWindow.toDocument TimeWindow.decoder),
   ("Coordinates", completing Coordinates.toDocument Coordinates.decoder),
   ("Location", completing Location.toDocument Location.decoder),
   ("VehicleCost", completing VehicleCost.toDocument VehicleCost.decoder),
   ("Vehicle", completing Vehicle.toDocument Vehicle.decoder),
   ("Demand", completing Demand.toDocument Demand.decoder),
   ("SchedulingProblem",
      completing SchedulingProblem.toDocument (SchedulingProblem.decoder closures)),
   ("ResourceRequirement", completing Requirement.toDocument Requirement.decoder),
   ("AvailabilityWindow", completing AvailabilityWindow.toDocument AvailabilityWindow.decoder),
   ("Task", completing Task.toDocument Task.decoder),
   ("Resource", completing Resource.toDocument Resource.decoder),
   ("TimeHorizon", completing Horizon.toDocument Horizon.decoder),
   ("SchedulingPreferences", completing Preferences.toDocument Preferences.decoder),
   ("AllocationResource", completing Supplier.toDocument Supplier.decoder),
   ("AllocationDemand", completing Requisition.toDocument Requisition.decoder)]

/-- The configuration and its parts. -/
def configurationSorts : List (String × Decoder (Document Float)) :=
  [("Config", completing Configuration.toDocument Configuration.decoder),
   ("EngineInfoConfig", completing (fun (name, version) =>
      Configuration.engineDocument name version) Configuration.engineDecoder),
   ("LoggingConfig", completing (fun (level, format) =>
      Configuration.loggingDocument level format) Configuration.loggingDecoder),
   ("SolverConfig", completing (fun (default, limit, tolerance, parameters) =>
      Configuration.solversDocument default limit tolerance parameters)
      Configuration.solversDecoder),
   ("StorageConfig", completing (fun (backend, path) =>
      Configuration.storageDocument backend path) Configuration.storageDecoder),
   ("ValidationConfig", completing Configuration.limitsDocument Configuration.limitsDecoder)]

/-- Solutions and their parts. -/
def solutionSorts (now : Timestamp) : List (String × Decoder (Document Float)) :=
  [("OptimizationSolution", completing Record.toDocument (Record.decoder now)),
   ("ConstraintViolation", completing Violation.toDocument Violation.decoder),
   ("ConvergencePoint", completing ConvergencePoint.toDocument ConvergencePoint.decoder),
   ("SolutionMetadata", completing SearchAccount.toDocument SearchAccount.decoder),
   ("AlternativeSolution", completing (fun (identifier, alternative) =>
      alternative.toDocument identifier) Alternative.decoder),
   ("ObjectiveSensitivity",
      completing ObjectiveSensitivity.toDocument Sensitivity.objectiveDecoder),
   ("ConstraintSensitivity",
      completing ConstraintSensitivity.toDocument Sensitivity.constraintDecoder),
   ("VariableSensitivity",
      completing VariableSensitivity.toDocument Sensitivity.variableDecoder),
   ("SensitivityAnalysis", completing Sensitivity.toDocument Sensitivity.decoder)]

/-- How documents of a sort are completed. -/
def decoder? (closures : Closures) (now : Timestamp) (sort : String) :
    Option (Decoder (Document Float)) :=
  (parameterSorts ++ expressionSorts ++ problemSorts closures ++ configurationSorts
    ++ solutionSorts now).lookup sort

end Catalogue

end Optima
