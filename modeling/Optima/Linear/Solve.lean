import Optima.Linear.Relaxation
import Optima.Problem.Feasibility
import Optima.Problem.Sensitivity
import Optima.Search.Watch

namespace Optima

/-!
# Linear programming

A problem with linear objectives and constraints is solved exactly, and its
solution carries the prices of the rows and the reduced costs of the variables.
Prices are per unit of the target and in units of the weighted cost.  A program
with whole numbers has no prices.
-/

namespace LinearProgramming

variable {α : Type}

/-- Where the prices and bounds of a solved program are looked up. -/
structure Pricing (α : Type) where
  program : LinearProgram Rat
  /-- The price of the row of each constraint by identifier. -/
  prices : Table Rat
  /-- The reduced cost of each variable by name. -/
  reduced : Table Rat
  tolerance : α

namespace Pricing

/-- The reduced cost of a variable: its cost less the prices of the rows that it is in. -/
def reducedCost (program : LinearProgram Rat) (prices : List Rat) (name : String) : Rat :=
  program.objective.coefficientOf name
    - Fractions.total ((program.rows.zip prices).map fun (row, price) =>
        row.form.coefficientOf name * price)

/-- The pricing of a point; of constraints that share an identifier the last one counts. -/
def ofPoint [Scalar α] (problem : Problem α) (program : LinearProgram Rat) (point : LinearPoint)
    (tolerance : α) : Pricing α :=
  let isMixed := program.isMixed
  let prices := if isMixed then point.prices.map fun _ => 0 else point.prices
  { program := program
    prices := Table.ofList ((problem.constraints.map (·.identifier)).zip prices)
    reduced := ⟨program.columns.names.map fun name =>
      (name, if isMixed then 0 else reducedCost program prices name)⟩
    tolerance := tolerance }

variable [Scalar α]

/-- A fraction of a table as a number; zero where there is none. -/
def numberAt (table : Table Rat) (name : String) : α :=
  Scalar.ofRat ((table.get? name).getD 0)

/-- The account of a constraint. -/
def ofConstraint (pricing : Pricing α) (assignment : Assignment α) (constraint : Constraint α) :
    Except (EvalFailure α) (ConstraintSensitivity α) := do
  let tolerance :=
    Scalar.larger (constraint.toleranceOr pricing.tolerance) (Scalar.decimal 1 9)
  let slack := constraint.slackOf (← constraint.evaluate assignment) tolerance
  let price : α := numberAt pricing.prices constraint.identifier
  if constraint.comparison != .equal && tolerance < Scalar.magnitude slack then
    return { constraint.withSlack slack with shadowPrice := price }
  else return ⟨constraint.identifier, price, slack, none, none⟩

/-- The accounts of constraints. -/
def ofConstraints (pricing : Pricing α) (assignment : Assignment α) :
    List (Constraint α) → Except (EvalFailure α) (List (ConstraintSensitivity α))
  | [] => .ok []
  | constraint :: rest => do
    let account ← ofConstraint pricing assignment constraint
    let others ← ofConstraints pricing assignment rest
    return account :: others

/-- The account of a variable at a value, with the bounds of its column. -/
def ofVariable (pricing : Pricing α) (columns : Table (Column α)) (value : α)
    (decision : Variable α) : VariableSensitivity α :=
  let column? := columns.get? decision.name
  let increase := match column?.bind (·.upper) with
    | none => Scalar.infinity
    | some upper => Scalar.larger (upper - value) 0
  let decrease := match column?.bind (·.lower) with
    | none => Scalar.infinity
    | some lower => Scalar.larger (value - lower) 0
  ⟨decision.identifier, numberAt pricing.reduced decision.name, some increase, some decrease⟩

end Pricing

/-- What is said of every solve. -/
def details (more : List (String × Document α)) : Table (Document α) :=
  Table.ofList (("backend", .text "CBC") :: more)

/-- A solution without values. -/
def withoutValues (problem : Problem α) (status : SolutionStatus) (runtime : α)
    (violations : List (Violation α)) (more : List (String × Document α)) : Solution α :=
  { Solution.bare problem.identifier status
      ⟨label Algorithm.linearProgramming, 0, runtime, [], details more⟩ with
    violations := violations }

/-- The status that an ending without a point has. -/
def statusWithoutPoint : LinearEnding → SolutionStatus
  | .unbounded => .unbounded
  | .undecided => .timeLimit
  | _ => .infeasible

variable [Scalar α]

/-- The decoded values of variables. -/
def decodedInto (values : Table α) :
    Table (Datum α) → List (Variable α) → Except Breakdown (Table (Datum α))
  | decoded, [] => .ok decoded
  | decoded, decision :: rest => do
    let value ← decision.decode ((values.get? decision.name).getD 0)
    decodedInto values (decoded.insert decision.name value) rest

/-- The solution of a problem at a point of its program. -/
def solutionAt (problem : Problem α) (program : LinearProgram α) (point : LinearPoint)
    (tolerance elapsed : α) : Except (SolveFailure α) (Solution α) := do
  let values : Table α := point.values.map Scalar.ofRat
  let assignment : Assignment α := values.map .number
  let objectiveValues ← settled (Objectives.values problem.objectives assignment)
  let violations ← settled (Constraints.violations tolerance assignment problem.constraints)
  let decoded ← (decodedInto values {} problem.decisions).mapError .broken
  let pricing := Pricing.ofPoint problem program.exact point tolerance
  let constraints ← settled (pricing.ofConstraints assignment problem.constraints)
  let cost := Objectives.cost problem.objectives objectiveValues
  let total := Scalar.total (violations.map (·.magnitude))
  return {
    problem := problem.identifier
    status := .optimal
    objectiveValues := objectiveValues
    variableValues := decoded
    violations := violations
    account :=
      { algorithm := label Algorithm.linearProgramming
        iterations := 1
        runtime := elapsed
        history := [⟨1, cost, total, elapsed⟩]
        details := details [("lp_status", .text (LinearEnding.optimal point).name),
          ("mixed_integer", .boolean program.isMixed)] }
    alternatives := []
    sensitivity :=
      { objectives := Sensitivity.ofObjectives problem.objectives objectiveValues
        constraints := constraints
        decisions := problem.decisions.map fun decision =>
          pricing.ofVariable program.columns ((values.get? decision.name).getD 0) decision } }

/-- Solve a problem by linear programming. -/
def solve (problem : Problem α) (parameters : LinearProgrammingParameters α) (watch : Watch α) :
    Except (SolveFailure α) (Solution α) := do
  let (isCancelled, looked) := watch.lookAtFlag
  if isCancelled then return withoutValues problem .cancelled 0 [] []
  else
    let program ← LinearProgram.ofProblem problem parameters.tolerance
    let elapsed := looked.lookAtClock.1
    match program.exact.solve with
    | .optimal point => solutionAt problem program point parameters.tolerance elapsed
    | ending =>
      return withoutValues problem (statusWithoutPoint ending) elapsed []
        [("lp_status", .text ending.name)]

end LinearProgramming

end Optima
