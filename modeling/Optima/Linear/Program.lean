import Optima.Problem.Basic
import Optima.Problem.Goal

namespace Optima

/-!
# Linear programs

A linear program minimizes a linear form over variables with bounds, subject to
rows that compare a linear form with a number.  The program of a problem minimizes
the weighted cost; a strict comparison becomes a row that asks for a distance of
one tolerance.
-/

/-- How a row compares its linear form with its target. -/
inductive RowSense where
  | equal
  | atMost
  | atLeast
  deriving Repr, DecidableEq

/-- A row of a linear program. -/
structure Row (α : Type) where
  form : LinearForm α
  sense : RowSense
  target : α
  deriving Repr, DecidableEq

/-- A variable of a linear program. -/
structure Column (α : Type) where
  lower : Option α
  upper : Option α
  /-- Whether only whole numbers are allowed. -/
  whole : Bool
  deriving Repr, DecidableEq

/-- A linear program. -/
structure LinearProgram (α : Type) where
  columns : Table (Column α)
  /-- The form that is minimized. -/
  objective : LinearForm α
  rows : List (Row α)
  deriving Repr, DecidableEq

namespace LinearForm

variable {α : Type} [Scalar α]

/-- The value of a linear form on numbers, where a name without one counts as zero. -/
def valueOn (form : LinearForm α) (numbers : String → α) : α :=
  form.coefficients.entries.foldl (fun total entry => total + entry.2 * numbers entry.1)
    form.constant

end LinearForm

namespace Row

variable {α : Type} [Scalar α]

/-- Whether numbers satisfy a row. -/
def Holds (row : Row α) (numbers : String → α) : Prop :=
  match row.sense with
  | .equal => row.form.valueOn numbers = row.target
  | .atMost => row.form.valueOn numbers ≤ row.target
  | .atLeast => row.target ≤ row.form.valueOn numbers

/-- The row of a constraint with a linear left-hand side. -/
def ofConstraint (constraint : Constraint α) (tolerance : α) (form : LinearForm α) : Row α :=
  let margin := constraint.toleranceOr tolerance
  match constraint.comparison with
  | .equal => ⟨form, .equal, constraint.target⟩
  | .atMost => ⟨form, .atMost, constraint.target⟩
  | .below => ⟨form, .atMost, constraint.target - margin⟩
  | .atLeast => ⟨form, .atLeast, constraint.target⟩
  | .above => ⟨form, .atLeast, constraint.target + margin⟩

end Row

namespace Column

variable {α : Type} [Scalar α]

/-- The column of a variable; a truth value is zero or one whatever its bounds say. -/
def ofVariable (decision : Variable α) : Column α :=
  if decision.kind = .binary then ⟨some 0, some 1, true⟩
  else ⟨decision.lower, decision.upper, decision.kind = .integer⟩

end Column

namespace LinearProgram

variable {α : Type}

/-- The message on variables that take no numbers. -/
def categoricalMessage (names : List String) : String :=
  "linear programming does not support categorical variables " ++ quotedList names

/-- The message on a rule that is not linear. -/
def nonlinearMessage (noun name : String) : String :=
  noun ++ " '" ++ name ++ "' is not a linear expression over the variables"

variable [Scalar α]

/-- The linear form of a rule, whose names have to be columns. -/
def formOf (columns : Table (Column α)) (noun name : String) (rule : Rule α) :
    Except (SolveFailure α) (LinearForm α) := do
  match ← settled rule.linearForm? with
  | none => .error (.invalid [nonlinearMessage noun name])
  | some form =>
    match form.coefficients.names.find? fun name => !columns.contains name with
    | some stray => breakDown (.missingName stray)
    | none =>
      if form.coefficients.values.any fun value => !Scalar.isFinite value then
        breakDown .unboundedCoefficient
      else if !Scalar.isFinite form.constant then breakDown .unboundedConstant
      else return form

/-- The weighted sum of objectives as a linear form, for which lower is better. -/
def objectiveOf (columns : Table (Column α)) :
    LinearForm α → List (Objective α) → Except (SolveFailure α) (LinearForm α)
  | total, [] => .ok total
  | total, objective :: rest => do
    let form ← formOf columns "objective" objective.name objective.rule
    let factor := -objective.sense * objective.weight
    if !Scalar.isFinite factor then breakDown .unboundedCoefficient
    else objectiveOf columns (total.add (form.scale factor)) rest

/-- The rows of constraints. -/
def rowsOf (columns : Table (Column α)) (tolerance : α) :
    List (Constraint α) → Except (SolveFailure α) (List (Row α))
  | [] => .ok []
  | constraint :: rest => do
    let form ← formOf columns "constraint" constraint.name constraint.rule
    let others ← rowsOf columns tolerance rest
    return Row.ofConstraint constraint tolerance form :: others

/-- The columns of variables. -/
def columnsOf (decisions : List (Variable α)) : Table (Column α) :=
  Table.ofList (decisions.map fun decision => (decision.name, Column.ofVariable decision))

/-- The linear program of a problem. -/
def ofProblem (problem : Problem α) (tolerance : α) :
    Except (SolveFailure α) (LinearProgram α) := do
  let categorical := (problem.decisions.filter fun decision => decision.kind = .categorical).map
    (·.name)
  if !categorical.isEmpty then .error (.invalid [categoricalMessage categorical])
  else
    let columns := columnsOf problem.decisions
    let objective ← objectiveOf columns (.ofConstant 0) problem.objectives
    let rows ← rowsOf columns tolerance problem.constraints
    return ⟨columns, objective, rows⟩

/-- Whether some column takes whole numbers only. -/
def isMixed (program : LinearProgram α) : Bool :=
  program.columns.values.any (·.whole)

end LinearProgram

end Optima
