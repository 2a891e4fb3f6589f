import Optima.Linear.Program
import Optima.Linear.Simplex

namespace Optima

/-!
# Relaxations

A linear program in exact fractions is brought to standard form: every variable
becomes an offset and one or two nonnegative parts, every row and every upper
limit of a part an equation with a slack.  That whole numbers are asked for is
left aside here.
-/

namespace Column

variable {α : Type} [Scalar α]

/-- A column in fractions; an infinite bound is none. -/
def exact (column : Column α) : Column Rat :=
  ⟨column.lower.bind Scalar.toRat?, column.upper.bind Scalar.toRat?, column.whole⟩

end Column

namespace LinearForm

variable {α : Type} [Scalar α]

/-- A linear form in fractions. -/
def exact (form : LinearForm α) : LinearForm Rat :=
  ⟨form.coefficients.map fun value => (Scalar.toRat? value).getD 0,
    (Scalar.toRat? form.constant).getD 0⟩

/-- The coefficient of a name; zero where it has none. -/
def coefficientOf (form : LinearForm Rat) (name : String) : Rat :=
  (form.coefficients.get? name).getD 0

end LinearForm

namespace Row

variable {α : Type} [Scalar α]

/-- The row that always holds. -/
def idle : Row Rat := ⟨⟨{}, 0⟩, .atMost, 0⟩

/-- The row that never holds. -/
def impossible : Row Rat := ⟨⟨{}, 0⟩, .atMost, -1⟩

/-- A row in fractions; an infinite target makes it hold always or never. -/
def exact (row : Row α) : Row Rat :=
  match Scalar.toRat? row.target with
  | some target => ⟨row.form.exact, row.sense, target⟩
  | none =>
    match row.sense with
    | .equal => impossible
    | .atMost => if 0 < row.target then idle else impossible
    | .atLeast => if row.target < 0 then idle else impossible

end Row

namespace LinearProgram

variable {α : Type} [Scalar α]

/-- A linear program in fractions. -/
def exact (program : LinearProgram α) : LinearProgram Rat where
  columns := program.columns.map Column.exact
  objective := program.objective.exact
  rows := program.rows.map Row.exact

end LinearProgram

/-- How a variable is made of nonnegative parts. -/
structure Makeup where
  offset : Rat
  /-- The sign with which each part counts. -/
  signs : List Rat
  /-- The largest value of the only part. -/
  limit : Option Rat
  deriving Repr

namespace Makeup

/-- The makeup of a column: counted up from its lower bound, or else down from its upper one. -/
def ofColumn (column : Column Rat) : Makeup :=
  match column.lower, column.upper with
  | some lower, some upper => ⟨lower, [1], some (upper - lower)⟩
  | some lower, none => ⟨lower, [1], none⟩
  | none, some upper => ⟨upper, [-1], none⟩
  | none, none => ⟨0, [1, -1], none⟩

/-- The coefficients of the parts, given that of the variable. -/
def spread (makeup : Makeup) (coefficient : Rat) : List Rat :=
  makeup.signs.map (· * coefficient)

/-- The value of the variable, given those of all parts from its first one on, and the others. -/
def value (makeup : Makeup) (parts : List Rat) : Rat × List Rat :=
  let count := makeup.signs.length
  (makeup.offset + Fractions.total (List.zipWith (· * ·) makeup.signs (parts.take count)), parts.drop count)

/-- The values of variables, given those of all parts. -/
def values : List (String × Makeup) → List Rat → List (String × Rat)
  | [], _ => []
  | (name, makeup) :: rest, parts =>
    let (value, others) := makeup.value parts
    (name, value) :: values rest others

end Makeup

/-- A row over parts: its coefficients, the coefficient of its slack and its right-hand side. -/
structure PartRow where
  coefficients : List Rat
  slack : Rat
  target : Rat
  deriving Repr

namespace PartRow

/-- The coefficient of the slack of a row. -/
def slackOf : RowSense → Rat
  | .equal => 0
  | .atMost => 1
  | .atLeast => -1

/-- A row over the parts of the variables. -/
def ofRow (makeups : List (String × Makeup)) (row : Row Rat) : PartRow where
  coefficients := makeups.flatMap fun (name, makeup) => makeup.spread (row.form.coefficientOf name)
  slack := slackOf row.sense
  target := row.target - row.form.constant
    - Fractions.total (makeups.map fun (name, makeup) =>
        row.form.coefficientOf name * makeup.offset)

/-- The row that keeps the only part of one variable within its limit, if it has one. -/
def ofLimit (makeups : List (String × Makeup)) (name : String) (makeup : Makeup) :
    Option PartRow :=
  makeup.limit.map fun limit =>
    ⟨makeups.flatMap fun (other, parts) => parts.spread (if other == name then 1 else 0), 1, limit⟩

/-- The equation of a row, which has a slack of its own among all slacks. -/
def equation (count position : Nat) (row : PartRow) : StandardEquation where
  target := row.target
  coefficients := row.coefficients
    ++ (StandardProgram.unitRow count position).map (· * row.slack)
  slack := row.coefficients.length + position

end PartRow

/-- A point of a linear program. -/
structure LinearPoint where
  values : Table Rat
  /-- The price of each row. -/
  prices : List Rat
  cost : Rat
  deriving Repr

/-- How the relaxation of a linear program ends. -/
inductive RelaxedEnding where
  | optimal (point : LinearPoint)
  | infeasible
  | unbounded
  deriving Repr

namespace LinearProgram

/-- The cost of a point. -/
def costAt (program : LinearProgram Rat) (values : Table Rat) : Rat :=
  program.objective.constant
    + Fractions.total (program.objective.coefficients.entries.map fun (name, coefficient) =>
        coefficient * (values.get? name).getD 0)

/-- The columns with their makeups. -/
def makeups (program : LinearProgram Rat) : List (String × Makeup) :=
  program.columns.entries.map fun (name, column) => (name, Makeup.ofColumn column)

/-- A linear program in standard form; its own rows come first. -/
def standardProgram (program : LinearProgram Rat) : StandardProgram :=
  let makeups := program.makeups
  let rows := program.rows.map (PartRow.ofRow makeups)
    ++ makeups.filterMap fun (name, makeup) => PartRow.ofLimit makeups name makeup
  let costs := makeups.flatMap fun (name, makeup) =>
    makeup.spread (program.objective.coefficientOf name)
  ⟨costs ++ List.replicate rows.length 0,
    rows.zipIdx.map fun (row, position) => row.equation rows.length position⟩

/-- Solve a linear program without asking for whole numbers. -/
def relaxed (program : LinearProgram Rat) : RelaxedEnding :=
  match program.standardProgram.solve with
  | .infeasible => .infeasible
  | .unbounded => .unbounded
  | .optimal parts prices =>
    let values : Table Rat := ⟨Makeup.values program.makeups parts⟩
    .optimal ⟨values, prices.take program.rows.length, program.costAt values⟩

end LinearProgram

/-!
## Branching on whole numbers

Where the relaxation gives a fraction to a variable that takes whole numbers only,
the program is split in two: below the fraction and above it.  A part whose
relaxation is no better than the best point so far is dropped.
-/

/-- How a linear program ends. -/
inductive LinearEnding where
  | optimal (point : LinearPoint)
  | infeasible
  | unbounded
  /-- The limit on the number of parts was reached. -/
  | undecided
  deriving Repr

namespace LinearEnding

/-- The name of an ending. -/
def name : LinearEnding → String
  | .optimal _ => "Optimal"
  | .infeasible => "Infeasible"
  | .unbounded => "Unbounded"
  | .undecided => "Not Solved"

end LinearEnding

namespace LinearProgram

/-- The first variable that has a fraction but takes whole numbers only. -/
def fractional? (program : LinearProgram Rat) (point : LinearPoint) : Option (String × Rat) :=
  point.values.entries.find? fun (name, value) =>
    ((program.columns.get? name).map (·.whole)).getD false && value.den != 1

/-- The part of a program where a variable is at most a number. -/
def below (program : LinearProgram Rat) (name : String) (limit : Rat) : LinearProgram Rat :=
  match program.columns.get? name with
  | none => program
  | some column =>
    { program with columns := program.columns.insert name { column with upper := some limit } }

/-- The part of a program where a variable is at least a number. -/
def above (program : LinearProgram Rat) (name : String) (limit : Rat) : LinearProgram Rat :=
  match program.columns.get? name with
  | none => program
  | some column =>
    { program with columns := program.columns.insert name { column with lower := some limit } }

/-- Whether a point is better than the best one so far. -/
def improves (point : LinearPoint) : Option LinearPoint → Bool
  | none => true
  | some best => decide (point.cost < best.cost)

/-- Go through parts of a program; none if the first argument does not suffice for all of them. -/
def explore : Nat → List (LinearProgram Rat) → Option LinearPoint → Option (Option LinearPoint)
  | _, [], best? => some best?
  | 0, _ :: _, _ => none
  | limit + 1, part :: others, best? =>
    match part.relaxed with
    | .infeasible | .unbounded => explore limit others best?
    | .optimal point =>
      if !improves point best? then explore limit others best?
      else
        match part.fractional? point with
        | none => explore limit others (some point)
        | some (name, value) =>
          explore limit (part.below name value.floor :: part.above name value.ceil :: others) best?

/-- The number of parts that are looked at before the search is given up. -/
def partLimit : Nat := 20000

/-- Solve a linear program. -/
def solve (program : LinearProgram Rat) : LinearEnding :=
  match program.relaxed with
  | .infeasible => .infeasible
  | .unbounded => .unbounded
  | .optimal point =>
    if (program.fractional? point).isNone then .optimal point
    else
      match explore partLimit [program] none with
      | none => .undecided
      | some none => .infeasible
      | some (some best) => .optimal best

end LinearProgram

end Optima
