namespace Optima

/-!
# The simplex method

Exact fractions and a full tableau: one row for each constraint with the right-hand
side in front, and a row of reduced costs.  The variable of the smallest reduced cost
enters the basis.  After a pivot that leaves the cost as it was the allowed variable
of the smallest index enters instead, so that no basis comes twice.
-/

/-- The total of fractions. -/
def Fractions.total : List Rat → Rat
  | [] => 0
  | value :: rest => value + total rest

/-- A system of equations solved for the basic variables. -/
structure Tableau where
  /-- For each row the right-hand side and the coefficients. -/
  rows : List (Rat × List Rat)
  /-- For each row its basic variable. -/
  basis : List Nat
  deriving Repr

/-- How the simplex method ends. -/
inductive SimplexEnding where
  | optimal (tableau : Tableau) (reduced : List Rat)
  | unbounded
  deriving Repr

namespace Tableau

/-- A row less a multiple of another. -/
def eliminate (factor : Rat) (pivot row : Rat × List Rat) : Rat × List Rat :=
  (row.1 - factor * pivot.1, List.zipWith (fun entry other => entry - factor * other) row.2 pivot.2)

/-- A row divided by a number. -/
def divide (row : Rat × List Rat) (divisor : Rat) : Rat × List Rat :=
  (row.1 / divisor, row.2.map (· / divisor))

/-- Bring a variable into the basis at a row. -/
def pivot (tableau : Tableau) (position entering : Nat) : Tableau :=
  match tableau.rows[position]? with
  | none => tableau
  | some row =>
    let scaled := divide row (row.2.getD entering 0)
    let rows := tableau.rows.zipIdx.map fun (other, index) =>
      if index = position then scaled else eliminate (other.2.getD entering 0) scaled other
    ⟨rows, tableau.basis.set position entering⟩

/-- The reduced costs of the variables, given their costs. -/
def reducedCosts (tableau : Tableau) (costs : List Rat) : List Rat :=
  (tableau.rows.zip tableau.basis).foldl
    (fun current (row, basic) =>
      List.zipWith (fun cost entry => cost - costs.getD basic 0 * entry) current row.2)
    costs

/-- The first of the allowed variables with a negative reduced cost. -/
def firstEntering? (reduced : List Rat) (allowed : Nat) : Option Nat :=
  (reduced.take allowed).findIdx? fun cost => decide (cost < 0)

/-- The first of the allowed variables with the smallest reduced cost, if that is negative. -/
def steepestEntering? (reduced : List Rat) (allowed : Nat) : Option Nat :=
  let smallest :=
    (reduced.take allowed).foldl (fun least cost => if cost < least then cost else least) 0
  if smallest < 0 then (reduced.take allowed).findIdx? (· == smallest) else none

/-- The variable that enters the basis, given whether the last pivot left the cost as it was. -/
def entering? (stalled : Bool) (reduced : List Rat) (allowed : Nat) : Option Nat :=
  if stalled then firstEntering? reduced allowed else steepestEntering? reduced allowed

/-- How far an entering variable may go before a row is in the way, if it ever is.  A variable
that is held has to stay where it is, whichever way it would move. -/
def quotient? (held : Nat → Bool) (entering : Nat) (row : Rat × List Rat) (basic : Nat) :
    Option Rat :=
  let entry := row.2.getD entering 0
  if 0 < entry || (held basic && entry != 0) then some (row.1 / entry) else none

/-- A row that limits an entering variable. -/
structure Limiting where
  quotient : Rat
  /-- Whether the basic variable of the row may not come back. -/
  isArtificial : Bool
  basic : Nat
  position : Nat
  deriving Repr

/-- Whether a row limits an entering variable before another one: it has the smaller quotient,
or else it alone has an artificial variable, or else its variable has the smaller index. -/
def Limiting.precedes (first second : Limiting) : Bool :=
  if first.quotient != second.quotient then first.quotient < second.quotient
  else if first.isArtificial != second.isArtificial then first.isArtificial
  else decide (first.basic < second.basic)

/-- The row that limits an entering variable first. -/
def leaving? (tableau : Tableau) (allowed : Nat) (held : Nat → Bool) (entering : Nat) :
    Option Limiting :=
  let limiting := (tableau.rows.zip tableau.basis).zipIdx.filterMap fun ((row, basic), position) =>
    (quotient? held entering row basic).map fun quotient =>
      ⟨quotient, decide (allowed ≤ basic), basic, position⟩
  match limiting with
  | [] => none
  | first :: rest =>
    some (rest.foldl (fun best row => if row.precedes best then row else best) first)

/-- Pivot until no allowed variable lowers the cost; the number bounds the pivots. -/
def minimize (costs : List Rat) (allowed : Nat) (held : Nat → Bool) :
    Nat → Bool → Tableau → SimplexEnding
  | 0, _, tableau => .optimal tableau (tableau.reducedCosts costs)
  | limit + 1, stalled, tableau =>
    let reduced := tableau.reducedCosts costs
    match entering? stalled reduced allowed with
    | none => .optimal tableau reduced
    | some entering =>
      match tableau.leaving? allowed held entering with
      | none => .unbounded
      | some row =>
        minimize costs allowed held limit (row.quotient == 0) (tableau.pivot row.position entering)

/-- The value of each variable in the basic solution. -/
def values (tableau : Tableau) (count : Nat) : List Rat :=
  (List.range count).map fun index =>
    match (tableau.basis.zip tableau.rows).find? fun entry => entry.1 = index with
    | some (_, row) => row.1
    | none => 0

/-- The total of a cost over the basic solution. -/
def costOf (tableau : Tableau) (costs : List Rat) : Rat :=
  Fractions.total ((tableau.basis.zip tableau.rows).map fun (basic, row) =>
    costs.getD basic 0 * row.1)

end Tableau

/-- An equation over nonnegative variables. -/
structure StandardEquation where
  target : Rat
  coefficients : List Rat
  /-- A variable that costs nothing and that no other equation has. -/
  slack : Nat
  deriving Repr

/-- A program over nonnegative variables: minimize a cost subject to equations. -/
structure StandardProgram where
  costs : List Rat
  equations : List StandardEquation
  deriving Repr

/-- How a linear program ends. -/
inductive StandardEnding where
  /-- The values of the variables and the price of each equation. -/
  | optimal (values prices : List Rat)
  | infeasible
  | unbounded
  deriving Repr

namespace StandardEquation

/-- The coefficient of the slack. -/
def slackCoefficient (equation : StandardEquation) : Rat :=
  equation.coefficients.getD equation.slack 0

/-- Whether an equation is turned over, so that its target is not negative, or, where the target
is zero, the coefficient of its slack. -/
def isTurned (equation : StandardEquation) : Bool :=
  equation.target < 0 || (equation.target == 0 && decide (equation.slackCoefficient < 0))

/-- The target and the coefficients after turning the equation over where that is due. -/
def oriented (equation : StandardEquation) : Rat × List Rat :=
  if equation.isTurned then (-equation.target, equation.coefficients.map (-·))
  else (equation.target, equation.coefficients)

/-- Whether the slack can start with the whole target as its value. -/
def startsWithSlack (equation : StandardEquation) : Bool :=
  equation.oriented.2.getD equation.slack 0 == 1

end StandardEquation

namespace StandardProgram

/-- The row of an identity matrix. -/
def unitRow (size position : Nat) : List Rat :=
  (List.range size).map fun index => if index = position then 1 else 0

/-- The variable that stands for an equation at first: its slack or else an artificial one. -/
def starter (program : StandardProgram) (equation : StandardEquation) (position : Nat) : Nat :=
  if equation.startsWithSlack then equation.slack else program.costs.length + position

/-- The tableau in which a variable of its own stands for every equation. -/
def startTableau (program : StandardProgram) : Tableau :=
  let size := program.equations.length
  ⟨program.equations.zipIdx.map fun (equation, position) =>
      let row := equation.oriented
      (row.1, row.2 ++ unitRow size position),
    program.equations.zipIdx.map fun (equation, position) => program.starter equation position⟩

/-- The cost of the artificial variable of an equation while a solution is looked for. -/
def artificialCost (equation : StandardEquation) : Rat :=
  if equation.target == 0 then 0 else 1

/-- The costs while a solution is looked for: artificial variables that start above zero. -/
def artificialCosts (program : StandardProgram) : List Rat :=
  List.replicate program.costs.length 0 ++ program.equations.map artificialCost

/-- Whether a variable is artificial and starts at zero, where it has to stay. -/
def startsHeld (program : StandardProgram) (index : Nat) : Bool :=
  match program.equations[index - program.costs.length]? with
  | some equation => program.costs.length ≤ index && equation.target == 0
  | none => false

/-- The most pivots that may be needed: the number of sets of variables. -/
def pivotLimit (program : StandardProgram) : Nat :=
  Nat.pow 2 (program.costs.length + program.equations.length)

/-- Solve a program from the tableau of a solution, in which artificial variables are zero. -/
def solveFrom (program : StandardProgram) (tableau : Tableau) : StandardEnding :=
  let structural := program.costs.length
  let costs := program.costs ++ List.replicate program.equations.length 0
  match Tableau.minimize costs structural (fun index => structural ≤ index) program.pivotLimit
      false tableau with
  | .unbounded => .unbounded
  | .optimal last reduced =>
    let prices := (program.equations.zip (reduced.drop structural)).map
      fun (equation, cost) => if equation.isTurned then cost else -cost
    .optimal (last.values structural) prices

/-- Solve a program in two phases: first look for a solution, then for the cheapest one. -/
def solve (program : StandardProgram) : StandardEnding :=
  match Tableau.minimize program.artificialCosts program.costs.length program.startsHeld
      program.pivotLimit false program.startTableau with
  | .unbounded => .infeasible
  | .optimal tableau _ =>
    if tableau.costOf program.artificialCosts == 0 then program.solveFrom tableau
    else .infeasible

end StandardProgram

end Optima
