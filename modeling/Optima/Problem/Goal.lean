import Optima.Expression.LinearForm

namespace Optima

/-!
# Rules, objectives and constraints

Objectives and constraints are made of rules.
-/

/-!
## Rules

The left-hand side of an objective or a constraint is given as an expression, or
as a closure of the caller.  A closure may read any name and may give back
anything; only a number, or a text that writes one, counts as its value.
-/

/-- What a closure gives back. -/
inductive Returned (α : Type) where
  | number (value : α)
  /-- Something else, in its quoted form. -/
  | notNumeric (written : String)
  /-- Something that breaks down when it is read as a number. -/
  | unusable (breakdown : Breakdown)
  deriving Repr

/-- How a closure fails. -/
inductive ClosureFault where
  /-- It reads a name that has no value. -/
  | unbound (name : String)
  | broken (breakdown : Breakdown)
  deriving Repr, DecidableEq

/-- A function of the caller over an assignment. -/
abbrev Closure (α : Type) := Assignment α → Except ClosureFault (Returned α)

/-- The left-hand side of an objective or a constraint. -/
inductive Rule (α : Type) where
  | expression (value : Expr α)
  | closure (apply : Closure α)

namespace Rule

variable {α : Type}

/-- The expression that a rule is. -/
def expression? : Rule α → Option (Expr α)
  | .expression value => some value
  | .closure _ => none

/-- The names that a rule reads; nothing is known of a closure. -/
def names? : Rule α → Option (List String)
  | .expression value => some value.names
  | .closure _ => none

/-- The value of a closure on an assignment. -/
def applyClosure (apply : Closure α) (assignment : Assignment α) : Except (EvalFailure α) α :=
  match apply assignment with
  | .ok (.number value) => .ok value
  | .ok (.notNumeric written) => .error (.rejected (.closureNotNumeric written))
  | .ok (.unusable breakdown) => .error (.broken breakdown)
  | .error (.unbound name) => .error (.rejected (.closureUnbound name))
  | .error (.broken breakdown) => .error (.broken breakdown)

variable [Scalar α]

/-- The value of a rule on an assignment. -/
def evaluate (assignment : Assignment α) : Rule α → Except (EvalFailure α) α
  | .expression value => value.evaluate assignment
  | .closure apply => applyClosure apply assignment

/-- The linear form of a rule, if it is a visibly linear expression. -/
def linearForm? : Rule α → Except (EvalFailure α) (Option (LinearForm α))
  | .expression value => value.linearForm?
  | .closure _ => .ok none

end Rule

/-!
## Objectives and constraints

An objective is a rule to be made small or large; objectives are weighed against
each other and ranked by priority.  A constraint compares a rule with a target.
-/

/-- Whether an objective is to be made small or large. -/
inductive Direction where
  | minimize
  | maximize
  deriving Repr, DecidableEq

instance : Labelled Direction where
  all := [.minimize, .maximize]
  label
    | .minimize => "minimize"
    | .maximize => "maximize"

/-- The role that a constraint is given by its author. -/
inductive ConstraintKind where
  | equality
  | inequality
  | bound
  | logical
  deriving Repr, DecidableEq

instance : Labelled ConstraintKind where
  all := [.equality, .inequality, .bound, .logical]
  label
    | .equality => "equality"
    | .inequality => "inequality"
    | .bound => "bound"
    | .logical => "logical"

/-- A quantity to be made small or large. -/
structure Objective (α : Type) where
  rule : Rule α
  identifier : String
  name : String
  direction : Direction
  /-- Weight in the weighted sum of the objectives. -/
  weight : α
  /-- A smaller number means a higher priority. -/
  priority : Int
  description : String

/-- A comparison that a solution has to satisfy. -/
structure Constraint (α : Type) where
  rule : Rule α
  identifier : String
  name : String
  kind : ConstraintKind
  comparison : Comparison
  target : α
  /-- The constraint's own tolerance, in place of the solver's. -/
  tolerance : Option α
  description : String

namespace Objective

variable {α : Type} [Scalar α]

/-- One where the objective is maximized, minus one where it is minimized. -/
def sense (objective : Objective α) : α :=
  match objective.direction with
  | .maximize => 1
  | .minimize => -1

/-- The objective that minimizes a named quantity. -/
def minimizing (identifier name : String) (weight : α) (priority : Int) (description : String) :
    Objective α where
  rule := .expression (.variable name)
  identifier := identifier
  name := name
  direction := .minimize
  weight := weight
  priority := priority
  description := description

/-- The value of an objective on an assignment. -/
def evaluate (assignment : Assignment α) (objective : Objective α) : Except (EvalFailure α) α :=
  objective.rule.evaluate assignment

end Objective

namespace Constraint

variable {α : Type} [Scalar α]

/-- The left-hand side of a constraint on an assignment. -/
def evaluate (assignment : Assignment α) (constraint : Constraint α) : Except (EvalFailure α) α :=
  constraint.rule.evaluate assignment

/-- The tolerance of a constraint: its own, or else the one in force. -/
def toleranceOr (constraint : Constraint α) (tolerance : α) : α :=
  constraint.tolerance.getD tolerance

end Constraint

/-!
## Scores

Several objectives are weighed into one score, for which higher is better, and
into one cost, for which lower is better.
-/

namespace Objectives

variable {α : Type} [Scalar α]

/-- Enter the values of objectives into a table. -/
def valuesInto (assignment : Assignment α) :
    Table α → List (Objective α) → Except (EvalFailure α) (Table α)
  | values, [] => .ok values
  | values, objective :: rest => do
    let value ← objective.evaluate assignment
    valuesInto assignment (values.insert objective.name value) rest

/-- The values of objectives by name. -/
def values (objectives : List (Objective α)) (assignment : Assignment α) :
    Except (EvalFailure α) (Table α) :=
  valuesInto assignment {} objectives

/-- The value of an objective in a table of values. -/
def valueOf (values : Table α) (objective : Objective α) : α :=
  (values.get? objective.name).getD 0

/-- The weighted sum of the values, for which higher is better. -/
def score (objectives : List (Objective α)) (values : Table α) : α :=
  Scalar.total (objectives.map fun objective =>
    objective.weight * objective.sense * valueOf values objective)

/-- The weighted sum of the values, for which lower is better. -/
def cost (objectives : List (Objective α)) (values : Table α) : α :=
  -score objectives values

/-- The values, each turned so that lower is better. -/
def minimizationVector (objectives : List (Objective α)) (values : Table α) : List α :=
  objectives.map fun objective => -objective.sense * valueOf values objective

/-- The first objective of the highest priority. -/
def primary? : List (Objective α) → Option (Objective α)
  | [] => none
  | first :: rest =>
    some (rest.foldl
      (fun best objective => if objective.priority < best.priority then objective else best) first)

/-- The cost of an assignment. -/
def costOf (objectives : List (Objective α)) (assignment : Assignment α) :
    Except (EvalFailure α) α :=
  (values objectives assignment).map (cost objectives)

end Objectives

end Optima
