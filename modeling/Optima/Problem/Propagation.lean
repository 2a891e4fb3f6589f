import Optima.Problem.Basic

namespace Optima

/-!
# Bound propagation

Constraints that were declared as bounds and read a single variable tighten the
interval of that variable.  A constraint that would leave nothing of an interval
is reported as a conflict and leaves the interval as it was.
-/

/-- A constraint of the form `coefficient · name + constant`. -/
structure SingleTerm (α : Type) where
  name : String
  coefficient : α
  constant : α
  deriving Repr

namespace Constraint

variable {α : Type} [Scalar α]

/-- The only variable that counts in a constraint, with its coefficient. -/
def singleTerm? (constraint : Constraint α) :
    Except (EvalFailure α) (Option (SingleTerm α)) := do
  match ← constraint.rule.linearForm? with
  | none => return none
  | some form =>
    match form.coefficients.entries.filter fun entry => !(entry.2 == 0) with
    | [(name, coefficient)] => return some ⟨name, coefficient, form.constant⟩
    | _ => return none

/-- The value of the variable at which a constraint on it switches. -/
def threshold (constraint : Constraint α) (term : SingleTerm α) : α :=
  (constraint.target - term.constant) / term.coefficient

end Constraint

/-- A bound that leaves nothing of an interval. -/
structure Conflict (α : Type) where
  /-- Distance between the ends that contradict each other. -/
  gap : α
  /-- Whether both ends are whole numbers. -/
  whole : Bool
  deriving Repr

/-- Intervals after propagation. -/
structure Reduction (α : Type) where
  bounds : Table (α × α)
  /-- Variables with one value left. -/
  fixed : Table α
  /-- By constraint, how it contradicts the bounds before it. -/
  conflicts : Table (Conflict α)
  deriving Repr

namespace Reduction

variable {α : Type}

/-- Whether no bounds contradict each other. -/
def isConsistent (reduction : Reduction α) : Bool :=
  reduction.conflicts.entries.isEmpty

/-- The interval of a name. -/
def boundsOf? (reduction : Reduction α) (name : String) : Option (α × α) :=
  reduction.bounds.get? name

end Reduction

namespace Propagation

variable {α : Type} [Scalar α]

/-- The part of an interval in which a comparison with a threshold holds. -/
def meet (comparison : Comparison) (threshold margin : α) (interval : α × α) : α × α :=
  let (lower, upper) := interval
  match comparison with
  | .equal => (Scalar.larger lower threshold, Scalar.smaller upper threshold)
  | .atMost => (lower, Scalar.smaller upper threshold)
  | .below => (lower, Scalar.smaller upper (threshold - margin))
  | .atLeast => (Scalar.larger lower threshold, upper)
  | .above => (Scalar.larger lower (threshold + margin), upper)

/-- The whole numbers of an interval, with a small allowance at its ends. -/
def wholeInterval (interval : α × α) : Except Breakdown (α × α) := do
  let first ← Variable.wholePart Scalar.ceiling (interval.1 - Scalar.slack)
  let last ← Variable.wholePart Scalar.floor (interval.2 + Scalar.slack)
  return (first, last)

/-- The interval of a variable that a bound leaves. -/
def tightened (constraint : Constraint α) (term : SingleTerm α) (kind : VariableKind)
    (tolerance : α) (interval : α × α) : Except Breakdown (α × α) :=
  let margin := constraint.toleranceOr tolerance
  let comparison :=
    if term.coefficient < 0 then constraint.comparison.mirrored else constraint.comparison
  let met := meet comparison (constraint.threshold term)
    (margin / Scalar.magnitude term.coefficient) interval
  if kind = .continuous then .ok met else wholeInterval met

/-- Propagate one constraint. -/
def step (kinds : Table VariableKind) (tolerance : α)
    (state : Table (α × α) × Table (Conflict α)) (constraint : Constraint α) :
    Except (EvalFailure α) (Table (α × α) × Table (Conflict α)) := do
  if constraint.kind != .bound then return state
  else
    match ← constraint.singleTerm? with
    | none => return state
    | some term =>
      match state.1.get? term.name, kinds.get? term.name with
      | some interval, some kind =>
        if kind = .categorical then return state
        else
          match tightened constraint term kind tolerance interval with
          | .error breakdown => .error (.broken breakdown)
          | .ok (lower, upper) =>
            if upper < lower then
              let conflict := ⟨lower - upper, kind != .continuous⟩
              return (state.1, state.2.insert constraint.identifier conflict)
            else return (state.1.insert term.name (lower, upper), state.2)
      | _, _ => return state

/-- Propagate constraints one after the other. -/
def steps (kinds : Table VariableKind) (tolerance : α) :
    Table (α × α) × Table (Conflict α) → List (Constraint α) →
      Except (EvalFailure α) (Table (α × α) × Table (Conflict α))
  | state, [] => .ok state
  | state, constraint :: rest => do
    let next ← step kinds tolerance state constraint
    steps kinds tolerance next rest

/-- The intervals of variables before propagation. -/
def startBounds (defaultBounds : α × α) :
    Table (α × α) → List (Variable α) → Except Breakdown (Table (α × α))
  | bounds, [] => .ok bounds
  | bounds, decision :: rest => do
    let interval ← decision.bounds defaultBounds
    startBounds defaultBounds (bounds.insert decision.name interval) rest

/-- The variables whose interval has one value. -/
def fixedValues (bounds : Table (α × α)) : Table α :=
  ⟨bounds.entries.filterMap fun (name, interval) =>
    if interval.1 == interval.2 then some (name, interval.1) else none⟩

/-- Tighten the intervals of a problem's variables. -/
def reduce (problem : Problem α) (defaultBounds : α × α) (tolerance : α) :
    Except (EvalFailure α) (Reduction α) := do
  let start ← (startBounds defaultBounds {} problem.decisions).mapError .broken
  let kinds := Table.ofList (problem.decisions.map fun decision => (decision.name, decision.kind))
  let (bounds, conflicts) ← steps kinds tolerance (start, {}) problem.constraints
  return ⟨bounds, fixedValues bounds, conflicts⟩

end Propagation

end Optima
