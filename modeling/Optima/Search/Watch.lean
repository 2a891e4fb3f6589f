import Optima.Solution.Basic

namespace Optima

/-!
# Budgets and cancellation

A search stops at a limit on its iterations or its time, or when it is cancelled.
It looks at the clock and at the flag whenever it needs to, and what it sees at
each look is given from outside.
-/

/-- The limits of one search. -/
structure Budget (α : Type) where
  maxIterations : Nat
  /-- Time after which the search stops; none disables the limit. -/
  timeLimit : Option α
  deriving Repr

/-- A clock and a cancellation flag, and how often they have been looked at. -/
structure Watch (α : Type) where
  /-- The time since the start that the clock shows at each look. -/
  elapsed : Nat → α
  /-- Whether the flag is up at each look. -/
  cancelled : Nat → Bool
  clockLooks : Nat
  flagLooks : Nat

namespace Watch

variable {α : Type}

/-- A watch that nobody has looked at. -/
def start (elapsed : Nat → α) (cancelled : Nat → Bool) : Watch α :=
  ⟨elapsed, cancelled, 0, 0⟩

/-- Look at the clock. -/
def lookAtClock (watch : Watch α) : α × Watch α :=
  (watch.elapsed watch.clockLooks, { watch with clockLooks := watch.clockLooks + 1 })

/-- Look at the flag. -/
def lookAtFlag (watch : Watch α) : Bool × Watch α :=
  (watch.cancelled watch.flagLooks, { watch with flagLooks := watch.flagLooks + 1 })

/-- What a number of looks at the flag see one after the other. -/
def flagsSeen (watch : Watch α) : Nat → List Bool
  | 0 => []
  | count + 1 =>
    let (isUp, looked) := watch.lookAtFlag
    isUp :: looked.flagsSeen count

end Watch

namespace Budget

variable {α : Type} [Scalar α]

/-- The limit that has been reached, if any; the clock is looked at only where it matters. -/
def exhausted (budget : Budget α) (iterations : Nat) (watch : Watch α) :
    Option SolutionStatus × Watch α :=
  if budget.maxIterations ≤ iterations then (some .iterationLimit, watch)
  else
    match budget.timeLimit with
    | none => (none, watch)
    | some limit =>
      let (elapsed, looked) := watch.lookAtClock
      (if limit ≤ elapsed then some .timeLimit else none, looked)

end Budget

/-- Why a search stops before it is through. -/
inductive Interruption where
  | cancelled
  | exhausted (status : SolutionStatus)
  deriving Repr, DecidableEq

namespace Interruption

/-- The limit that was reached. -/
def status? : Interruption → Option SolutionStatus
  | .cancelled => none
  | .exhausted status => some status

end Interruption

namespace Budget

variable {α : Type} [Scalar α]

/-- Look at the flag first and then at the limits. -/
def interruption (budget : Budget α) (iterations : Nat) (watch : Watch α) :
    Option Interruption × Watch α :=
  match watch.lookAtFlag with
  | (true, looked) => (some .cancelled, looked)
  | (false, looked) =>
    let (status?, checked) := budget.exhausted iterations looked
    (status?.map .exhausted, checked)

end Budget

end Optima
