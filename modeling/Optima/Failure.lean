import Optima.Decimal
import Optima.Text.Basic

namespace Optima

/-!
# Failures of a computation

Two kinds of failure are kept apart.  An expression that has no value on an
assignment is an ordinary outcome: a search drops the candidate and goes on.  A
breakdown is not contained by any search and ends the whole solve.
-/

/-- Why an expression has no value on an assignment. -/
inductive EvalError (α : Type) where
  /-- The expression reads a name that has no value. -/
  | unbound (name : String)
  /-- The value of a name is a text. -/
  | textValue (name value : String)
  /-- The power of two finite numbers is beyond every finite number. -/
  | powerTooLarge (base exponent : α)
  /-- A zero is raised to a negative power; the empty sum has no number of its own. -/
  | zeroToNegative (base : Option α) (exponent : α)
  /-- A negative number is raised to a power that is not whole. -/
  | noRealPower (base exponent : α)
  /-- As before, and the power is beyond every finite number. -/
  | complexPowerTooLarge (base exponent : α)
  /-- A closure reads a name that has no value. -/
  | closureUnbound (name : String)
  /-- A closure gives back something that is not a number. -/
  | closureNotNumeric (written : String)
  deriving Repr

/-- A failure that no search contains. -/
inductive Breakdown where
  /-- A number is asked of a value that cannot be one. -/
  | notANumber
  /-- A number is asked of a text that does not write one, or a whole number of what is no number. -/
  | malformedNumber
  /-- A whole number is too large, or an infinity is asked for its whole part. -/
  | numberTooLarge
  /-- A closure fails with a message of its own. -/
  | closureFailed (message : String)
  /-- The seed of a generator is negative. -/
  | negativeSeed
  /-- Samples are asked of a range without finite width. -/
  | rangeTooWide
  /-- Samples are asked of a range that ends before it starts. -/
  | rangeReversed
  /-- A name is looked up that is not there. -/
  | missingName (name : String)
  /-- Something is asked of an empty or unsuitable list. -/
  | notInList
  /-- A linear program has a coefficient that is not finite. -/
  | unboundedCoefficient
  /-- A linear program has a constant that is not finite. -/
  | unboundedConstant
  deriving Repr, DecidableEq

/-- How an evaluation fails. -/
inductive EvalFailure (α : Type) where
  | rejected (error : EvalError α)
  | broken (breakdown : Breakdown)
  deriving Repr

/-- How a solve fails. -/
inductive SolveFailure (α : Type) where
  /-- The problem cannot be solved by this strategy. -/
  | invalid (issues : List String)
  | rejected (error : EvalError α)
  | broken (breakdown : Breakdown)
  deriving Repr

namespace EvalError

/-- The message of a failed power. -/
def powerMessage (base exponent : String) (reason : Option String) : String :=
  "Cannot raise " ++ base ++ " to " ++ exponent ++
    match reason with
    | some text => ": " ++ text
    | none => ""

/-- The message of a failed evaluation. -/
def message : EvalError Float → String
  | .unbound name => "No value bound for '" ++ name ++ "'"
  | .textValue name value => "Value of '" ++ name ++ "' is not numeric: " ++ quoted value
  | .powerTooLarge base exponent =>
    powerMessage (Decimal.shortestText base) (Decimal.shortestText exponent)
      (some "(34, 'Numerical result out of range')")
  | .zeroToNegative base exponent =>
    powerMessage ((base.map Decimal.shortestText).getD "0") (Decimal.shortestText exponent)
      (some "0.0 cannot be raised to a negative power")
  | .noRealPower base exponent =>
    powerMessage (Decimal.shortestText base) (Decimal.shortestText exponent) none
  | .complexPowerTooLarge base exponent =>
    powerMessage (Decimal.shortestText base) (Decimal.shortestText exponent)
      (some "complex exponentiation")
  | .closureUnbound name => "No value bound for " ++ quoted name
  | .closureNotNumeric written => "Closure returned non-numeric value " ++ written

end EvalError

namespace Breakdown

/-- The message of a breakdown, where it has one of its own. -/
def message? : Breakdown → Option String
  | .notANumber | .malformedNumber | .numberTooLarge | .notInList => none
  | .closureFailed text => some text
  | .negativeSeed => some "expected non-negative integer"
  | .rangeTooWide => some "Range exceeds valid bounds"
  | .rangeReversed => some "high < low"
  | .missingName name => some (quoted name)
  | .unboundedCoefficient => some "Cannot multiply variables with NaN/inf values"
  | .unboundedConstant => some "Cannot add/subtract NaN/inf values"

end Breakdown

/-- An evaluation failure as a failure of the whole solve. -/
def EvalFailure.toSolveFailure {α : Type} : EvalFailure α → SolveFailure α
  | .rejected error => .rejected error
  | .broken breakdown => .broken breakdown

/-- A breakdown as the outcome of a step. -/
def breakDown {α β : Type} (breakdown : Breakdown) : Except (SolveFailure α) β :=
  .error (.broken breakdown)

/-- Take over the outcome of an evaluation into a solve. -/
def settled {α β : Type} : Except (EvalFailure α) β → Except (SolveFailure α) β
  | .ok value => .ok value
  | .error failure => .error failure.toSolveFailure

/-- A computation that is found to have a result has one. -/
theorem exists_eq_ok_of_toBool
    {ε β : Type}
    {computation : Except ε β}
    (hasResult : computation.toBool = true) :
    ∃ result, computation = .ok result := by
  cases computation with
  | error cause => cases hasResult
  | ok result => exact ⟨result, rfl⟩

/-- A computation of whose result something is known has a result. -/
theorem exists_eq_ok_of_map_toOption
    {ε β γ : Type}
    {computation : Except ε β}
    {view : β → γ}
    {seen : γ}
    (isSeen : computation.toOption.map view = some seen) :
    ∃ result, computation = .ok result ∧ view result = seen := by
  cases computation with
  | error cause => cases isSeen
  | ok result => exact ⟨result, rfl, Option.some.inj isSeen⟩

/-- A computation that goes on after another has a result only where that one has. -/
theorem bind_eq_ok
    {ε β γ : Type}
    {first : Except ε β}
    {next : β → Except ε γ}
    {result : γ}
    (outcome : (first >>= next) = .ok result) :
    ∃ value, first = .ok value ∧ next value = .ok result := by
  cases first with
  | error cause => simp [bind, Except.bind] at outcome
  | ok value => exact ⟨value, rfl, outcome⟩

/-- A computation whose failure is told in other words has the same results. -/
theorem mapError_eq_ok
    {ε δ β : Type}
    {computation : Except ε β}
    {told : ε → δ}
    {result : β}
    (outcome : computation.mapError told = .ok result) :
    computation = .ok result := by
  cases computation with
  | error cause => cases outcome
  | ok value =>
    cases outcome
    rfl

/-- An evaluation that is taken over into a solve has the same results. -/
theorem settled_eq_ok
    {α β : Type}
    {computation : Except (EvalFailure α) β}
    {result : β}
    (outcome : settled computation = .ok result) :
    computation = .ok result := by
  cases computation with
  | error failure => cases outcome
  | ok value =>
    cases outcome
    rfl

end Optima
