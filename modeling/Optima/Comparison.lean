import Optima.Label
import Optima.Scalar.Basic

namespace Optima

/-!
# Comparisons

The five comparisons of constraints and conditions.
-/

/-- A comparison of a value with a target. -/
inductive Comparison where
  | equal
  | atMost
  | atLeast
  | below
  | above
  deriving Repr, DecidableEq

namespace Comparison

instance : Labelled Comparison where
  all := [.equal, .atMost, .atLeast, .below, .above]
  label
    | .equal => "eq"
    | .atMost => "le"
    | .atLeast => "ge"
    | .below => "lt"
    | .above => "gt"

/-- The comparison after both sides have been multiplied by a negative number. -/
def mirrored : Comparison → Comparison
  | .equal => .equal
  | .atMost => .atLeast
  | .atLeast => .atMost
  | .below => .above
  | .above => .below

variable {α : Type} [Scalar α]

/-- Whether a comparison holds; the tolerance does not bear on the strict ones. -/
def holds (comparison : Comparison) (value target tolerance : α) : Bool :=
  match comparison with
  | .equal => Scalar.magnitude (value - target) ≤ tolerance
  | .atMost => value ≤ target + tolerance
  | .atLeast => target - tolerance ≤ value
  | .below => value < target
  | .above => target < value

/-- The tolerance of a comparison that names none. -/
def usualTolerance : α := Scalar.decimal 1 9

end Comparison

end Optima
