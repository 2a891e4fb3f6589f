import Optima.Document.Decoding
import Optima.Expression.LinearForm

namespace Optima

/-!
# Expressions in documents

An expression is written as a mapping whose `kind` says what it is.
-/

namespace Document

mutual

/-- How deeply a document is nested. -/
def depth {α : Type} : Document α → Nat
  | .list items => depthOfItems items + 1
  | .mapping entries => depthOfEntries entries + 1
  | _ => 0

/-- The greatest depth of the items of a list. -/
def depthOfItems {α : Type} : List (Document α) → Nat
  | [] => 0
  | item :: rest => max item.depth (depthOfItems rest)

/-- The greatest depth of the entries of a mapping. -/
def depthOfEntries {α : Type} : List (String × Document α) → Nat
  | [] => 0
  | (_, value) :: rest => max value.depth (depthOfEntries rest)

end

end Document

namespace Expr

/-- Decode the parts of one kind of expression, given the decoder of the expressions inside it. -/
def partsOf (inner : Decoder (Expr Float)) :
    String → Option (Decoder.Fields → Decode (Option (Expr Float)))
  | "constant" => some fun fields => do
    let value? ← fields.required "value" .number
    return value?.map .constant
  | "variable" => some fun fields => do
    let name? ← fields.required "name" .text
    return name?.map .variable
  | "linear" => some fun fields => do
    let coefficients? ← fields.defaulted "coefficients" (.table .number) {}
    let constant? ← fields.defaulted "constant" .number 0
    return do return .linear (← coefficients?) (← constant?)
  | "sum" => some fun fields => do
    let terms? ← fields.required "terms" (.list inner)
    return terms?.map .sum
  | "product" => some fun fields => do
    let factors? ← fields.required "factors" (.list inner)
    return factors?.map .product
  | "power" => some fun fields => do
    let base? ← fields.required "base" inner
    let exponent? ← fields.required "exponent" .number
    return do return .power (← base?) (← exponent?)
  | "abs" => some fun fields => do
    let operand? ← fields.required "operand" inner
    return operand?.map .absolute
  | "condition" => some fun fields => do
    let operand? ← fields.required "operand" inner
    let comparison? ← fields.required "operator" .choice
    let target? ← fields.defaulted "value" .number 0
    return do return .condition (← operand?) (← comparison?) (← target?)
  | _ => none

/-- The decoder of one kind of expression, which need not name its kind. -/
def decoderOf (inner : Decoder (Expr Float)) (kind : String) : Option (Decoder (Expr Float)) :=
  (partsOf inner kind).map fun parts => .record fun fields => do
    let kind? ← fields.defaulted "kind" (.literal kind) ()
    let decoded? ← parts fields
    return kind?.bind fun _ => decoded?

/-- An expression nested up to a depth. -/
def decoderUpTo : Nat → Decoder (Expr Float)
  | 0 => fun place _ => Decode.report place .unionType
  | depth + 1 => .tagged "kind" (decoderOf (decoderUpTo depth))

/-- An expression. -/
def decoder : Decoder (Expr Float) :=
  fun place document => decoderUpTo (document.depth + 1) place document

mutual

/-- An expression as a document. -/
def toDocument {α : Type} : Expr α → Document α
  | .constant value => .mapping [("kind", .text "constant"), ("value", .number value)]
  | .variable name => .mapping [("kind", .text "variable"), ("name", .text name)]
  | .linear coefficients offset =>
    .mapping [("kind", .text "linear"),
      ("coefficients", .ofTable (coefficients.map .number)), ("constant", .number offset)]
  | .sum terms => .mapping [("kind", .text "sum"), ("terms", .list (documentsOf terms))]
  | .product factors =>
    .mapping [("kind", .text "product"), ("factors", .list (documentsOf factors))]
  | .power base exponent =>
    .mapping [("kind", .text "power"), ("base", base.toDocument), ("exponent", .number exponent)]
  | .absolute operand => .mapping [("kind", .text "abs"), ("operand", operand.toDocument)]
  | .condition operand comparison target =>
    .mapping [("kind", .text "condition"), ("operand", operand.toDocument),
      ("operator", .text (label comparison)), ("value", .number target)]

/-- Expressions as documents. -/
def documentsOf {α : Type} : List (Expr α) → List (Document α)
  | [] => []
  | expression :: rest => expression.toDocument :: documentsOf rest

end

end Expr

namespace LinearForm

/-- A linear form as a document. -/
def toDocument {α : Type} (form : LinearForm α) : Document α :=
  .mapping [("coefficients", .ofTable (form.coefficients.map .number)),
    ("constant", .number form.constant)]

end LinearForm

end Optima
