import Optima.Decimal
import Optima.Document.Basic
import Optima.Failure
import Optima.Text.Basic

namespace Optima

/-!
# Numbers in documents

A number may be given as a number, as a truth value or as a text that writes it.
Asking a value for its number (`toNumber`) is more lenient about underscores
between digits than filling in a field (`floatOf`, `integerOf`).
-/

/-- What is wrong with a value that a field cannot take. -/
inductive Fault where
  | missing
  | floatType
  | floatParsing
  | integerType
  | integerParsing
  | integerFromFraction
  | integerTooLong
  | finiteNumber
  | booleanType
  | booleanParsing
  | textType
  | unknownLabel
  | unknownLiteral
  | listType
  | mappingType
  | pairType
  | tooShort
  | tooLong
  | recordType
  | unionType
  | tagMissing
  | tagUnknown
  | belowLeast
  | notAbove
  | aboveGreatest
  | notCallable
  | timestampParsing
  | timestampType
  /-- A check of the record as a whole, with its message. -/
  | rule (message : String)
  deriving Repr, DecidableEq

namespace Fault

/-- The code by which a fault is reported. -/
def code : Fault → String
  | .missing => "missing"
  | .floatType => "float_type"
  | .floatParsing => "float_parsing"
  | .integerType => "int_type"
  | .integerParsing => "int_parsing"
  | .integerFromFraction => "int_from_float"
  | .integerTooLong => "int_parsing_size"
  | .finiteNumber => "finite_number"
  | .booleanType => "bool_type"
  | .booleanParsing => "bool_parsing"
  | .textType => "string_type"
  | .unknownLabel => "enum"
  | .unknownLiteral => "literal_error"
  | .listType => "list_type"
  | .mappingType => "dict_type"
  | .pairType => "tuple_type"
  | .tooShort => "too_short"
  | .tooLong => "too_long"
  | .recordType => "model_type"
  | .unionType => "model_attributes_type"
  | .tagMissing => "union_tag_not_found"
  | .tagUnknown => "union_tag_invalid"
  | .belowLeast => "greater_than_equal"
  | .notAbove => "greater_than"
  | .aboveGreatest => "less_than_equal"
  | .notCallable => "callable_type"
  | .timestampParsing => "datetime_from_date_parsing"
  | .timestampType => "datetime_type"
  | .rule _ => "value_error"

/-- The library's own message, which only checks of whole records have. -/
def message? : Fault → Option String
  | .rule message => some message
  | _ => none

end Fault

namespace Document

/-- Whether every underscore of a text stands between two digits. -/
def underscoresBetweenDigits : List Char → Bool
  | [] => true
  | '_' :: _ => false
  | [_] => true
  | first :: '_' :: rest =>
    first.isDigit && (rest.head?.any Char.isDigit) && underscoresBetweenDigits rest
  | _ :: rest => underscoresBetweenDigits rest

/-- The number that a text writes, with underscores between digits left out. -/
def readLenient? (written : String) : Option Float :=
  let trimmed := Letters.trim written.toList
  if underscoresBetweenDigits trimmed then
    Decimal.readFloat? (trimmed.filter (· != '_'))
  else none

/-- The number of a value. -/
def toNumber : Document Float → Except Breakdown Float
  | .boolean value => .ok (if value then 1 else 0)
  | .integer value =>
    let converted := Float.ofInt value
    if converted.isFinite then .ok converted else .error .numberTooLarge
  | .number value => .ok value
  | .text value =>
    match readLenient? value with
    | some parsed => .ok parsed
    | none => .error .malformedNumber
  | _ => .error .notANumber

/-- Whether two underscores stand side by side. -/
def hasDoubleUnderscore : List Char → Bool
  | '_' :: '_' :: _ => true
  | _ :: rest => hasDoubleUnderscore rest
  | [] => false

/-- Whether underscores stand alone and inside a text. -/
def underscoresInside (characters : List Char) : Bool :=
  characters.head? != some '_' && characters.getLast? != some '_'
    && !hasDoubleUnderscore characters

/-- The number that a text in a field writes. -/
def readField? (written : String) : Option Float :=
  let characters := written.toList
  match Decimal.readFloat? (Letters.trim characters) with
  | some parsed => some parsed
  | none =>
    if characters.contains '_' && underscoresInside characters then
      Decimal.readFloat? (characters.filter (· != '_'))
    else none

/-- The number that a field takes. -/
def floatOf : Document Float → Except Fault Float
  | .boolean value => .ok (if value then 1 else 0)
  | .integer value => .ok (Float.ofInt value)
  | .number value => .ok value
  | .text value =>
    match readField? value with
    | some parsed => .ok parsed
    | none => .error .floatParsing
  | _ => .error .floatType

/-- The digits of a whole number without a point and zeros behind it. -/
def withoutZeroFraction (characters : List Char) : List Char :=
  let whole := characters.takeWhile (· != '.')
  let fraction := characters.drop whole.length
  if (fraction.drop 1).all (· == '0') then whole else characters

/-- The whole number that a text in a field writes. -/
def readInteger? (written : String) : Option Int :=
  let trimmed := Letters.trim written.toList
  let (negative, unsigned) := Decimal.spanSign trimmed
  let digits := withoutZeroFraction unsigned
  if underscoresInside digits then
    let plain := digits.filter (· != '_')
    if plain.isEmpty || !plain.all Char.isDigit then none
    else
      let value : Int := Decimal.digitsValue plain
      some (if negative then -value else value)
  else none

/-- The whole number that a field takes. -/
def integerOf : Document Float → Except Fault Int
  | .boolean value => .ok (if value then 1 else 0)
  | .integer value => .ok value
  | .number value =>
    if !value.isFinite then .error .finiteNumber
    else
      match (Binary.ofFloat? value).map Binary.toRat with
      | none => .error .finiteNumber
      | some fraction =>
        if fraction.den != 1 then .error .integerFromFraction
        else if fraction.num.natAbs < Nat.pow 2 63 then .ok fraction.num
        else .error .integerTooLong
  | .text value =>
    match readInteger? value with
    | some parsed => .ok parsed
    | none => .error .integerParsing
  | _ => .error .integerType

/-- Texts that stand for a truth value. -/
def truthTexts : List (String × Bool) :=
  [("true", true), ("t", true), ("yes", true), ("y", true), ("on", true), ("1", true),
   ("false", false), ("f", false), ("no", false), ("n", false), ("off", false), ("0", false)]

/-- The truth value that a field takes. -/
def booleanOf : Document Float → Except Fault Bool
  | .boolean value => .ok value
  | .integer 0 => .ok false
  | .integer 1 => .ok true
  | .integer _ => .error .booleanParsing
  | .number value =>
    if value == 0 then .ok false
    else if value == 1 then .ok true
    else if value.isFinite && value.floor == value then .error .booleanParsing
    else .error .booleanType
  | .text value =>
    match truthTexts.lookup (Letters.lower value) with
    | some truth => .ok truth
    | none => .error .booleanParsing
  | _ => .error .booleanType

end Document

end Optima
