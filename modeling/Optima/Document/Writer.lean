import Optima.Decimal
import Optima.Document.Basic

namespace Optima

/-!
# Documents as text

The written form of a document is that of JSON, with names for the numbers that
JSON lacks.  It is written on one line or with one entry per line.
-/

namespace Document

/-- Four hexadecimal digits of a character code. -/
def hexFour (code : Nat) : List Char :=
  [Nat.digitChar (code / 4096 % 16), Nat.digitChar (code / 256 % 16),
   Nat.digitChar (code / 16 % 16), Nat.digitChar (code % 16)]

/-- One character between quotation marks. -/
def escapeCharacter (character : Char) : List Char :=
  if character == '"' || character == '\\' then ['\\', character]
  else if character == '\n' then ['\\', 'n']
  else if character == '\t' then ['\\', 't']
  else if character == '\r' then ['\\', 'r']
  else if character.toNat < 32 then ['\\', 'u'] ++ hexFour character.toNat
  else [character]

/-- A text between quotation marks. -/
def textLiteral (text : String) : String :=
  String.ofList ('"' :: text.toList.flatMap escapeCharacter ++ ['"'])

/-- A number as JSON writes it, with names for what is not finite. -/
def numberLiteral (value : Float) : String :=
  if value.isNaN then "NaN"
  else if value.isInf then (if value < 0 then "-Infinity" else "Infinity")
  else Decimal.shortestText value

/-- The blanks between two entries: a new line at a depth, or nothing. -/
def lineBreak (indented : Bool) (depth : Nat) : String :=
  if indented then "\n" ++ String.ofList (List.replicate (2 * depth) ' ') else ""

/-- Put written entries between two brackets. -/
def bracketed (opening closing : String) (indented : Bool) (depth : Nat)
    (written : List String) : String :=
  if written.isEmpty then opening ++ closing
  else
    opening ++ lineBreak indented (depth + 1)
      ++ ("," ++ lineBreak indented (depth + 1)).intercalate written
      ++ lineBreak indented depth ++ closing

mutual

/-- A document as text, given how numbers are written. -/
def renderAt {α : Type} (writeNumber : α → String) (indented : Bool) (depth : Nat) :
    Document α → String
  | .null => "null"
  | .boolean true => "true"
  | .boolean false => "false"
  | .integer value => toString value
  | .number value => writeNumber value
  | .text value => textLiteral value
  | .list items =>
    bracketed "[" "]" indented depth (renderItems writeNumber indented (depth + 1) items)
  | .mapping entries =>
    bracketed "\x7b" "\x7d" indented depth (renderEntries writeNumber indented (depth + 1) entries)

/-- The items of a list as texts. -/
def renderItems {α : Type} (writeNumber : α → String) (indented : Bool) (depth : Nat) :
    List (Document α) → List String
  | [] => []
  | item :: rest =>
    renderAt writeNumber indented depth item :: renderItems writeNumber indented depth rest

/-- The entries of a mapping as texts. -/
def renderEntries {α : Type} (writeNumber : α → String) (indented : Bool) (depth : Nat) :
    List (String × Document α) → List String
  | [] => []
  | (name, value) :: rest =>
    (textLiteral name ++ (if indented then ": " else ":")
        ++ renderAt writeNumber indented depth value)
      :: renderEntries writeNumber indented depth rest

end

/-- A document on one line, given how numbers are written. -/
def render {α : Type} (writeNumber : α → String) (document : Document α) : String :=
  renderAt writeNumber false 0 document

/-- A number rounded to a number of digits, both zeros alike; what is not finite is a text. -/
def roundedLiteral (digits : Nat) (value : Float) : String :=
  if value.isFinite then
    let rounded := Decimal.roundSignificant digits value
    if rounded == 0 then Decimal.shortestText 0 else Decimal.shortestText rounded
  else if value.isNaN then textLiteral "nan"
  else textLiteral (if value < 0 then "-inf" else "inf")

/-- A document on one line. -/
def compact (document : Document Float) : String :=
  renderAt numberLiteral false 0 document

/-- A document with one entry per line. -/
def indented (document : Document Float) : String :=
  renderAt numberLiteral true 0 document

end Document

/-!
## Documents inside messages

How a value is shown inside a message.
-/

namespace Document

mutual

/-- A value as it is shown inside a message. -/
def shown : Document Float → String
  | .null => "None"
  | .boolean value => if value then "True" else "False"
  | .integer value => toString value
  | .number value => Decimal.shortestText value
  | .text value => quoted value
  | .list items => "[" ++ ", ".intercalate (shownItems items) ++ "]"
  | .mapping entries => "\x7b" ++ ", ".intercalate (shownEntries entries) ++ "\x7d"

/-- The items of a list as they are shown. -/
def shownItems : List (Document Float) → List String
  | [] => []
  | item :: rest => item.shown :: shownItems rest

/-- The entries of a mapping as they are shown. -/
def shownEntries : List (String × Document Float) → List String
  | [] => []
  | (name, value) :: rest => (quoted name ++ ": " ++ value.shown) :: shownEntries rest

end

end Document

end Optima
