import Optima.Decimal
import Optima.Document.Basic

namespace Optima

/-!
# Reading a document

A document is read from JSON text, which may also hold the names of the numbers
that JSON lacks.  Digits without a point and without an exponent are a whole
number.  Every step of the reader is counted against the length of the text.
-/

namespace Document

/-- Drop the blanks at the start. -/
def skipBlanks (input : List Char) : List Char :=
  input.dropWhile fun character =>
    character == ' ' || character == '\n' || character == '\t' || character == '\r'

/-- The rest of a text behind a word. -/
def afterWord? (word input : List Char) : Option (List Char) :=
  if word.isPrefixOf input then some (input.drop word.length) else none

/-- The value of a hexadecimal digit. -/
def hexValue? (character : Char) : Option Nat :=
  let code := character.toNat
  if 48 ≤ code && code ≤ 57 then some (code - 48)
  else if 97 ≤ code && code ≤ 102 then some (code - 87)
  else if 65 ≤ code && code ≤ 70 then some (code - 55)
  else none

/-- The code of four hexadecimal digits. -/
def hexCode? : List Char → Option (Nat × List Char)
  | a :: b :: c :: d :: rest => do
    let first ← hexValue? a
    let second ← hexValue? b
    let third ← hexValue? c
    let fourth ← hexValue? d
    return (((first * 16 + second) * 16 + third) * 16 + fourth, rest)
  | _ => none

/-- A character given by its code, which may be spread over two units. -/
def readUnits? (input : List Char) : Option (Char × List Char) := do
  let (high, rest) ← hexCode? input
  if 0xD800 ≤ high && high < 0xDC00 then
    match rest with
    | '\\' :: 'u' :: tail =>
      match hexCode? tail with
      | some (low, tail) =>
        if 0xDC00 ≤ low && low < 0xE000 then
          some (Char.ofNat (0x10000 + (high - 0xD800) * 1024 + (low - 0xDC00)), tail)
        else some (Char.ofNat 0xFFFD, rest)
      | none => some (Char.ofNat 0xFFFD, rest)
    | _ => some (Char.ofNat 0xFFFD, rest)
  else if 0xDC00 ≤ high && high < 0xE000 then some (Char.ofNat 0xFFFD, rest)
  else some (Char.ofNat high, rest)

/-- The characters up to the closing quotation mark. -/
def readCharacters? : Nat → List Char → List Char → Option (String × List Char)
  | 0, _, _ => none
  | fuel + 1, gathered, input =>
    match input with
    | [] => none
    | '"' :: rest => some (String.ofList gathered.reverse, rest)
    | '\\' :: 'u' :: rest => do
      let (character, tail) ← readUnits? rest
      readCharacters? fuel (character :: gathered) tail
    | '\\' :: escaped :: rest =>
      let character? : Option Char :=
        match escaped with
        | '"' => some '"'
        | '\\' => some '\\'
        | '/' => some '/'
        | 'b' => some (Char.ofNat 8)
        | 'f' => some (Char.ofNat 12)
        | 'n' => some '\n'
        | 'r' => some '\r'
        | 't' => some '\t'
        | _ => none
      match character? with
      | some character => readCharacters? fuel (character :: gathered) rest
      | none => none
    | character :: rest =>
      if character.toNat < 32 then none else readCharacters? fuel (character :: gathered) rest

/-- Characters that a written number may hold. -/
def isNumberCharacter (character : Char) : Bool :=
  character.isDigit || character == '-' || character == '+' || character == '.'
    || character == 'e' || character == 'E'

/-- The number at the start of a text. -/
def readNumber? (input : List Char) : Option (Document Float × List Char) :=
  let written := input.takeWhile isNumberCharacter
  let rest := input.drop written.length
  let (negative, unsigned) := Decimal.spanSign written
  if written.head? == some '+' then none
  else if unsigned.isEmpty || !(unsigned.head?.any Char.isDigit) then none
  else if unsigned.all Char.isDigit then
    let value : Int := Decimal.digitsValue unsigned
    some (.integer (if negative then -value else value), rest)
  else (Decimal.readFloat? written).map fun value => (.number value, rest)

mutual

/-- The document at the start of a text. -/
def readValue? : Nat → List Char → Option (Document Float × List Char)
  | 0, _ => none
  | fuel + 1, input =>
    let input := skipBlanks input
    match input with
    | '\x7b' :: rest =>
      match skipBlanks rest with
      | '\x7d' :: tail => some (.mapping [], tail)
      | _ => (readEntries? fuel rest).map fun (entries, tail) =>
          (.ofTable (Table.ofList entries), tail)
    | '[' :: rest =>
      match skipBlanks rest with
      | ']' :: tail => some (.list [], tail)
      | _ => (readItems? fuel rest).map fun (items, tail) => (.list items, tail)
    | '"' :: rest =>
      (readCharacters? (rest.length + 1) [] rest).map fun (value, tail) => (.text value, tail)
    | _ =>
      match afterWord? "null".toList input, afterWord? "true".toList input,
          afterWord? "false".toList input, afterWord? "NaN".toList input with
      | some tail, _, _, _ => some (.null, tail)
      | _, some tail, _, _ => some (.boolean true, tail)
      | _, _, some tail, _ => some (.boolean false, tail)
      | _, _, _, some tail => some (.number (0 / 0), tail)
      | none, none, none, none =>
        match afterWord? "Infinity".toList input, afterWord? "-Infinity".toList input with
        | some tail, _ => some (.number (1 / 0), tail)
        | _, some tail => some (.number (-(1 / 0)), tail)
        | none, none => readNumber? input

/-- The items of a list up to its closing bracket. -/
def readItems? : Nat → List Char → Option (List (Document Float) × List Char)
  | 0, _ => none
  | fuel + 1, input => do
    let (item, rest) ← readValue? fuel input
    match skipBlanks rest with
    | ',' :: tail =>
      let (items, tail) ← readItems? fuel tail
      return (item :: items, tail)
    | ']' :: tail => return ([item], tail)
    | _ => none

/-- The entries of a mapping up to its closing brace. -/
def readEntries? : Nat → List Char → Option (List (String × Document Float) × List Char)
  | 0, _ => none
  | fuel + 1, input =>
    match skipBlanks input with
    | '"' :: rest => do
      let (name, rest) ← readCharacters? (rest.length + 1) [] rest
      match skipBlanks rest with
      | ':' :: rest =>
        let (value, rest) ← readValue? fuel rest
        match skipBlanks rest with
        | ',' :: tail =>
          let (entries, tail) ← readEntries? fuel tail
          return ((name, value) :: entries, tail)
        | '\x7d' :: tail => return ([(name, value)], tail)
        | _ => none
      | _ => none
    | _ => none

end

/-- The document that a text is. -/
def ofText? (input : String) : Option (Document Float) :=
  let characters := input.toList
  match readValue? (characters.length + 1) characters with
  | some (document, rest) => if (skipBlanks rest).isEmpty then some document else none
  | none => none

/-- The document in a file; an empty file stands for `null`. -/
def ofFile? (input : String) : Option (Document Float) :=
  if (skipBlanks input.toList).isEmpty then some .null else ofText? input

end Document

end Optima
