namespace Optima

/-!
# Text

How text is taken apart, and how it is quoted in a message.
-/

/-!
## Blanks, letters and lines

Small functions on text: what counts as a blank at the ends of a text, the case
of letters, and cutting at a separator.
-/

namespace Letters

/-- Characters that are dropped at the ends of a written value. -/
def isBlank (character : Char) : Bool :=
  let code := character.toNat
  (9 ≤ code && code ≤ 13) || code == 32 || code == 133 || code == 160 || code == 5760
    || (8192 ≤ code && code ≤ 8202) || code == 8232 || code == 8233 || code == 8239
    || code == 8287 || code == 12288

/-- A text without the blanks at its ends. -/
def trim (text : List Char) : List Char :=
  ((text.dropWhile isBlank).reverse.dropWhile isBlank).reverse

/-- Runs of capital letters: the codes of the first and the last, and the distance to the small
ones.  They are those of the Latin, Greek and Cyrillic alphabets. -/
def capitalRuns : List (Nat × Nat × Nat) :=
  [(65, 90, 32), (192, 214, 32), (216, 222, 32), (913, 929, 32), (931, 939, 32), (1024, 1039, 80),
   (1040, 1071, 32)]

/-- Runs in which every capital letter is followed by its small one. -/
def alternatingRuns : List (Nat × Nat) :=
  [(256, 303), (306, 311), (313, 328), (330, 375), (377, 382)]

/-- The code of a letter in its small form. -/
def smallCode (code : Nat) : Nat :=
  match capitalRuns.find? fun run => run.1 ≤ code && code ≤ run.2.1 with
  | some run => code + run.2.2
  | none =>
    match alternatingRuns.find? fun run => run.1 ≤ code && code ≤ run.2 with
    | some run => if (code - run.1) % 2 = 0 then code + 1 else code
    | none => code

/-- A letter in its small form. -/
def small (character : Char) : Char :=
  Char.ofNat (smallCode character.toNat)

/-- A text in small letters. -/
def lower (text : String) : String :=
  String.ofList (text.toList.map small)

/-- A text in capital letters. -/
def upper (text : String) : String :=
  String.ofList (text.toList.map Char.toUpper)

/-- The pieces of a text between the occurrences of a separator. -/
def pieces (separator : Char) : List Char → List (List Char)
  | [] => [[]]
  | character :: rest =>
    if character == separator then [] :: pieces separator rest
    else
      match pieces separator rest with
      | [] => [[character]]
      | first :: others => (character :: first) :: others

/-- The pieces of a text between the occurrences of a separator. -/
def split (separator : Char) (text : String) : List String :=
  (pieces separator text.toList).map String.ofList

/-- Whether a text begins with another. -/
def startsWith (start text : String) : Bool :=
  start.toList.isPrefixOf text.toList

/-- Whether a text ends with another. -/
def endsWith (ending text : String) : Bool :=
  ending.toList.isSuffixOf text.toList

end Letters

/-!
## Quoted text

Text inside a message stands between single quotes, or between double quotes if
it holds single ones only.  The quote in use, the backslash and the characters
without a printed form of their own are written with a backslash.
-/

namespace Quoted

/-- The quotation mark that a text is put between. -/
def mark (text : List Char) : Char :=
  if text.contains '\'' && !text.contains '"' then '"' else '\''

/-- A number in hexadecimal digits, as many as are asked for. -/
def hexDigits : Nat → Nat → List Char
  | 0, _ => []
  | count + 1, code => hexDigits count (code / 16) ++ [Nat.digitChar (code % 16)]

/-- Characters without a printed form of their own: the codes of the first and the last of a run.
They are the controls, the blanks other than the common one, the format characters and the
characters for private use. -/
def unseenRuns : List (Nat × Nat) :=
  [(0, 31), (127, 160), (173, 173), (1536, 1541), (1564, 1564), (1757, 1757), (1807, 1807),
   (2192, 2193), (2274, 2274), (5760, 5760), (6158, 6158), (8192, 8207), (8232, 8239), (8287, 8292),
   (8294, 8303), (12288, 12288), (57344, 63743), (65279, 65279), (65529, 65531), (69821, 69821),
   (69837, 69837), (78896, 78904), (113824, 113827), (119155, 119162), (917505, 917505),
   (917536, 917631), (983040, 1048573), (1048576, 1114109)]

/-- Whether a character has no printed form of its own. -/
def isUnseen (character : Char) : Bool :=
  unseenRuns.any fun run => run.1 ≤ character.toNat && character.toNat ≤ run.2

/-- The code of a character behind a backslash, in two, four or eight digits. -/
def escapedCode (code : Nat) : List Char :=
  if code < 256 then '\\' :: 'x' :: hexDigits 2 code
  else if code < 65536 then '\\' :: 'u' :: hexDigits 4 code
  else '\\' :: 'U' :: hexDigits 8 code

/-- One character of a quoted text. -/
def escape (quotation character : Char) : List Char :=
  if character == quotation || character == '\\' then ['\\', character]
  else if character == '\n' then ['\\', 'n']
  else if character == '\t' then ['\\', 't']
  else if character == '\r' then ['\\', 'r']
  else if isUnseen character then escapedCode character.toNat
  else [character]

/-- The quoted form of a text. -/
def encode (text : List Char) : List Char :=
  let quotation := mark text
  quotation :: text.flatMap (escape quotation) ++ [quotation]

end Quoted

/-- The quoted form of a text. -/
def quoted (text : String) : String :=
  String.ofList (Quoted.encode text.toList)

/-- A list of quoted texts between brackets. -/
def quotedList (texts : List String) : String :=
  "[" ++ ", ".intercalate (texts.map quoted) ++ "]"

end Optima
