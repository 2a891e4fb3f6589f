import Optima.Decimal
import Optima.Document.Number
import Optima.Problem.Parameters
import Optima.Text.Basic

namespace Optima

/-!
# Command lines

What a command line asks for.
-/

/-!
## The words of a command line

A word is an operand, an option or the separator after which no options follow.
An option has a long name, which may be cut short, and perhaps a letter; its value
may be attached to it.
-/

/-- What an option is about. -/
inductive Flag where
  | help
  | configuration
  | algorithm
  | seed
  | output
  deriving Repr, DecidableEq

/-- How an option is written. -/
structure CommandOption where
  flag : Flag
  /-- The name after two hyphens. -/
  name : String
  /-- The letter after one hyphen. -/
  letter : Option Char
  deriving Repr

/-- What a word of a command line is. -/
inductive CommandWord where
  | operand
  | separator
  /-- An option with the value that is attached to it. -/
  | option (flag : Flag) (attached : Option String)
  /-- A word that looks like an option and is none. -/
  | stranger
  deriving Repr, DecidableEq

namespace CommandWord

/-- Whether characters write a number below zero in plain digits. -/
def isNegativeNumber : List Char → Bool
  | '-' :: rest =>
    let whole := rest.takeWhile Char.isDigit
    match rest.drop whole.length with
    | [] => !whole.isEmpty
    | '.' :: fraction => !fraction.isEmpty && fraction.all Char.isDigit
    | _ => false
  | _ => false

/-- A word that begins with a hyphen and names no option. -/
def unnamed (characters : List Char) : CommandWord :=
  if isNegativeNumber characters || characters.contains ' ' then .operand else .stranger

/-- What stands behind an equals sign, if there is one. -/
def afterEquals? : List Char → Option String
  | '=' :: value => some (String.ofList value)
  | _ => none

/-- The option whose name begins with some characters. -/
def named? (options : List CommandOption) (start : List Char) : Option CommandOption :=
  if start.isEmpty then none
  else options.find? fun known => start.isPrefixOf known.name.toList

/-- What is attached to the letter of an option. -/
def attachedToLetter? : List Char → Option String
  | [] => none
  | '=' :: value => some (String.ofList value)
  | value => some (String.ofList value)

/-- What a word is where some options are known. -/
def classify (options : List CommandOption) (word : String) : CommandWord :=
  match word.toList with
  | ['-', '-'] => .separator
  | '-' :: '-' :: rest =>
    let name := rest.takeWhile (· != '=')
    match named? options name with
    | some known => .option known.flag (afterEquals? (rest.drop name.length))
    | none => unnamed word.toList
  | '-' :: letter :: rest =>
    match options.find? fun known => known.letter == some letter with
    | some known => .option known.flag (attachedToLetter? rest)
    | none => unnamed word.toList
  | _ => .operand

end CommandWord

/-!
## Commands

A command line may name a configuration; then it names a command and what the
command works on.  It is read from left to right and the reading ends at the first
word that cannot be used, or that asks for help.  Words that look like options and
are none are only objected to when everything else has been read.
-/

/-- Why there is nothing to carry out. -/
inductive ArgumentRefusal where
  | helpWanted
  | misuse
  deriving Repr, DecidableEq

namespace ArgumentRefusal

/-- The exit code. -/
def exitCode : ArgumentRefusal → Nat
  | .helpWanted => 0
  | .misuse => 2

end ArgumentRefusal

/-- What is known of a solve while the words are read. -/
structure SolveDraft where
  problem : Option String
  algorithm : Option Algorithm
  seed : Option Int
  output : Option String
  /-- Whether there are words that cannot be used. -/
  hasStrangers : Bool
  deriving Repr

/-- A problem file to solve. -/
structure SolveOrder where
  problem : String
  /-- The strategy that is asked for. -/
  algorithm : Option Algorithm
  seed : Option Int
  /-- Where the solution is written. -/
  output : Option String
  deriving Repr

/-- What is to be done. -/
inductive CommandOrder where
  | solve (order : SolveOrder)
  | listAlgorithms
  deriving Repr

/-- What a command line asks for. -/
structure Invocation where
  /-- The path of the configuration. -/
  configuration : Option String
  order : CommandOrder
  deriving Repr

namespace SolveDraft

/-- Nothing is known yet. -/
def empty : SolveDraft := ⟨none, none, none, none, false⟩

/-- The whole number that a word writes. -/
def seedOf? (word : String) : Option Int :=
  let (isNegative, digits) := Decimal.spanSign (Letters.trim word.toList)
  let plain := digits.filter (· != '_')
  if plain.isEmpty || !plain.all Char.isDigit || !Document.underscoresBetweenDigits digits then none
  else
    let size : Int := Decimal.digitsValue plain
    some (if isNegative then -size else size)

/-- Take the next operand. -/
def takeOperand (draft : SolveDraft) (word : String) : SolveDraft :=
  match draft.problem with
  | none => { draft with problem := some word }
  | some _ => { draft with hasStrangers := true }

/-- Take the value of an option. -/
def takeValue (draft : SolveDraft) (flag : Flag) (value : String) :
    Except ArgumentRefusal SolveDraft :=
  match flag with
  | .algorithm =>
    match Labelled.ofLabel? value with
    | some algorithm => .ok { draft with algorithm := some algorithm }
    | none => .error .misuse
  | .seed =>
    match seedOf? value with
    | some seed => .ok { draft with seed := some seed }
    | none => .error .misuse
  | .output => .ok { draft with output := some value }
  | .help | .configuration => .error .misuse

/-- What is to be solved, once everything has been read. -/
def finish (draft : SolveDraft) : Except ArgumentRefusal SolveOrder :=
  match draft.problem with
  | some problem =>
    if draft.hasStrangers then .error .misuse
    else .ok ⟨problem, draft.algorithm, draft.seed, draft.output⟩
  | none => .error .misuse

/-- The options of a solve. -/
def options : List CommandOption :=
  [⟨.help, "help", some 'h'⟩, ⟨.algorithm, "algorithm", none⟩, ⟨.seed, "seed", none⟩,
   ⟨.output, "output", some 'o'⟩]

/-- Read the words of a solve. -/
def read (draft : SolveDraft) : List String → Except ArgumentRefusal SolveDraft
  | [] => .ok draft
  | word :: rest =>
    match CommandWord.classify options word with
    | .operand => read (draft.takeOperand word) rest
    | .separator => .ok (rest.foldl takeOperand draft)
    | .stranger => read { draft with hasStrangers := true } rest
    | .option .help none => .error .helpWanted
    | .option flag (some value) => do
      let taken ← draft.takeValue flag value
      read taken rest
    | .option flag none =>
      match rest with
      | [] => .error .misuse
      | value :: others =>
        if CommandWord.classify options value == .operand then do
          let taken ← draft.takeValue flag value
          read taken others
        else .error .misuse

end SolveDraft

namespace CommandOrder

/-- The option of a command that has no others. -/
def helpOption : CommandOption := ⟨.help, "help", some 'h'⟩

/-- Read the words of a command that takes none. -/
def readNothing (hasStrangers : Bool) : List String → Except ArgumentRefusal Unit
  | [] => if hasStrangers then .error .misuse else .ok ()
  | word :: rest =>
    match CommandWord.classify [helpOption] word with
    | .option _ none => .error .helpWanted
    | .option _ (some _) => .error .misuse
    | .separator => if hasStrangers || !rest.isEmpty then .error .misuse else .ok ()
    | .operand | .stranger => readNothing true rest

/-- Read a command and its words. -/
def read (command : String) (words : List String) : Except ArgumentRefusal CommandOrder :=
  match command with
  | "solve" => do
    let draft ← SolveDraft.empty.read words
    return .solve (← draft.finish)
  | "algorithms" => (readNothing false words).map fun _ => .listAlgorithms
  | _ => .error .misuse

end CommandOrder

namespace Invocation

/-- The options before the command. -/
def options : List CommandOption :=
  [CommandOrder.helpOption, ⟨.configuration, "config", none⟩]

/-- Read a command and all that follows. -/
def readCommand (configuration : Option String) (hasStrangers : Bool) (command : String)
    (words : List String) : Except ArgumentRefusal Invocation := do
  let order ← CommandOrder.read command words
  if hasStrangers then .error .misuse else return ⟨configuration, order⟩

/-- Read the words of a command line. -/
def readFrom (configuration : Option String) (hasStrangers : Bool) :
    List String → Except ArgumentRefusal Invocation
  | [] => .error .misuse
  | word :: rest =>
    match CommandWord.classify options word with
    | .operand => readCommand configuration hasStrangers word rest
    | .separator =>
      match rest with
      | [] => .error .misuse
      | command :: words => readCommand configuration hasStrangers command words
    | .stranger => readFrom configuration true rest
    | .option .help none => .error .helpWanted
    | .option .configuration (some path) => readFrom (some path) hasStrangers rest
    | .option .configuration none =>
      match rest with
      | [] => .error .misuse
      | path :: others =>
        if CommandWord.classify options path == .operand then
          readFrom (some path) hasStrangers others
        else .error .misuse
    | .option _ _ => .error .misuse

/-- How a command line is written. -/
def usage : String :=
  "usage: [--config PATH] solve PROBLEM [--algorithm NAME] [--seed N] [--output PATH]\n"
    ++ "       [--config PATH] algorithms"

/-- What a command line asks for. -/
def ofWords (words : List String) : Except ArgumentRefusal Invocation :=
  readFrom none false words

end Invocation

end Optima
