import Optima.Document.Number
import Optima.Label

namespace Optima

/-!
# Decoding

A record is decoded from a document field by field.  Every fault is reported with
the place where it was met, in the order of the record's fields; a record is
there only if none was met.  Records that come without an identifier are given a
fresh one.
-/

/-- One step on the way from a document to one of its parts. -/
inductive Step where
  | name (value : String)
  | position (index : Nat)
  deriving Repr, DecidableEq

/-- A fault and the place where it was met. -/
structure Issue where
  place : List Step
  fault : Fault
  deriving Repr, DecidableEq

/-- An issue as a document. -/
def Issue.toDocument {α : Type} (issue : Issue) : Document α :=
  let step : Step → Document α
    | .name value => .text value
    | .position index => .natural index
  .mapping ([("loc", .listOf step issue.place), ("type", .text issue.fault.code)]
    ++ (issue.fault.message?.toList.map fun message => ("msg", .text message)))

/-- A supply of identifiers that have not been given out. -/
structure Supply where
  /-- The written form of the identifier with a number. -/
  written : Nat → String
  /-- How many identifiers have been given out. -/
  used : Nat

namespace Supply

/-- The next identifier. -/
def next (supply : Supply) : String × Supply :=
  (supply.written supply.used, { supply with used := supply.used + 1 })

/-- A number of identifiers, and the supply without them. -/
def reserve (supply : Supply) (count : Nat) : (Nat → String) × Supply :=
  (fun index => supply.written (supply.used + index), { supply with used := supply.used + count })

end Supply

/-- What is remembered while a document is decoded. -/
structure Decoding where
  supply : Supply
  /-- The issues met so far, the latest first. -/
  issues : List Issue

/-- A step of decoding; it gives no value where it met a fault. -/
abbrev Decode := StateM Decoding

/-- A way to decode the document at a place. -/
abbrev Decoder (β : Type) := List Step → Document Float → Decode (Option β)

namespace Decode

variable {β γ : Type}

/-- Report a fault. -/
def report (place : List Step) (fault : Fault) : Decode (Option β) := do
  modify fun decoding => { decoding with issues := ⟨place, fault⟩ :: decoding.issues }
  return none

/-- Take over the outcome of reading a value. -/
def settle (place : List Step) : Except Fault β → Decode (Option β)
  | .ok value => return some value
  | .error fault => report place fault

/-- The next fresh identifier. -/
def freshIdentifier : Decode (Option String) := do
  let decoding ← get
  let (identifier, supply) := decoding.supply.next
  set { decoding with supply := supply }
  return some identifier

/-- Decode a whole document: the value, or the issues in order. -/
def run (supply : Supply) (decoder : Decoder β) (document : Document Float) :
    Except (List Issue) β × Supply :=
  let (value?, decoding) := StateT.run (decoder [] document) ⟨supply, []⟩
  match value?, decoding.issues with
  | some value, [] => (.ok value, decoding.supply)
  | _, issues => (.error issues.reverse, decoding.supply)

/-- Decode a document that needs no identifiers. -/
def check (decoder : Decoder β) (document : Document Float) : Except (List Issue) β :=
  (run ⟨fun _ => "", 0⟩ decoder document).1

end Decode

namespace Decoder

variable {β : Type}

/-- A decoder that reads a value without looking at its parts. -/
def ofReader (read : Document Float → Except Fault β) : Decoder β :=
  fun place document => Decode.settle place (read document)

/-- A number. -/
def number : Decoder Float := ofReader Document.floatOf

/-- A whole number. -/
def integer : Decoder Int := ofReader Document.integerOf

/-- A truth value. -/
def boolean : Decoder Bool := ofReader Document.booleanOf

/-- A text. -/
def text : Decoder String :=
  ofReader fun
    | .text value => .ok value
    | _ => .error .textType

/-- Any document. -/
def any : Decoder (Document Float) := ofReader .ok

/-- The only text that is allowed. -/
def literal (expected : String) : Decoder Unit :=
  ofReader fun
    | .text value => if value == expected then .ok () else .error .unknownLiteral
    | _ => .error .unknownLiteral

/-- A label of a labelled type. -/
def labelled [Labelled β] (fault : Fault) : Decoder β :=
  ofReader fun
    | .text value =>
      match Labelled.ofLabel? value with
      | some found => .ok found
      | none => .error fault
    | _ => .error fault

/-- A label of an enumeration. -/
def choice [Labelled β] : Decoder β := labelled .unknownLabel

/-- Check a decoded value. -/
def checking (decoder : Decoder β) (fault? : β → Option Fault) : Decoder β :=
  fun place document => do
    match ← decoder place document with
    | none => return none
    | some value =>
      match fault? value with
      | none => return some value
      | some fault => Decode.report place fault

/-- A number that is at least a given one. -/
def numberFrom (least : Float) : Decoder Float :=
  number.checking fun value => if least ≤ value then none else some .belowLeast

/-- A number above a given one. -/
def numberAbove (limit : Float) : Decoder Float :=
  number.checking fun value => if limit < value then none else some .notAbove

/-- A number between two others. -/
def numberBetween (least greatest : Float) : Decoder Float :=
  number.checking fun value =>
    if !(value ≤ greatest) then some .aboveGreatest
    else if !(least ≤ value) then some .belowLeast
    else none

/-- A number above one and at most another. -/
def numberAboveUpTo (limit greatest : Float) : Decoder Float :=
  number.checking fun value =>
    if !(value ≤ greatest) then some .aboveGreatest
    else if !(limit < value) then some .notAbove
    else none

/-- A natural number that is at least a given one. -/
def naturalFrom (least : Nat) : Decoder Nat :=
  fun place document => do
    match ← integer place document with
    | none => return none
    | some value =>
      if (least : Int) ≤ value then return some value.toNat
      else Decode.report place .belowLeast

/-- A value or `null`. -/
def nullable (decoder : Decoder β) : Decoder (Option β) :=
  fun place document =>
    match document with
    | .null => return some none
    | _ => do
      match ← decoder place document with
      | none => return none
      | some value => return some (some value)

/-- The items of a list, from a position on. -/
def itemsFrom (decoder : Decoder β) (place : List Step) :
    Nat → List (Document Float) → Decode (Option (List β))
  | _, [] => return some []
  | index, item :: rest => do
    let first? ← decoder (place ++ [.position index]) item
    let others? ← itemsFrom decoder place (index + 1) rest
    return do
      let first ← first?
      let others ← others?
      return first :: others

/-- A list. -/
def list (decoder : Decoder β) : Decoder (List β) :=
  fun place document =>
    match document with
    | .list items => itemsFrom decoder place 0 items
    | _ => Decode.report place .listType

/-- A list with at least one item. -/
def nonemptyList (decoder : Decoder β) : Decoder (List β) :=
  fun place document => do
    match ← list decoder place document with
    | none => return none
    | some [] => Decode.report place .tooShort
    | some items => return some items

/-- The entries of a mapping. -/
def entriesOf (decoder : Decoder β) (place : List Step) :
    List (String × Document Float) → Decode (Option (List (String × β)))
  | [] => return some []
  | (name, value) :: rest => do
    let first? ← decoder (place ++ [.name name]) value
    let others? ← entriesOf decoder place rest
    return do
      let first ← first?
      let others ← others?
      return (name, first) :: others

/-- A table. -/
def table (decoder : Decoder β) : Decoder (Table β) :=
  fun place document =>
    match document with
    | .mapping entries => do
      let decoded? ← entriesOf decoder place entries
      return decoded?.map Table.mk
    | _ => Decode.report place .mappingType

/-- The number at a position of a list that has to hold it. -/
def numberAt (place : List Step) (items : List (Document Float)) (index : Nat) :
    Decode (Option Float) :=
  match items[index]? with
  | some item => number (place ++ [.position index]) item
  | none => Decode.report (place ++ [.position index]) .missing

/-- Two numbers. -/
def pair : Decoder (Float × Float) :=
  fun place document =>
    match document with
    | .list items =>
      if 2 < items.length then Decode.report place .tooLong
      else do
        let first? ← numberAt place items 0
        let second? ← numberAt place items 1
        return do
          let first ← first?
          let second ← second?
          return (first, second)
    | _ => Decode.report place .pairType

/-- The fields of a record under construction. -/
structure Fields where
  place : List Step
  entries : List (String × Document Float)

namespace Fields

variable {β : Type}

/-- The place of a field. -/
def placeOf (fields : Fields) (name : String) : List Step :=
  fields.place ++ [.name name]

/-- A field that has to be there. -/
def required (fields : Fields) (name : String) (decoder : Decoder β) : Decode (Option β) :=
  match fields.entries.lookup name with
  | some value => decoder (fields.placeOf name) value
  | none => Decode.report (fields.placeOf name) .missing

/-- A field with a default. -/
def defaulted (fields : Fields) (name : String) (decoder : Decoder β) (value : β) : Decode (Option β) :=
  match fields.entries.lookup name with
  | some given => decoder (fields.placeOf name) given
  | none => return some value

/-- A field that may be absent or `null`. -/
def optional (fields : Fields) (name : String) (decoder : Decoder β) : Decode (Option (Option β)) :=
  fields.defaulted name (nullable decoder) none

/-- A list that is empty unless given. -/
def listOf (fields : Fields) (name : String) (decoder : Decoder β) : Decode (Option (List β)) :=
  fields.defaulted name (list decoder) []

/-- A text with a default. -/
def textOr (fields : Fields) (name value : String) : Decode (Option String) :=
  fields.defaulted name text value

/-- An identifier, which is made up unless given. -/
def identifier (fields : Fields) (name : String) : Decode (Option String) :=
  match fields.entries.lookup name with
  | some given => text (fields.placeOf name) given
  | none => Decode.freshIdentifier

end Fields

/-- A record, given the fault of a document that is no mapping. -/
def recordWith (fault : Fault) (build : Fields → Decode (Option β)) : Decoder β :=
  fun place document =>
    match document with
    | .mapping entries => build ⟨place, entries⟩
    | _ => Decode.report place fault

/-- A record. -/
def record (build : Fields → Decode (Option β)) : Decoder β :=
  recordWith .recordType build

/-- A record that is checked as a whole once all its fields are there. -/
def checkedRecord (fault? : β → Option String) (build : Fields → Decode (Option β)) : Decoder β :=
  (record build).checking fun value => (fault? value).map .rule

/-- One of several records, told apart by the text of a field. -/
def tagged (tag : String) (decoder? : String → Option (Decoder β)) : Decoder β :=
  fun place document =>
    match document with
    | .mapping entries =>
      match entries.lookup tag with
      | none => Decode.report place .tagMissing
      | some (.text value) =>
        match decoder? value with
        | some decoder => decoder (place ++ [.name value]) document
        | none => Decode.report place .tagUnknown
      | some _ => Decode.report place .tagUnknown
    | _ => Decode.report place .unionType

end Decoder

end Optima
