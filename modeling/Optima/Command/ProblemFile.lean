import Optima.Allocation
import Optima.Configuration.Layers
import Optima.Document.Reader
import Optima.Problem.Any
import Optima.Storage.FileTree

namespace Optima

/-!
# Problem files

A problem file holds the fields of a problem.  If it also has suppliers and demands,
and is of no other kind, the problem is to allocate the ones to the others.
-/

/-- Suppliers and demands. -/
structure AllocationInput where
  suppliers : List (Supplier Float)
  requisitions : List (Requisition Float)
  deriving Repr

/-- What a problem file holds. -/
structure ProblemFile where
  problem : AnyProblem Float
  allocation : Option AllocationInput

/-- Why there is no problem. -/
inductive ProblemFileFailure where
  /-- The file cannot be read or is not well formed. -/
  | unloadable
  /-- A list or a text stands in place of the fields. -/
  | withoutFields
  /-- A number or a truth value stands in place of the fields. -/
  | withoutParts
  /-- What should name the kind of the problem is a list or has fields. -/
  | kindNotNamed
  deriving Repr, DecidableEq

namespace ProblemFile

/-- The field of the suppliers. -/
def suppliersField : String := "resources"

/-- The field of the demands. -/
def requisitionsField : String := "demands"

/-- The field that names the kind. -/
def kindField : String := "problem_type"

/-- The fields of a document; nothing at all stands for no fields. -/
def fieldsOf (document : Document Float) :
    Except ProblemFileFailure (List (String × Document Float)) :=
  match Layers.orEmpty document with
  | .mapping entries => .ok entries
  | .list _ | .text _ => .error .withoutFields
  | _ => .error .withoutParts

/-- Whether a kind leaves room for an allocation. -/
def allowsAllocation : Option (Document Float) → Bool
  | none | some .null => true
  | some (.text name) => name == label ProblemKind.resourceAllocation
  | some _ => false

/-- Whether fields describe an allocation. -/
def isAllocation (document : Document Float) : Bool :=
  document.hasField suppliersField && document.hasField requisitionsField
    && allowsAllocation (document.field? kindField)

/-- Whether the kind of a problem is named by something that can be looked up. -/
def hasNamedKind (document : Document Float) : Bool :=
  match document.field? kindField with
  | some (.list _) | some (.mapping _) => false
  | _ => true

/-- The fields of the problem in an allocation. -/
def withoutAllocation (entries : List (String × Document Float)) : Document Float :=
  let own := entries.filter fun entry =>
    !([suppliersField, requisitionsField, kindField].contains entry.1)
  .mapping (own ++ [(kindField, .labelled ProblemKind.resourceAllocation)])

/-- Decode a document; identifiers that it leaves out are supplied. -/
def decodeWith {β : Type} (supply : Supply) (decoder : Decoder β) (document : Document Float) :
    Except ProblemFileFailure (β × Supply) :=
  match Decode.run supply decoder document with
  | (.ok value, rest) => .ok (value, rest)
  | (.error _, _) => .error .unloadable

/-- Decode what a file holds. -/
def ofDocument (supply : Supply) (document : Document Float) :
    Except ProblemFileFailure (ProblemFile × Supply) := do
  let entries ← fieldsOf document
  let whole := Document.mapping entries
  if isAllocation whole then
    let (suppliers, afterSuppliers) ←
      decodeWith supply (.list Supplier.decoder) (whole.valueAt suppliersField)
    let (requisitions, afterAll) ←
      decodeWith afterSuppliers (.list Requisition.decoder) (whole.valueAt requisitionsField)
    let (problem, rest) ←
      decodeWith afterAll (AnyProblem.decoder .unknown) (withoutAllocation entries)
    return (⟨problem, some ⟨suppliers, requisitions⟩⟩, rest)
  else if hasNamedKind whole then
    let (problem, rest) ← decodeWith supply (AnyProblem.decoder .unknown) whole
    return (⟨problem, none⟩, rest)
  else .error .kindNotNamed

/-- Read a problem file. -/
def load (supply : Supply) (tree : FileTree) (path : FilePath) :
    Except ProblemFileFailure (ProblemFile × Supply) :=
  match (tree.read? path).bind Document.ofFile? with
  | some document => ofDocument supply document
  | none => .error .unloadable

end ProblemFile

end Optima
