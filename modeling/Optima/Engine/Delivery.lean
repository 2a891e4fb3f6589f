import Optima.Document.Reader
import Optima.Document.Writer
import Optima.Engine.Basic
import Optima.Storage.Store

namespace Optima

/-!
# The archive

The configuration names what keeps the solutions: the memory, files or nothing.
The archive is what is kept, together with the files.
-/

/-- What keeps solutions. -/
inductive StorageBackend where
  | memory
  | file
  | nowhere
  deriving Repr, DecidableEq

instance : Labelled StorageBackend where
  all := [.memory, .file, .nowhere]
  label
    | .memory => "memory"
    | .file => "file"
    | .nowhere => "none"

namespace StorageBackend

/-- The message on a name that stands for nothing that keeps solutions. -/
def unknownMessage (name : String) : String :=
  "Unknown storage backend: " ++ name ++ ". Available: "
    ++ ", ".intercalate ((Labelled.all (β := StorageBackend)).map label)

end StorageBackend

/-- A store of solutions. -/
inductive ResultStore where
  | memory (store : MemoryStore)
  | files (store : FileStore)
  deriving Repr

namespace ResultStore

/-- The store that a configuration names, if it wants one; the message on an unknown name else. -/
def ofNames (backend path : String) : Except String (Option ResultStore) :=
  match Labelled.ofLabel? (Letters.lower backend) with
  | some StorageBackend.memory => .ok (some (.memory .empty))
  | some .file => .ok (some (.files ⟨.ofText path⟩))
  | some .nowhere => .ok none
  | none => .error (StorageBackend.unknownMessage backend)

end ResultStore

/-- A store, if there is one, and the files. -/
structure Archive where
  store : Option ResultStore
  tree : FileTree
  deriving Repr

namespace Archive

/-- Keep a solution. -/
def save (archive : Archive) (format : RecordFormat) (record : Record) :
    Archive × Except StorageFailure Unit :=
  match archive.store with
  | none => (archive, .ok ())
  | some (.memory store) =>
    ({ archive with store := some (.memory (store.save format record)) }, .ok ())
  | some (.files store) =>
    let (tree, outcome) := store.save format record archive.tree
    ({ archive with tree := tree }, outcome)

/-- The solution of a problem that was made last. -/
def load (archive : Archive) (format : RecordFormat) (problem : String) :
    Except StorageFailure (Option Record) :=
  match archive.store with
  | none => .ok none
  | some (.memory store) => store.load format problem
  | some (.files store) => store.load format problem archive.tree

/-- The number of solutions in memory. -/
def size? (archive : Archive) : Option Nat :=
  match archive.store with
  | some (.memory store) => some store.size
  | _ => none

end Archive

/-!
## Delivering solutions to an archive

A solution is written as an indented document.  A document that names no identifier
or no moment gets those that are left over for it when it is read.
-/

namespace RecordFormat

/-- Solutions as documents. -/
def documents (supply : Supply) (now : Timestamp) : RecordFormat where
  write record := record.toDocument.indented
  read? text := do
    let document ← Document.ofText? text
    (Decode.run supply (Record.decoder now) document).1.toOption

end RecordFormat

namespace Archive

/-- Keep a solution, and say why it is not kept if that fails. -/
def keep (format : RecordFormat) (record : Record) (archive : Archive) : Archive × Option String :=
  match archive.save format record with
  | (saved, .ok _) => (saved, none)
  | (saved, .error failure) => (saved, some (failure.message?.getD ""))

end Archive

namespace Recipients

/-- An archive gets the solutions, and nobody else. -/
def archiving (format : RecordFormat) : Recipients Archive := ⟨some (Archive.keep format), none⟩

end Recipients

end Optima
