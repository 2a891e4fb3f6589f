import Optima.Solution.Decoding
import Optima.Storage.FileTree

namespace Optima

/-!
# Stores of solutions

Solutions are kept as texts, by the problem that they solve.  What is loaded for a
problem is the solution that was made last; of several made at the same moment it
is the one that comes first.
-/

/-- How a solution becomes a text and back. -/
structure RecordFormat where
  write : Record → String
  read? : String → Option Record

/-- Why a store does not do what it is asked. -/
inductive StorageFailure where
  | cannotWrite (path : String)
  | cannotRead (path : String)
  | corrupt (source : String)
  /-- Only one of two moments is local. -/
  | incomparable
  deriving Repr, DecidableEq

namespace StorageFailure

/-- The message of a failure, where it has one of its own. -/
def message? : StorageFailure → Option String
  | .cannotWrite path => some ("Failed to write " ++ path)
  | .cannotRead path => some ("Failed to read " ++ path)
  | .corrupt source => some ("Corrupt solution record in " ++ source)
  | .incomparable => none

end StorageFailure

namespace Record

/-- The solution that was made last, compared with the last one so far. -/
def latestFrom : Record → List Record → Except StorageFailure Record
  | latest, [] => .ok latest
  | latest, record :: rest =>
    if !latest.createdAt.comparable record.createdAt then .error .incomparable
    else if latest.createdAt.instant < record.createdAt.instant then latestFrom record rest
    else latestFrom latest rest

/-- The solution that was made last; none where there is no solution. -/
def latest? : List Record → Except StorageFailure (Option Record)
  | [] => .ok none
  | record :: rest => (latestFrom record rest).map some

end Record

/-- Texts of solutions by problem, kept in memory. -/
structure MemoryStore where
  texts : Table (List String)
  deriving Repr

namespace MemoryStore

/-- The store without solutions. -/
def empty : MemoryStore := ⟨{}⟩

/-- Where solutions are said to come from. -/
def source : String := "memory"

/-- Read the texts of solutions. -/
def readTexts (format : RecordFormat) : List String → Except StorageFailure (List Record)
  | [] => .ok []
  | text :: rest =>
    match format.read? text with
    | none => .error (.corrupt source)
    | some record => do
      let others ← readTexts format rest
      return record :: others

/-- Keep a solution. -/
def save (store : MemoryStore) (format : RecordFormat) (record : Record) : MemoryStore :=
  let problem := record.solution.problem
  ⟨store.texts.insert problem ((store.texts.get? problem).getD [] ++ [format.write record])⟩

/-- The solution of a problem that was made last. -/
def load (store : MemoryStore) (format : RecordFormat) (problem : String) :
    Except StorageFailure (Option Record) := do
  Record.latest? (← readTexts format ((store.texts.get? problem).getD []))

/-- The number of solutions. -/
def size (store : MemoryStore) : Nat :=
  (store.texts.values.map List.length).foldl (· + ·) 0

end MemoryStore

/-- Solutions in files, in one directory for each problem. -/
structure FileStore where
  root : FilePath
  deriving Repr

namespace FileStore

/-- The ending of the names of the files that hold solutions. -/
def ending : String := ".json"

/-- The directory of a problem. -/
def directoryOf (store : FileStore) (problem : String) : FilePath :=
  store.root.child problem

/-- The file of a solution. -/
def fileOf (store : FileStore) (record : Record) : FilePath :=
  (store.directoryOf record.solution.problem).child (record.identifier ++ ending)

/-- Keep a solution; the tree has changed even where writing the file fails. -/
def save (store : FileStore) (format : RecordFormat) (record : Record) (tree : FileTree) :
    FileTree × Except StorageFailure Unit :=
  let file := store.fileOf record
  let failed : Except StorageFailure Unit := .error (.cannotWrite file.render)
  match tree.makeDirectories (store.directoryOf record.solution.problem) with
  | none => (tree, failed)
  | some made =>
    match made.write? file (format.write record) with
    | none => (made, failed)
    | some written => (written, .ok ())

/-- The names of the solutions in a directory. -/
def recordNames (tree : FileTree) (directory : FilePath) : List String :=
  (tree.namesIn directory).filter (Letters.endsWith ending)

/-- Read the solutions of a directory by the names of their files. -/
def readRecords (format : RecordFormat) (tree : FileTree) (directory : FilePath) :
    List String → Except StorageFailure (List Record)
  | [] => .ok []
  | name :: rest =>
    let path := directory.child name
    match tree.read? path with
    | none => .error (.cannotRead path.render)
    | some text =>
      match format.read? text with
      | none => .error (.corrupt path.render)
      | some record => do
        let others ← readRecords format tree directory rest
        return record :: others

/-- The solution of a problem that was made last. -/
def load (store : FileStore) (format : RecordFormat) (problem : String) (tree : FileTree) :
    Except StorageFailure (Option Record) := do
  let directory := store.directoryOf problem
  if tree.isDirectory directory then
    Record.latest? (← readRecords format tree directory (recordNames tree directory))
  else return none

end FileStore

end Optima
