import Optima.Text.Basic

namespace Optima

/-!
# Files

Files are looked up by their paths in a tree of directories.
-/

/-!
## File paths

A path is a list of segments from the root or from the working directory.  A
segment that is empty or a single point says nothing and is dropped; two points go
up, which only the files themselves can resolve.
-/

/-- A path to a file or a directory. -/
structure FilePath where
  /-- Whether the path starts at the root. -/
  isAbsolute : Bool
  segments : List String
  deriving Repr, DecidableEq

namespace FilePath

/-- The segment that goes up. -/
def upward : String := ".."

/-- The segments of a written path. -/
def segmentsOf (written : String) : List String :=
  (Letters.split '/' written).filter fun segment => segment != "" && segment != "."

/-- The path that a text writes. -/
def ofText (written : String) : FilePath :=
  ⟨written.toList.head? == some '/', segmentsOf written⟩

/-- A path followed from another one; one that starts at the root replaces it. -/
def join (base path : FilePath) : FilePath :=
  if path.isAbsolute then path else ⟨base.isAbsolute, base.segments ++ path.segments⟩

/-- A path followed by a written one. -/
def child (base : FilePath) (written : String) : FilePath :=
  base.join (ofText written)

/-- The path without its last segment. -/
def parent (path : FilePath) : FilePath :=
  { path with segments := path.segments.dropLast }

/-- The last segment. -/
def name (path : FilePath) : String :=
  path.segments.getLastD ""

/-- The written form of a path. -/
def render (path : FilePath) : String :=
  let joined := "/".intercalate path.segments
  if path.isAbsolute then "/" ++ joined else if joined.isEmpty then "." else joined

end FilePath

/-!
## File trees

A tree of directories with texts in files.  Every file and directory has a place:
the names on the way to it from the root.  A path is followed from the root or from
the working directory, and every place on the way has to be a directory.
-/

/-- The names on the way from the root to a file or a directory. -/
abbrev Place := List String

/-- Directories, and files with their texts. -/
structure FileTree where
  /-- The directories other than the root. -/
  directories : List Place
  files : List (Place × String)
  working : Place
  deriving Repr

namespace FileTree

/-- The tree without files; the working directory and those above it are there. -/
def empty (working : Place) : FileTree :=
  ⟨(List.range working.length).map fun index => working.take (index + 1), [], working⟩

/-- Whether a place is a directory. -/
def isDirectoryAt (tree : FileTree) (place : Place) : Bool :=
  place.isEmpty || tree.directories.contains place

/-- Whether a place is a file. -/
def isFileAt (tree : FileTree) (place : Place) : Bool :=
  tree.files.any (·.1 == place)

/-- The place after one more segment. -/
def step (place : Place) (segment : String) : Place :=
  if segment == FilePath.upward then place.dropLast else place ++ [segment]

/-- Follow segments through directories. -/
def follow (tree : FileTree) : Place → List String → Option Place
  | place, [] => some place
  | place, segment :: rest =>
    if tree.isDirectoryAt place then follow tree (step place segment) rest else none

/-- The place at which a path starts. -/
def origin (tree : FileTree) (path : FilePath) : Place :=
  if path.isAbsolute then [] else tree.working

/-- The place of a path. -/
def place? (tree : FileTree) (path : FilePath) : Option Place :=
  tree.follow (tree.origin path) path.segments

/-- Whether a path leads to a directory. -/
def isDirectory (tree : FileTree) (path : FilePath) : Bool :=
  (tree.place? path).any tree.isDirectoryAt

/-- Whether a path leads to a file. -/
def isFile (tree : FileTree) (path : FilePath) : Bool :=
  (tree.place? path).any tree.isFileAt

/-- The text of the file at a place. -/
def textAt? (tree : FileTree) (place : Place) : Option String :=
  tree.files.lookup place

/-- The text of the file that a path leads to. -/
def read? (tree : FileTree) (path : FilePath) : Option String :=
  (tree.place? path).bind tree.textAt?

/-- Make the directories on a way that are missing; none if a file stands in the way. -/
def makeFrom (tree : FileTree) : Place → List String → Option FileTree
  | place, [] => if tree.isDirectoryAt place then some tree else none
  | place, segment :: rest =>
    let next := step place segment
    if tree.isDirectoryAt next then makeFrom tree next rest
    else if tree.isFileAt next then none
    else makeFrom { tree with directories := tree.directories ++ [next] } next rest

/-- Make a directory and those above it. -/
def makeDirectories (tree : FileTree) (path : FilePath) : Option FileTree :=
  tree.makeFrom (tree.origin path) path.segments

/-- The tree in which the file at a place has a text. -/
def setText (tree : FileTree) (place : Place) (text : String) : FileTree :=
  { tree with files := tree.files.filter (·.1 != place) ++ [(place, text)] }

/-- Write a file; its directory has to be there, and it may not be a directory itself. -/
def write? (tree : FileTree) (path : FilePath) (text : String) : Option FileTree :=
  match tree.place? path with
  | none => none
  | some place =>
    if tree.isDirectoryAt place || !tree.isDirectoryAt place.dropLast then none
    else some (tree.setText place text)

/-- The tree with a text in a file, the directory of which is made where it is missing. -/
def place (tree : FileTree) (path : FilePath) (text : String) : FileTree :=
  let made := (tree.makeDirectories path.parent).getD tree
  (made.write? path text).getD made

/-- The tree of texts in files below a path. -/
def ofTexts (working : Place) (root : FilePath) (texts : List (String × String)) : FileTree :=
  texts.foldl (fun tree (name, text) => tree.place (root.child name) text) (empty working)

/-- Remove a file. -/
def remove (tree : FileTree) (path : FilePath) : FileTree :=
  match tree.place? path with
  | none => tree
  | some place => { tree with files := tree.files.filter (·.1 != place) }

/-- The names in the directory at a place, in order. -/
def namesAt (tree : FileTree) (place : Place) : List String :=
  let places := tree.directories ++ tree.files.map (·.1)
  let inside := places.filter fun other => !other.isEmpty && other.dropLast == place
  (inside.map fun other => other.getLastD "").mergeSort fun first second => decide (first ≤ second)

/-- The names in the directory that a path leads to. -/
def namesIn (tree : FileTree) (path : FilePath) : List String :=
  match tree.place? path with
  | none => []
  | some place => tree.namesAt place

/-- The paths of all files below the working directory, in order. -/
def filePaths (tree : FileTree) : List String :=
  let below := (tree.files.map (·.1)).filter fun place => tree.working.isPrefixOf place
  (below.map fun place => "/".intercalate (place.drop tree.working.length)).mergeSort
    fun first second => decide (first ≤ second)

end FileTree

end Optima
