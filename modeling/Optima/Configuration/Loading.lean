import Optima.Configuration.Basic
import Optima.Configuration.Layers
import Optima.Document.Reader
import Optima.Storage.FileTree

namespace Optima

/-!
# Loading a configuration

The base of a configuration is a file, or a file of a fixed name in a directory.
The environment may name a layer, which is a file beside the base.
-/

/-- Why no configuration is loaded. -/
inductive LoadingFailure where
  | baseMissing (path : String)
  | malformed (path : String)
  | unreadable (path : String)
  | unlayered (failure : LayerFailure)
  | invalid (issues : List Issue)
  deriving Repr

namespace LoadingFailure

/-- The message of a failure, where it has one of its own. -/
def message? : LoadingFailure → Option String
  | .baseMissing path => some ("Base config file not found: " ++ path)
  | .malformed path => some ("Invalid YAML in " ++ path)
  | .unreadable path => some ("Error loading config file " ++ path)
  | .unlayered _ | .invalid _ => none

end LoadingFailure

/-- Where a configuration is loaded from. -/
structure ConfigurationSource where
  directory : FilePath
  /-- The name of the base. -/
  file : String
  deriving Repr

namespace ConfigurationSource

/-- The name of the base in a directory. -/
def usualFile : String := "default.yaml"

/-- The source that a path names: a file, or the usual file of a directory. -/
def ofPath (tree : FileTree) (path : FilePath) : ConfigurationSource :=
  if tree.isFile path then ⟨path.parent, path.name⟩ else ⟨path, usualFile⟩

/-- Read the document in a file of a source; none if the file is not there. -/
def read? (source : ConfigurationSource) (tree : FileTree) (file : String) :
    Except LoadingFailure (Option (Document Float)) :=
  let path := source.directory.child file
  match tree.read? path with
  | some text =>
    match Document.ofFile? text with
    | some document => .ok (some (Layers.orEmpty document))
    | none => .error (.malformed path.render)
  | none => if tree.isDirectory path then .error (.unreadable path.render) else .ok none

/-- Read the base. -/
def base (source : ConfigurationSource) (tree : FileTree) :
    Except LoadingFailure (Document Float) := do
  match ← source.read? tree source.file with
  | some document => return document
  | none => .error (.baseMissing (source.directory.child source.file).render)

/-- The name of the layer that the environment names, if it names one. -/
def layerName? (environment : List (String × String)) : Option String :=
  let name := Letters.lower ((environment.lookup "ENVIRONMENT").getD "")
  if name.isEmpty || name == "default" then none else some (name ++ ".yaml")

/-- Read the layer of the environment; without one it is empty. -/
def layer? (source : ConfigurationSource) (tree : FileTree)
    (environment : List (String × String)) :
    Except LoadingFailure (Option (Document Float)) :=
  match layerName? environment with
  | none => .ok none
  | some name => do
    match ← source.read? tree name with
    | some document => return some document
    | none =>
      if name == source.file then
        .error (.baseMissing (source.directory.child name).render)
      else return some (.mapping [])

end ConfigurationSource

namespace Configuration

/-- The configuration of a base and a layer in an environment. -/
def ofLayers (base : Document Float) (layer? : Option (Document Float))
    (environment : List (String × String)) : Except LoadingFailure Configuration := do
  let combined ←
    match layer? with
    | none => .ok base
    | some layer => (Layers.combine base layer).mapError .unlayered
  let complete ← (Layers.enterAll environment Layers.overrides combined).mapError .unlayered
  (Decode.check decoder complete).mapError .invalid

/-- Load a configuration from files. -/
def load (source : ConfigurationSource) (tree : FileTree)
    (environment : List (String × String)) : Except LoadingFailure Configuration := do
  let base ← source.base tree
  let layer? ← source.layer? tree environment
  ofLayers base layer? environment

/-- The configuration that comes with the library, in an environment. -/
def usual (environment : List (String × String)) : Except LoadingFailure Configuration :=
  ofLayers packaged ((ConfigurationSource.layerName? environment).map fun _ => .mapping [])
    environment

/-- The configuration of a source, or the one that comes with the library. -/
def ofSource (source? : Option ConfigurationSource) (tree : FileTree)
    (environment : List (String × String)) : Except LoadingFailure Configuration :=
  match source? with
  | none => usual environment
  | some source => load source tree environment

/-- The configuration that a path names, or the one that comes with the library. -/
def ofPath (path? : Option FilePath) (tree : FileTree) (environment : List (String × String)) :
    Except LoadingFailure Configuration :=
  ofSource (path?.map (ConfigurationSource.ofPath tree)) tree environment

end Configuration

end Optima
