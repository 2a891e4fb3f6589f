import Optima.Document.Number

namespace Optima

/-!
# Layers of a configuration

A configuration is put together from a base, a layer for the environment that lies
over it, and single settings that the environment names.  Where both a layer and
what lies below it have a mapping, the mappings are put together in turn; anything
else replaces what lies below.
-/

namespace Document

variable {α : Type}

mutual

/-- Lay a document over another one. -/
def overlay : Document α → Document α → Document α
  | .mapping below, .mapping above => .mapping (overlayEntries below above)
  | _, above => above

/-- Lay the entries of a mapping over those of another one. -/
def overlayEntries (below : List (String × Document α)) :
    List (String × Document α) → List (String × Document α)
  | [] => below
  | (name, value) :: rest =>
    let laid :=
      match below.lookup name with
      | none => value
      | some current => overlay current value
    overlayEntries (Table.enter name laid below) rest

end

end Document

/-- Why the layers of a configuration do not fit together. -/
inductive LayerFailure where
  /-- One of two layers is no mapping. -/
  | notLayered
  /-- A setting has no mapping to be entered into. -/
  | noSection
  deriving Repr, DecidableEq

namespace Layers

/-- Documents that count as absent: null, false, zero and everything empty. -/
def isVoid : Document Float → Bool
  | .null | .boolean false | .integer 0 | .text "" | .list [] | .mapping [] => true
  | .number value => value == 0
  | _ => false

/-- A document, or an empty mapping in place of one that counts as absent. -/
def orEmpty (document : Document Float) : Document Float :=
  if isVoid document then .mapping [] else document

/-- Lay the layer of an environment over the base. -/
def combine (base layer : Document Float) : Except LayerFailure (Document Float) :=
  match base, layer with
  | .mapping _, .mapping _ => .ok (base.overlay layer)
  | .list items, .mapping entries =>
    if entries.isEmpty then .ok (.list items) else .error .noSection
  | _, _ => .error .notLayered

/-- A setting that the environment may name. -/
structure Override where
  /-- The name of the variable. -/
  name : String
  part : String
  key : String
  /-- Whether it is a number; one that is none is ignored. -/
  isNumber : Bool
  deriving Repr

/-- The settings that the environment may name. -/
def overrides : List Override :=
  [⟨"OPT_ENGINE_LOG_LEVEL", "logging", "level", false⟩,
   ⟨"OPT_ENGINE_DEFAULT_ALGORITHM", "solvers", "default", false⟩,
   ⟨"OPT_ENGINE_TIME_LIMIT", "solvers", "time_limit", true⟩,
   ⟨"OPT_ENGINE_STORAGE_BACKEND", "storage", "backend", false⟩,
   ⟨"OPT_ENGINE_STORAGE_PATH", "storage", "path", false⟩]

/-- The value of a setting, if it is not to be ignored. -/
def Override.value? (setting : Override) (written : String) : Option (Document Float) :=
  if setting.isNumber then (Document.readLenient? written).map .number
  else some (.text written)

/-- Enter a setting into the part of a configuration that it belongs to. -/
def enter (setting : Override) (written : String) (configuration : Document Float) :
    Except LayerFailure (Document Float) :=
  match configuration with
  | .mapping entries =>
    let part := (entries.lookup setting.part).getD (.mapping [])
    match setting.value? written, part with
    | none, _ => .ok (.mapping (Table.enter setting.part part entries))
    | some value, .mapping fields =>
      let entered := Document.mapping (Table.enter setting.key value fields)
      .ok (.mapping (Table.enter setting.part entered entries))
    | some _, _ => .error .noSection
  | _ => .error .noSection

/-- Enter the settings that the environment names. -/
def enterAll (environment : List (String × String)) :
    List Override → Document Float → Except LayerFailure (Document Float)
  | [], configuration => .ok configuration
  | setting :: rest, configuration =>
    match environment.lookup setting.name with
    | none => enterAll environment rest configuration
    | some written => do
      let entered ← enter setting written configuration
      enterAll environment rest entered

end Layers

end Optima
