import Optima.Configuration.Basic
import Optima.Configuration.Layers
import Optima.Proofs.Table

namespace Optima

/-!
# What one layer over another one says

A layer that is laid over a base is heard wherever it says anything, and the base wherever the layer
keeps silent.  Laying the same layer over the result again changes nothing, and neither does laying
anything over itself.
-/

namespace Document

variable {α : Type}

/-- Whether a document is a mapping. -/
def IsMapping (document : Document α) : Prop :=
  ∃ entries, document = .mapping entries

mutual

/-- No mapping has a name twice, however deep it lies in other mappings; no dictionary ever has. -/
def HasDistinctNames : Document α → Prop
  | .mapping entries => (entries.map (·.1)).Nodup ∧ HaveDistinctNames entries
  | _ => True

/-- The values of entries have no name twice. -/
def HaveDistinctNames : List (String × Document α) → Prop
  | [] => True
  | (_, value) :: rest => HasDistinctNames value ∧ HaveDistinctNames rest

end

/-!
## Laying entries over entries
-/

/-- What is laid at a name over entries. -/
def laidAt (below : List (String × Document α)) (name : String) (value : Document α) :
    Document α :=
  match below.lookup name with
  | none => value
  | some current => current.overlay value

/-- Entries are laid over others one after the other. -/
theorem overlayEntries_cons
    (below rest : List (String × Document α))
    (name : String)
    (value : Document α) :
    overlayEntries below ((name, value) :: rest) =
      overlayEntries (Table.enter name (laidAt below name value) below) rest := by
  rw [overlayEntries]
  rfl

/-- Where not both are mappings, a document replaces what it is laid over. -/
theorem overlay_of_not_both_mappings
    {below above : Document α}
    (notBoth : ¬ (below.IsMapping ∧ above.IsMapping)) :
    below.overlay above = above := by
  unfold overlay
  split
  · exact absurd ⟨⟨_, rfl⟩, _, rfl⟩ notBoth
  · rfl

/-- What is no mapping replaces whatever it is laid over. -/
theorem overlay_of_not_isMapping
    {above : Document α}
    (isPlain : ¬ above.IsMapping)
    (below : Document α) :
    below.overlay above = above :=
  overlay_of_not_both_mappings fun both => isPlain both.2

/-- Only mappings have something at a name. -/
theorem isMapping_of_field?_eq_some
    {document value : Document α}
    {name : String}
    (isThere : document.field? name = some value) :
    document.IsMapping := by
  unfold field? at isThere
  split at isThere
  · exact ⟨_, rfl⟩
  · cases isThere

/-- What a mapping has at a name has no name twice if the mapping has none. -/
theorem hasDistinctNames_of_lookup
    {entries : List (String × Document α)}
    {name : String}
    {value : Document α}
    (distinct : (Document.mapping entries).HasDistinctNames)
    (isThere : entries.lookup name = some value) :
    value.HasDistinctNames := by
  have member : (name, value) ∈ entries := mem_of_lookup_eq_some isThere
  replace distinct : HaveDistinctNames entries := distinct.2
  clear isThere
  induction entries with
  | nil =>
      cases member
  | cons entry rest inductionHypothesis =>
      rcases List.mem_cons.mp member with isFirst | inRest
      · subst isFirst
        exact distinct.1
      · exact inductionHypothesis inRest distinct.2

/-- What is found at a name in entries that are laid over others. -/
theorem lookup_overlayEntries
    {above : List (String × Document α)}
    (distinct : (above.map (·.1)).Nodup)
    (below : List (String × Document α))
    (name : String) :
    (overlayEntries below above).lookup name =
      match above.lookup name with
      | none => below.lookup name
      | some value => some (laidAt below name value) := by
  induction above generalizing below with
  | nil =>
      rfl
  | cons entry rest inductionHypothesis =>
      obtain ⟨key, value⟩ := entry
      obtain ⟨isNew, restDistinct⟩ := List.nodup_cons.mp distinct
      rw [overlayEntries_cons, inductionHypothesis restDistinct, List.lookup_cons]
      by_cases isKey : name = key
      · subst key
        have noneLater : rest.lookup name = none := by
          rw [List.lookup_eq_none_iff]
          intro other member
          rw [bne_iff_ne]
          rintro rfl
          exact isNew (List.mem_map.mpr ⟨other, member, rfl⟩)
        simp [noneLater, Table.lookup_enter]
      · have isOther : (name == key) = false := beq_eq_false_iff_ne.mpr isKey
        rw [isOther]
        cases rest.lookup name with
        | none => simp [Table.lookup_enter, isKey]
        | some later => simp [laidAt, Table.lookup_enter, isKey]

/-!
## Laying the same again
-/

/-- Laying over entries what changes nothing at any name changes nothing. -/
theorem overlayEntries_eq_self
    {below above : List (String × Document α)}
    (changesNothing :
      ∀ entry ∈ above, ∃ current,
        below.lookup entry.1 = some current ∧ current.overlay entry.2 = current) :
    overlayEntries below above = below := by
  induction above with
  | nil =>
      rfl
  | cons entry rest inductionHypothesis =>
      obtain ⟨name, value⟩ := entry
      obtain ⟨current, isCurrent, stays⟩ := changesNothing (name, value) List.mem_cons_self
      have isLaid : laidAt below name value = current := by
        simp [laidAt, isCurrent, stays]
      rw [overlayEntries_cons, isLaid, Table.enter_of_lookup_eq_some isCurrent]
      exact inductionHypothesis fun other member =>
        changesNothing other (List.mem_cons_of_mem _ member)

mutual

/-- A document that is laid over itself stays what it is. -/
theorem overlay_self
    {document : Document α}
    (distinct : document.HasDistinctNames) :
    document.overlay document = document := by
  match document, distinct with
  | .mapping entries, distinct =>
      rw [overlay, overlayEntries_eq_self]
      intro entry member
      have isThere := lookup_eq_some_of_mem distinct.1 member
      exact ⟨entry.2, isThere, overlay_self_of_mem distinct.2 member⟩
  | .null, _ | .boolean _, _ | .integer _, _ | .number _, _ | .text _, _ | .list _, _ => rfl

theorem overlay_self_of_mem
    {entries : List (String × Document α)}
    (distinct : HaveDistinctNames entries)
    {entry : String × Document α}
    (member : entry ∈ entries) :
    entry.2.overlay entry.2 = entry.2 := by
  match entries, distinct with
  | (name, value) :: rest, distinct =>
      rcases List.mem_cons.mp member with isFirst | inRest
      · rw [isFirst]
        exact overlay_self distinct.1
      · exact overlay_self_of_mem distinct.2 inRest

end

mutual

/-- Laying a document over another one again changes nothing. -/
theorem overlay_overlay
    {above : Document α}
    (distinct : above.HasDistinctNames)
    (below : Document α) :
    (below.overlay above).overlay above = below.overlay above := by
  by_cases isMapping : above.IsMapping
  · obtain ⟨upper, rfl⟩ := isMapping
    by_cases hasMapping : below.IsMapping
    · obtain ⟨lower, rfl⟩ := hasMapping
      rw [overlay, overlay, overlayEntries_eq_self]
      intro entry member
      have isLaid : (overlayEntries lower upper).lookup entry.1 =
          some (laidAt lower entry.1 entry.2) := by
        rw [lookup_overlayEntries distinct.1, lookup_eq_some_of_mem distinct.1 member]
      exact ⟨_, isLaid, overlay_laidAt_of_mem distinct.2 member lower entry.1⟩
    · rw [overlay_of_not_both_mappings (fun both => hasMapping both.1), overlay_self distinct]
  · rw [overlay_of_not_isMapping isMapping, overlay_of_not_isMapping isMapping]

theorem overlay_laidAt_of_mem
    {entries : List (String × Document α)}
    (distinct : HaveDistinctNames entries)
    {entry : String × Document α}
    (member : entry ∈ entries)
    (below : List (String × Document α))
    (name : String) :
    (laidAt below name entry.2).overlay entry.2 = laidAt below name entry.2 := by
  match entries, distinct with
  | (_, value) :: rest, distinct =>
      rcases List.mem_cons.mp member with isFirst | inRest
      · rw [isFirst]
        unfold laidAt
        split
        · exact overlay_self distinct.1
        · exact overlay_overlay distinct.1 _
      · exact overlay_laidAt_of_mem distinct.2 inRest below name

end

end Document

/-- A layer that is a mapping can be laid over a base that is one. -/
theorem Layers.combine_of_isMapping
    {base layer : Document Float}
    (baseIsMapping : base.IsMapping)
    (layerIsMapping : layer.IsMapping) :
    combine base layer = .ok (base.overlay layer) := by
  obtain ⟨lower, rfl⟩ := baseIsMapping
  obtain ⟨upper, rfl⟩ := layerIsMapping
  rfl

namespace Configuration

/-!
## What stands at a path

A path leads through mappings only.  A layer that has something other than a mapping on the way, or
anything at the end, is not silent about the path.
-/

/-- A layer is silent about a path if it has nothing there, and nothing but mappings on the way. -/
def IsSilent (layer : Document Float) (path : List String) : Prop :=
  follow path layer = none ∧
    ∀ start, start <+: path → ∀ value, follow start layer = some value → value.IsMapping

/-- What says, at every path, what a layer over a base has to say. -/
structure IsLayered (base layer combined : Document Float) : Prop where
  /-- What the layer has at a path stands there, unless it is a mapping. -/
  speaks :
    ∀ path value, follow path layer = some value → ¬ value.IsMapping →
      follow path combined = some value
  /-- What the base has at a path stays, if the layer is silent about it. -/
  stays :
    ∀ path value, follow path base = some value → IsSilent layer path →
      follow path combined = some value
  /-- Whatever stands at a path, the layer has something there, the same unless that is a mapping,
  or it has come from the base, about which the layer is silent. -/
  comesFrom :
    ∀ path value, follow path combined = some value →
      (∃ found, follow path layer = some found ∧ (value.IsMapping ∨ found = value)) ∨
        follow path base = some value ∧ IsSilent layer path

/-- A layer is silent about a path below a name if what it has at the name is silent about the rest,
whatever it has there. -/
theorem isSilent_cons_iff
    {entries : List (String × Document Float)}
    {name : String}
    {rest : List String} :
    IsSilent (.mapping entries) (name :: rest) ↔
      ∀ value, entries.lookup name = some value → IsSilent value rest := by
  constructor
  · intro ⟨isNone, onTheWay⟩ value isThere
    rw [follow, Document.field?, isThere] at isNone
    refine ⟨isNone, fun start isStart found isFound => ?_⟩
    refine onTheWay (name :: start) ((List.prefix_cons_inj name).mpr isStart) found ?_
    rw [follow, Document.field?, isThere]
    exact isFound
  · intro below
    refine ⟨?_, fun start isStart found isFound => ?_⟩
    · rw [follow, Document.field?]
      cases isThere : entries.lookup name with
      | none => rfl
      | some value => exact (below value isThere).1
    · cases start with
      | nil =>
          exact ⟨entries, (Option.some.inj isFound).symm⟩
      | cons first start =>
          obtain ⟨rfl, isRest⟩ := List.cons_prefix_cons.mp isStart
          obtain ⟨value, isThere, isBelow⟩ := Option.bind_eq_some_iff.mp isFound
          exact (below value isThere).2 start isRest found isBelow

/-- A layer that is silent about a path is a mapping. -/
theorem IsSilent.isMapping
    {layer : Document Float}
    {path : List String}
    (isSilent : IsSilent layer path) :
    layer.IsMapping :=
  isSilent.2 [] List.nil_prefix layer rfl

/-- What is found by following a path into entries that are laid over others. -/
theorem follow_cons_overlay
    {upper : List (String × Document Float)}
    (distinct : (upper.map (·.1)).Nodup)
    (lower : List (String × Document Float))
    (name : String)
    (rest : List String) :
    follow (name :: rest) ((Document.mapping lower).overlay (.mapping upper)) =
      match upper.lookup name, lower.lookup name with
      | none, current => current.bind (follow rest)
      | some value, none => follow rest value
      | some value, some current => follow rest (current.overlay value) := by
  rw [follow, Document.overlay, Document.field?, Document.lookup_overlayEntries distinct]
  cases upper.lookup name with
  | none => rfl
  | some value =>
      change follow rest (Document.laidAt lower name value) = _
      unfold Document.laidAt
      cases lower.lookup name <;> rfl

section Paths

variable {layer : Document Float} {path : List String} {value : Document Float}

theorem follow_overlay_of_follow_layer
    (distinct : layer.HasDistinctNames)
    (isThere : follow path layer = some value)
    (isLeaf : ¬ value.IsMapping)
    (base : Document Float) :
    follow path (base.overlay layer) = some value := by
  induction path generalizing base layer with
  | nil =>
      obtain rfl : layer = value := Option.some.inj isThere
      rw [Document.overlay_of_not_isMapping isLeaf]
      rfl
  | cons name rest inductionHypothesis =>
      by_cases areMappings : base.IsMapping ∧ layer.IsMapping
      · obtain ⟨⟨lower, rfl⟩, upper, rfl⟩ := areMappings
        obtain ⟨found, isFound, isThere⟩ := Option.bind_eq_some_iff.mp isThere
        rw [Document.field?] at isFound
        rw [follow_cons_overlay distinct.1, isFound]
        cases lower.lookup name with
        | none => exact isThere
        | some current =>
            exact inductionHypothesis (Document.hasDistinctNames_of_lookup distinct isFound) isThere
              current
      · rw [Document.overlay_of_not_both_mappings areMappings]
        exact isThere

theorem follow_overlay_of_isSilent
    {base : Document Float}
    (distinct : layer.HasDistinctNames)
    (isThere : follow path base = some value)
    (isSilent : IsSilent layer path) :
    follow path (base.overlay layer) = some value := by
  induction path generalizing base layer with
  | nil =>
      cases isSilent.1
  | cons name rest inductionHypothesis =>
      obtain ⟨upper, rfl⟩ := isSilent.isMapping
      obtain ⟨current, isCurrent, isBelow⟩ := Option.bind_eq_some_iff.mp isThere
      obtain ⟨lower, rfl⟩ := Document.isMapping_of_field?_eq_some isCurrent
      rw [Document.field?] at isCurrent
      rw [follow_cons_overlay distinct.1, isCurrent]
      cases isUpper : upper.lookup name with
      | none => exact isBelow
      | some found =>
          exact inductionHypothesis (Document.hasDistinctNames_of_lookup distinct isUpper) isBelow
            (isSilent_cons_iff.mp isSilent found isUpper)

theorem follow_layer_or_base_of_follow_overlay
    {base : Document Float}
    (distinct : layer.HasDistinctNames)
    (isThere : follow path (base.overlay layer) = some value) :
    (∃ found, follow path layer = some found ∧ (value.IsMapping ∨ found = value)) ∨
      follow path base = some value ∧ IsSilent layer path := by
  induction path generalizing base layer with
  | nil =>
      refine .inl ⟨layer, rfl, ?_⟩
      obtain rfl : base.overlay layer = value := Option.some.inj isThere
      by_cases areMappings : base.IsMapping ∧ layer.IsMapping
      · obtain ⟨⟨lower, rfl⟩, upper, rfl⟩ := areMappings
        exact .inl ⟨_, by rw [Document.overlay]⟩
      · exact .inr (Document.overlay_of_not_both_mappings areMappings).symm
  | cons name rest inductionHypothesis =>
      by_cases areMappings : base.IsMapping ∧ layer.IsMapping
      · obtain ⟨⟨lower, rfl⟩, upper, rfl⟩ := areMappings
        rw [follow_cons_overlay distinct.1] at isThere
        rw [isSilent_cons_iff, follow, follow, Document.field?, Document.field?]
        cases isUpper : upper.lookup name with
        | none =>
            rw [isUpper] at isThere
            exact .inr ⟨isThere, by simp⟩
        | some found =>
            cases isLower : lower.lookup name with
            | none =>
                rw [isUpper, isLower] at isThere
                exact .inl ⟨value, isThere, .inr rfl⟩
            | some current =>
                rw [isUpper, isLower] at isThere
                rcases inductionHypothesis (Document.hasDistinctNames_of_lookup distinct isUpper)
                  isThere with fromLayer | ⟨fromBase, isSilent⟩
                · exact .inl fromLayer
                · refine .inr ⟨fromBase, ?_⟩
                  rintro _ ⟨⟩
                  exact isSilent
      · rw [Document.overlay_of_not_both_mappings areMappings] at isThere
        exact .inl ⟨value, isThere, .inr rfl⟩

end Paths

/-- A layer that is laid over a base says at every path what it has to. -/
theorem isLayered_overlay
    {layer : Document Float}
    (distinct : layer.HasDistinctNames)
    (base : Document Float) :
    IsLayered base layer (base.overlay layer) where
  speaks _ _ isThere isLeaf := follow_overlay_of_follow_layer distinct isThere isLeaf base
  stays _ _ isThere isSilent := follow_overlay_of_isSilent distinct isThere isSilent
  comesFrom _ _ isThere := follow_layer_or_base_of_follow_overlay distinct isThere

end Configuration

end Optima
