import Optima.Document.Basic
import Optima.Proofs.Lists
import Optima.Table

namespace Optima

/-!
# Tables and documents

What is written into tables and documents is found in them again.
-/

/-!
## Looking names up in tables

A name that is entered has its new value, and all other names keep theirs.
-/

namespace Table

variable {β : Type}

/-- An entry is found under its name, and others as before. -/
theorem lookup_enter
    (name key : String)
    (value : β)
    (entries : List (String × β)) :
    (enter name value entries).lookup key =
      if key = name then some value else entries.lookup key := by
  induction entries with
  | nil =>
      by_cases sameName : key = name
      · simp [enter, sameName]
      · simp [enter, sameName, List.lookup_cons, beq_eq_false_iff_ne.mpr sameName]
  | cons entry rest inductionHypothesis =>
      obtain ⟨entryName, entryValue⟩ := entry
      unfold enter
      by_cases isEntry : entryName = name
      · subst entryName
        rw [if_pos (by simp)]
        by_cases sameName : key = name
        · simp [sameName]
        · simp [sameName, List.lookup_cons, beq_eq_false_iff_ne.mpr sameName]
      · rw [if_neg (by simpa using isEntry)]
        by_cases sameName : key = name
        · subst key
          have differs : (name == entryName) = false :=
            beq_eq_false_iff_ne.mpr (Ne.symm isEntry)
          simpa [List.lookup_cons, differs] using inductionHypothesis
        · simp only [sameName, ↓reduceIte] at inductionHypothesis
          simp [List.lookup_cons, inductionHypothesis, sameName]

/-- A name that is entered has its new value, and other names keep theirs. -/
@[simp]
theorem get?_insert
    (table : Table β)
    (name key : String)
    (value : β) :
    (table.insert name value).get? key =
      if key = name then some value else table.get? key :=
  lookup_enter name key value table.entries

/-- The empty table has no names. -/
@[simp]
theorem get?_empty
    (key : String) :
    (empty : Table β).get? key = none :=
  rfl

/-- A name that is not among the entries keeps its value. -/
theorem get?_insertAll_of_not_mem
    (table : Table β)
    (entries : List (String × β))
    {key : String}
    (isOther : key ∉ entries.map (·.1)) :
    (table.insertAll entries).get? key = table.get? key := by
  induction entries generalizing table with
  | nil =>
      rfl
  | cons entry rest inductionHypothesis =>
      simp only [List.map_cons, List.mem_cons, not_or] at isOther
      have restKept := inductionHypothesis (table.insert entry.1 entry.2) isOther.2
      rw [get?_insert, if_neg isOther.1] at restKept
      exact restKept

/-- What is found in a table was there before, or is one of the entries. -/
theorem mem_of_get?_insertAll_eq_some
    {table : Table β}
    {entries : List (String × β)}
    {key : String}
    {value : β}
    (found : (table.insertAll entries).get? key = some value) :
    table.get? key = some value ∨ (key, value) ∈ entries := by
  induction entries generalizing table with
  | nil =>
      exact Or.inl found
  | cons entry rest inductionHypothesis =>
      rcases inductionHypothesis found with isOlder | inRest
      · rw [get?_insert] at isOlder
        split at isOlder
        · rename_i sameName
          cases isOlder
          exact Or.inr (by simp [sameName])
        · exact Or.inl isOlder
      · exact Or.inr (List.mem_cons_of_mem entry inRest)

/-- Where every name is entered once, a table has the entries that it is made of. -/
theorem get?_insertAll_of_mem
    (table : Table β)
    {entries : List (String × β)}
    (distinct : (entries.map (·.1)).Nodup)
    {name : String}
    {value : β}
    (member : (name, value) ∈ entries) :
    (table.insertAll entries).get? name = some value := by
  induction entries generalizing table with
  | nil =>
      simp at member
  | cons entry rest inductionHypothesis =>
      obtain ⟨isNew, restDistinct⟩ := List.nodup_cons.mp distinct
      rcases List.mem_cons.mp member with isEntry | inRest
      · subst entry
        have kept := get?_insertAll_of_not_mem (table.insert name value) rest isNew
        rwa [get?_insert, if_pos rfl] at kept
      · exact inductionHypothesis (table.insert entry.1 entry.2) restDistinct inRest

theorem get?_ofList_of_mem
    {entries : List (String × β)}
    (distinct : (entries.map (·.1)).Nodup)
    {name : String}
    {value : β}
    (member : (name, value) ∈ entries) :
    (ofList entries).get? name = some value :=
  get?_insertAll_of_mem empty distinct member

theorem mem_of_get?_ofList_eq_some
    {entries : List (String × β)}
    {key : String}
    {value : β}
    (found : (ofList entries).get? key = some value) :
    (key, value) ∈ entries := by
  rcases mem_of_get?_insertAll_eq_some found with isEmpty | member
  · cases isEmpty
  · exact member

theorem get?_ofList_of_not_mem
    {entries : List (String × β)}
    {name : String}
    (isOther : name ∉ entries.map (·.1)) :
    (ofList entries).get? name = none :=
  get?_insertAll_of_not_mem empty entries isOther

/-- Of the entries of a name the last one counts. -/
theorem get?_ofList_append_cons
    (before after : List (String × β))
    {name : String}
    (value : β)
    (isLast : name ∉ after.map (·.1)) :
    (ofList (before ++ (name, value) :: after)).get? name = some value := by
  have isEntered := get?_insertAll_of_not_mem ((ofList before).insert name value) after isLast
  rw [get?_insert, if_pos rfl] at isEntered
  rw [ofList, insertAll, List.foldl_append, List.foldl_cons]
  exact isEntered

/-- A new name is entered at the end. -/
theorem enter_of_not_mem
    {name : String}
    (value : β)
    {entries : List (String × β)}
    (isNew : name ∉ entries.map (·.1)) :
    enter name value entries = entries ++ [(name, value)] := by
  induction entries with
  | nil =>
      rfl
  | cons entry rest inductionHypothesis =>
      simp only [List.map_cons, List.mem_cons, not_or] at isNew
      have isOther : (entry.1 == name) = false :=
        beq_eq_false_iff_ne.mpr (Ne.symm isNew.1)
      simp [enter, isOther, inductionHypothesis isNew.2]

/-- Entering the value that a name has already changes nothing. -/
theorem enter_of_lookup_eq_some
    {name : String}
    {value : β}
    {entries : List (String × β)}
    (isThere : entries.lookup name = some value) :
    enter name value entries = entries := by
  induction entries with
  | nil =>
      cases isThere
  | cons entry rest inductionHypothesis =>
      obtain ⟨key, current⟩ := entry
      rw [List.lookup_cons] at isThere
      unfold enter
      by_cases isKey : key = name
      · subst key
        simp_all
      · have isOther : (name == key) = false := beq_eq_false_iff_ne.mpr (Ne.symm isKey)
        rw [isOther] at isThere
        rw [if_neg (by simpa using isKey), inductionHypothesis isThere]

/-- Entering a value for a name that is there keeps the names as they are. -/
theorem map_fst_enter_of_mem
    {name : String}
    (value : β)
    {entries : List (String × β)}
    (isThere : name ∈ entries.map (·.1)) :
    (enter name value entries).map (·.1) = entries.map (·.1) := by
  induction entries with
  | nil =>
      simp at isThere
  | cons entry rest inductionHypothesis =>
      unfold enter
      split
      · rename_i isEntry
        have sameName : entry.1 = name := by simpa using isEntry
        simp [sameName]
      · rename_i isOther
        simp only [List.map_cons, List.mem_cons] at isThere
        have inRest := isThere.resolve_left fun sameName => isOther (by simp [sameName])
        simp [inductionHypothesis inRest]

/-- A table into which something is entered is not empty. -/
theorem entries_insert_ne_nil
    (table : Table β)
    (name : String)
    (value : β) :
    (table.insert name value).entries ≠ [] := by
  intro isEmpty
  have isThere := get?_insert table name name value
  rw [get?, isEmpty] at isThere
  simp at isThere

/-- Entering a value enters no other name. -/
theorem mem_names_insert
    (table : Table β)
    {name key : String}
    (value : β)
    (member : key ∈ (table.insert name value).names) :
    key = name ∨ key ∈ table.names := by
  simp only [names, insert] at member
  by_cases isThere : name ∈ table.entries.map (·.1)
  · rw [map_fst_enter_of_mem value isThere] at member
    exact Or.inr member
  · rw [enter_of_not_mem value isThere, List.map_append] at member
    simpa [names, or_comm] using member

/-- Entering a value keeps the names of a table distinct. -/
theorem nodup_names_insert
    {table : Table β}
    (distinct : table.names.Nodup)
    (name : String)
    (value : β) :
    (table.insert name value).names.Nodup := by
  simp only [names, insert] at distinct ⊢
  by_cases isThere : name ∈ table.entries.map (·.1)
  · rwa [map_fst_enter_of_mem value isThere]
  · rw [enter_of_not_mem value isThere, List.map_append]
    exact nodup_append_singleton_iff.mpr ⟨distinct, isThere⟩

/-- Another value for a name leaves the names of a table as they are. -/
theorem names_insert_of_get?_eq_some
    {table : Table β}
    {name : String}
    {known : β}
    (isThere : table.get? name = some known)
    (value : β) :
    (table.insert name value).names = table.names := by
  obtain ⟨before, after, shape, -⟩ := List.lookup_eq_some_iff.mp isThere
  refine map_fst_enter_of_mem value ?_
  simp [shape]

/-- The names of a table are those that have a value. -/
theorem mem_names_iff
    (table : Table β)
    (key : String) :
    key ∈ table.names ↔ table.get? key ≠ none := by
  rw [get?, Ne, List.lookup_eq_none_iff, names, List.mem_map]
  constructor
  · rintro ⟨entry, member, sameName⟩ noEntry
    simpa [sameName] using noEntry entry member
  · intro someEntry
    by_contra noEntry
    apply someEntry
    intro entry member
    rw [bne_iff_ne]
    intro sameName
    exact noEntry ⟨entry, member, sameName.symm⟩

/-- What a table entered into another one gives a value has that value there. -/
theorem get?_merge_of_mem
    (table : Table β)
    {other : Table β}
    (distinct : other.names.Nodup)
    {name : String}
    (member : name ∈ other.names) :
    (table.merge other).get? name = other.get? name := by
  obtain ⟨value, isValue⟩ := Option.ne_none_iff_exists'.mp ((mem_names_iff other name).mp member)
  obtain ⟨before, after, shape, -⟩ := List.lookup_eq_some_iff.mp isValue
  have isEntry : (name, value) ∈ other.entries := by simp [shape]
  rw [isValue]
  exact get?_insertAll_of_mem table distinct isEntry

/-- A table has the names that its entries name. -/
theorem contains_iff_mem_names
    (table : Table β)
    (key : String) :
    table.contains key = true ↔ key ∈ table.names := by
  simp [contains, names]

/-- A table has the names of the entries that it is made of. -/
theorem contains_ofList_of_mem
    {entries : List (String × β)}
    {name : String}
    (member : name ∈ entries.map (·.1)) :
    (ofList entries).contains name = true := by
  have isEntered (table : Table β) : (table.insertAll entries).get? name ≠ none := by
    induction entries generalizing table with
    | nil =>
        cases member
    | cons entry rest inductionHypothesis =>
        by_cases inRest : name ∈ rest.map (·.1)
        · exact inductionHypothesis inRest (table.insert entry.1 entry.2)
        · have isFirst : name = entry.1 := (List.mem_cons.mp member).resolve_right inRest
          have kept := get?_insertAll_of_not_mem (table.insert entry.1 entry.2) rest inRest
          rw [get?_insert, if_pos isFirst] at kept
          exact fun isMissing => Option.some_ne_none _ (kept.symm.trans isMissing)
  rw [contains_iff_mem_names, mem_names_iff]
  exact isEntered empty

/-- Entries of new names, of which none is entered twice, are entered at the end. -/
theorem entries_insertAll_of_nodup
    {table : Table β}
    {entries : List (String × β)}
    (distinct : (table.names ++ entries.map (·.1)).Nodup) :
    (table.insertAll entries).entries = table.entries ++ entries := by
  induction entries generalizing table with
  | nil =>
      exact (List.append_nil _).symm
  | cons entry rest inductionHypothesis =>
      have isNew : entry.1 ∉ table.names := by
        intro isThere
        exact List.disjoint_of_nodup_append distinct isThere List.mem_cons_self
      have isEntered : (table.insert entry.1 entry.2).entries = table.entries ++ [entry] :=
        enter_of_not_mem entry.2 isNew
      have restDistinct :
          ((table.insert entry.1 entry.2).names ++ rest.map (·.1)).Nodup := by
        rw [names, isEntered, List.map_append, List.append_assoc]
        exact distinct
      have areEntered := inductionHypothesis restDistinct
      rw [isEntered, List.append_assoc] at areEntered
      exact areEntered

/-- Where every name is entered once, a table has the entries that it is made of. -/
theorem entries_ofList_of_nodup
    {entries : List (String × β)}
    (distinct : (entries.map (·.1)).Nodup) :
    (ofList entries).entries = entries :=
  entries_insertAll_of_nodup (show (empty.names ++ entries.map (·.1)).Nodup from distinct)

/-- The names of a table of entries are distinct. -/
theorem nodup_names_ofList
    (entries : List (String × β)) :
    (ofList entries).names.Nodup := by
  have fromStart (table : Table β) (distinct : table.names.Nodup) :
      (table.insertAll entries).names.Nodup := by
    induction entries generalizing table with
    | nil =>
        exact distinct
    | cons entry rest inductionHypothesis =>
        exact inductionHypothesis _ (nodup_names_insert distinct entry.1 entry.2)
  exact fromStart empty List.nodup_nil

/-- Taking a new name out again leaves the table that it was entered into. -/
theorem erase_insert_of_not_mem
    {table : Table β}
    {name : String}
    (value : β)
    (isNew : name ∉ table.names) :
    (table.insert name value).erase name = table := by
  have othersStay : table.entries.filter (·.1 != name) = table.entries := by
    rw [List.filter_eq_self]
    intro entry member
    rw [bne_iff_ne]
    intro sameName
    exact isNew (List.mem_map.mpr ⟨entry, member, sameName⟩)
  simp [erase, insert, enter_of_not_mem value isNew, othersStay]

section Related

variable {γ : Type} {related : β → γ → Prop} {table : Table β} {other : Table γ}

/-- Two tables have the same names in the same order, and their values are related. -/
def Related (related : β → γ → Prop) (table : Table β) (other : Table γ) : Prop :=
  List.Forall₂ (fun entry image => entry.1 = image.1 ∧ related entry.2 image.2) table.entries
    other.entries

theorem Related.refl
    {related : β → β → Prop}
    (isSelf : ∀ value, related value value)
    (table : Table β) :
    table.Related related table :=
  List.forall₂_same.mpr fun entry _ => ⟨rfl, isSelf entry.2⟩

theorem Related.insert
    (areRelated : table.Related related other)
    (name : String)
    {value : β}
    {image : γ}
    (isRelated : related value image) :
    (table.insert name value).Related related (other.insert name image) := by
  obtain ⟨entries⟩ := table
  obtain ⟨images⟩ := other
  change List.Forall₂ _ entries images at areRelated
  change List.Forall₂ _ (enter name value entries) (enter name image images)
  induction areRelated with
  | nil =>
      exact .cons ⟨rfl, isRelated⟩ .nil
  | cons isEntry areEntries inductionHypothesis =>
      unfold enter
      rw [← isEntry.1]
      split
      · exact .cons ⟨rfl, isRelated⟩ areEntries
      · exact .cons isEntry inductionHypothesis

/-- Tables that are made of related entries are related. -/
theorem related_ofList
    {entries : List (String × β)}
    {images : List (String × γ)}
    (areRelated :
      List.Forall₂ (fun entry image => entry.1 = image.1 ∧ related entry.2 image.2) entries
        images) :
    (ofList entries).Related related (ofList images) := by
  have fromStart (table : Table β) (other : Table γ) (isStart : table.Related related other) :
      (table.insertAll entries).Related related (other.insertAll images) := by
    induction areRelated generalizing table other with
    | nil => exact isStart
    | cons isEntry _ inductionHypothesis =>
        refine inductionHypothesis _ _ ?_
        dsimp only
        rw [← isEntry.1]
        exact isStart.insert _ isEntry.2
  exact fromStart empty empty .nil

/-- What is found in related tables is related. -/
theorem Related.get?
    (areRelated : table.Related related other)
    (name : String) :
    Option.Rel related (table.get? name) (other.get? name) := by
  obtain ⟨entries⟩ := table
  obtain ⟨images⟩ := other
  change List.Forall₂ _ entries images at areRelated
  change Option.Rel related (entries.lookup name) (images.lookup name)
  induction areRelated with
  | nil =>
      exact .none
  | @cons entry image _ _ isEntry _ inductionHypothesis =>
      rw [List.lookup_cons, List.lookup_cons, ← isEntry.1]
      cases name == entry.1 with
      | true => exact .some isEntry.2
      | false => exact inductionHypothesis

end Related

end Table

section Entries

variable {κ β : Type} [BEq κ] [LawfulBEq κ] {entries : List (κ × β)} {name : κ} {value : β}

/-- Where every name is entered once, the entries of a name are the one that it has. -/
theorem filter_name_eq_of_mem
    {entries : List (String × β)}
    {name : String}
    (distinct : (entries.map (·.1)).Nodup)
    (member : (name, value) ∈ entries) :
    entries.filter (·.1 == name) = [(name, value)] :=
  filter_key_eq_of_mem distinct member

/-- Where every name is entered once, a name is found with the value that it has. -/
theorem lookup_eq_some_of_mem
    (distinct : (entries.map (·.1)).Nodup)
    (member : (name, value) ∈ entries) :
    entries.lookup name = some value := by
  induction entries with
  | nil =>
      simp at member
  | cons entry rest inductionHypothesis =>
      obtain ⟨isNew, restDistinct⟩ := List.nodup_cons.mp distinct
      rcases List.mem_cons.mp member with isEntry | inRest
      · subst entry
        exact List.lookup_cons_self
      · have isOther : (name == entry.1) = false := by
          rw [beq_eq_false_iff_ne]
          intro sameName
          exact isNew (List.mem_map.mpr ⟨(name, value), inRest, sameName⟩)
        rw [List.lookup_cons, isOther]
        exact inductionHypothesis restDistinct inRest

/-- Entries of the same names, each entered once, are the same if the names are found with the same
values. -/
theorem entries_eq_of_lookup_eq
    {entries others : List (κ × β)}
    (sameNames : entries.map (·.1) = others.map (·.1))
    (distinct : (entries.map (·.1)).Nodup)
    (sameValues : ∀ name ∈ entries.map (·.1), entries.lookup name = others.lookup name) :
    entries = others := by
  induction entries generalizing others with
  | nil =>
      exact (List.map_eq_nil_iff.mp sameNames.symm).symm
  | cons entry rest inductionHypothesis =>
      cases others with
      | nil => cases sameNames
      | cons other others =>
          obtain ⟨key, value⟩ := entry
          obtain ⟨otherKey, otherValue⟩ := other
          simp only [List.map_cons, List.cons.injEq] at sameNames
          obtain ⟨rfl, restNames⟩ := sameNames
          obtain ⟨isNew, restDistinct⟩ := List.nodup_cons.mp distinct
          obtain rfl : value = otherValue := by
            simpa using sameValues key List.mem_cons_self
          have restSame : rest = others := by
            refine inductionHypothesis restNames restDistinct fun name member => ?_
            have isOther : (name == key) = false := by
              rw [beq_eq_false_iff_ne]
              rintro rfl
              exact isNew member
            simpa [List.lookup_cons, isOther] using
              sameValues name (List.mem_cons_of_mem _ member)
          rw [restSame]

/-- What is found by a name is entered with it. -/
theorem mem_of_lookup_eq_some
    (found : entries.lookup name = some value) :
    (name, value) ∈ entries := by
  obtain ⟨before, after, rfl, -⟩ := List.lookup_eq_some_iff.mp found
  exact List.mem_append_right _ List.mem_cons_self

/-- Changing values does not change what they are found by. -/
theorem lookup_map_values
    {γ : Type}
    (change : κ → β → γ)
    (entries : List (κ × β))
    (name : κ) :
    (entries.map fun entry => (entry.1, change entry.1 entry.2)).lookup name =
      (entries.lookup name).map (change name) := by
  induction entries with
  | nil => rfl
  | cons entry rest inductionHypothesis =>
      rw [List.map_cons, List.lookup_cons, List.lookup_cons]
      cases isName : name == entry.1 with
      | true => rw [eq_of_beq isName, Option.map_some]
      | false => exact inductionHypothesis

/-- The entries of a table are among those that it is made of. -/
theorem Table.mem_of_mem_entries_ofList
    {entries : List (String × β)}
    {entry : String × β}
    (member : entry ∈ (Table.ofList entries).entries) :
    entry ∈ entries :=
  Table.mem_of_get?_ofList_eq_some
    (lookup_eq_some_of_mem (Table.nodup_names_ofList entries) member)

/-- A name is found among the entries that are kept as among all, if its own are kept. -/
theorem lookup_filter_of_keep
    {keep : κ → Bool}
    (isKept : keep name = true)
    (entries : List (κ × β)) :
    (entries.filter fun entry => keep entry.1).lookup name = entries.lookup name := by
  induction entries with
  | nil => rfl
  | cons entry rest inductionHypothesis =>
      rw [List.filter_cons, List.lookup_cons]
      by_cases keepsEntry : keep entry.1 = true
      · rw [if_pos keepsEntry, List.lookup_cons, inductionHypothesis]
      · have isOther : (name == entry.1) = false := by
          rw [beq_eq_false_iff_ne]
          rintro rfl
          exact keepsEntry isKept
        rw [if_neg keepsEntry, isOther, inductionHypothesis]

end Entries

/-!
## Reading documents back

Lists of texts and numbers, and lists of values that are themselves read back, are
read as they were written.
-/

namespace Document

variable {α : Type}

/-- The number that a document is. -/
def number? : Document α → Option α
  | .number value => some value
  | _ => none

/-- Texts that are written as a list are read back. -/
theorem mapM_text?_texts
    (values : List String) :
    (texts values : Document α).items.mapM text? = some values := by
  induction values with
  | nil =>
      rfl
  | cons value rest inductionHypothesis =>
      simp only [texts, items] at inductionHypothesis
      simp [texts, items, text?, inductionHypothesis]

/-- Numbers that are written as a list are read back. -/
theorem mapM_number?_numbers
    (values : List α) :
    (listOf .number values).items.mapM number? = some values := by
  induction values with
  | nil =>
      rfl
  | cons value rest inductionHypothesis =>
      simp only [listOf, items] at inductionHypothesis
      simp [listOf, items, number?, inductionHypothesis]

/-- Values that are written as a list are read back if each of them is. -/
theorem mapM_listOf
    {β γ : Type}
    {write : β → Document α}
    {read? : Document α → Option γ}
    {view : β → γ}
    (values : List β)
    (readBack : ∀ value ∈ values, read? (write value) = some (view value)) :
    (listOf write values).items.mapM read? = some (values.map view) := by
  induction values with
  | nil =>
      rfl
  | cons value rest inductionHypothesis =>
      have restBack :=
        inductionHypothesis fun other member =>
          readBack other (List.mem_cons_of_mem value member)
      simp only [listOf, items] at restBack
      simp [listOf, items, readBack value, restBack]

end Document

end Optima
