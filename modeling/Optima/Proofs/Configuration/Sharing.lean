import Optima.Proofs.Configuration.Layers

namespace Optima

/-!
# Laying dictionaries over each other leaves them as they are

In memory the mappings of a configuration are dictionaries, which name each other by their addresses
and may be shared.  One dictionary is laid over another one by copying the lower one, though not
what is below it, and by entering into the copy what the upper one names.

Dictionaries show mappings.  Where one of them is laid over another one, a new dictionary shows the
one mapping laid over the other, and every dictionary that was there before is what it was, although
much of what is new refers to it.  The only dictionary that is ever changed is the copy that has
just been made, and nothing that was there before can refer to that.
-/

/-- What a dictionary has at a name: another dictionary, or a document that is no mapping. -/
inductive Slot (α : Type) where
  | dictionary (address : Nat)
  | plain (document : Document α)
  deriving Repr

/-- The dictionaries in memory, each at the address that is its position. -/
structure Memory (α : Type) where
  dictionaries : List (List (String × Slot α))
  deriving Repr

namespace Memory

variable {α : Type}

/-- The dictionary at an address. -/
def at? (memory : Memory α) (address : Nat) : Option (List (String × Slot α)) :=
  memory.dictionaries[address]?

/-- The address at which the next dictionary is put. -/
def next (memory : Memory α) : Nat :=
  memory.dictionaries.length

/-- Put a dictionary into memory. -/
def put (memory : Memory α) (dictionary : List (String × Slot α)) : Memory α :=
  ⟨memory.dictionaries ++ [dictionary]⟩

/-- Enter something at a name of the dictionary at an address. -/
def enter (memory : Memory α) (address : Nat) (name : String) (slot : Slot α) : Memory α :=
  ⟨memory.dictionaries.modify address (Table.enter name slot)⟩

mutual

/-- One dictionary is laid over another one by copying the lower one and laying what the upper one
names over the copy, whose address is returned. -/
inductive Overlays : Memory α → Nat → Nat → Memory α → Nat → Prop where
  | copied
      {memory after : Memory α}
      {below above : Nat}
      {lower upper : List (String × Slot α)} :
      memory.at? below = some lower →
      memory.at? above = some upper →
      OverlaysInto (memory.put lower) memory.next upper after →
      Overlays memory below above after memory.next

/-- What a dictionary names is laid over the dictionary at an address in place, name by name: where
there is a dictionary for a dictionary, it is laid over that one, and otherwise it is entered. -/
inductive OverlaysInto : Memory α → Nat → List (String × Slot α) → Memory α → Prop where
  | done
      {memory : Memory α}
      {target : Nat} :
      OverlaysInto memory target [] memory
  | laid
      {memory between after : Memory α}
      {target lower upper result : Nat}
      {name : String}
      {dictionary rest : List (String × Slot α)} :
      memory.at? target = some dictionary →
      dictionary.lookup name = some (.dictionary lower) →
      Overlays memory lower upper between result →
      OverlaysInto (between.enter target name (.dictionary result)) target rest after →
      OverlaysInto memory target ((name, .dictionary upper) :: rest) after
  | entered
      {memory after : Memory α}
      {target : Nat}
      {name : String}
      {slot : Slot α}
      {dictionary rest : List (String × Slot α)} :
      memory.at? target = some dictionary →
      (¬ ∃ lower upper,
        dictionary.lookup name = some (.dictionary lower) ∧ slot = .dictionary upper) →
      OverlaysInto (memory.enter target name slot) target rest after →
      OverlaysInto memory target ((name, slot) :: rest) after

end

mutual

/-- There is only one way to lay a dictionary over another one. -/
theorem Overlays.unique
    {memory after otherAfter : Memory α}
    {below above result otherResult : Nat} :
    memory.Overlays below above after result →
      memory.Overlays below above otherAfter otherResult →
        after = otherAfter ∧ result = otherResult
  | .copied isLower isUpper isLaid, .copied isLowerToo isUpperToo isLaidToo => by
      cases isLower.symm.trans isLowerToo
      cases isUpper.symm.trans isUpperToo
      exact ⟨isLaid.unique isLaidToo, rfl⟩

theorem OverlaysInto.unique
    {memory after otherAfter : Memory α}
    {target : Nat}
    {slots : List (String × Slot α)} :
    memory.OverlaysInto target slots after →
      memory.OverlaysInto target slots otherAfter → after = otherAfter
  | .done, .done => rfl
  | .laid isTarget isLower isLaid later, .laid isTargetToo isLowerToo isLaidToo laterToo => by
      cases isTarget.symm.trans isTargetToo
      cases isLower.symm.trans isLowerToo
      obtain ⟨rfl, rfl⟩ := isLaid.unique isLaidToo
      exact later.unique laterToo
  | .laid isTarget isLower _ _, .entered isTargetToo notBoth _ => by
      cases isTarget.symm.trans isTargetToo
      exact absurd ⟨_, _, isLower, rfl⟩ notBoth
  | .entered isTarget notBoth _, .laid isTargetToo isLower _ _ => by
      cases isTarget.symm.trans isTargetToo
      exact absurd ⟨_, _, isLower, rfl⟩ notBoth
  | .entered _ _ later, .entered _ _ laterToo => later.unique laterToo

end

end Memory

/-!
## What dictionaries show
-/

/-- The dictionaries that are known, by address. -/
abbrev Known (α : Type) : Type :=
  Nat → Option (List (String × Slot α))

namespace Known

variable {α : Type} {known more : Known α}

/-- Whether all that is known is known elsewhere too. -/
def IsWithin (known more : Known α) : Prop :=
  ∀ address dictionary, known address = some dictionary → more address = some dictionary

mutual

/-- A slot shows a document as far as dictionaries are known. -/
inductive Shows (known : Known α) : Document α → Slot α → Prop where
  | plain
      {document : Document α} :
      ¬ document.IsMapping →
      Shows known document (.plain document)
  | dictionary
      {entries : List (String × Document α)}
      {address : Nat}
      {dictionary : List (String × Slot α)} :
      known address = some dictionary →
      ShowsAll known entries dictionary →
      Shows known (.mapping entries) (.dictionary address)

/-- A dictionary shows entries, in the same order. -/
inductive ShowsAll (known : Known α) :
    List (String × Document α) → List (String × Slot α) → Prop where
  | nil :
      ShowsAll known [] []
  | cons
      (name : String)
      {value : Document α}
      {slot : Slot α}
      {entries : List (String × Document α)}
      {dictionary : List (String × Slot α)} :
      Shows known value slot →
      ShowsAll known entries dictionary →
      ShowsAll known ((name, value) :: entries) ((name, slot) :: dictionary)

end

mutual

/-- Where more is known, no less is shown. -/
theorem Shows.mono
    {document : Document α}
    {slot : Slot α}
    (isWithin : known.IsWithin more) :
    known.Shows document slot → more.Shows document slot
  | .plain isPlain => .plain isPlain
  | .dictionary isKnown shows => .dictionary (isWithin _ _ isKnown) (shows.mono isWithin)

theorem ShowsAll.mono
    {entries : List (String × Document α)}
    {dictionary : List (String × Slot α)}
    (isWithin : known.IsWithin more) :
    known.ShowsAll entries dictionary → more.ShowsAll entries dictionary
  | .nil => .nil
  | .cons name shows showsRest => .cons name (shows.mono isWithin) (showsRest.mono isWithin)

end

/-- Only a dictionary shows a mapping. -/
theorem Shows.exists_eq_dictionary
    {document : Document α}
    {slot : Slot α}
    (shows : known.Shows document slot)
    (isMapping : document.IsMapping) :
    ∃ address, slot = .dictionary address := by
  cases shows with
  | plain isPlain => exact absurd isMapping isPlain
  | @dictionary _ address _ _ _ => exact ⟨address, rfl⟩

/-- A dictionary shows entries if it has the same names, with slots that show the values. -/
theorem showsAll_iff_related
    {entries : List (String × Document α)}
    {dictionary : List (String × Slot α)} :
    known.ShowsAll entries dictionary ↔ (Table.mk entries).Related known.Shows ⟨dictionary⟩ := by
  unfold Table.Related
  dsimp only
  constructor
  · intro shows
    induction entries generalizing dictionary with
    | nil =>
        cases shows
        exact .nil
    | cons entry rest inductionHypothesis =>
        obtain _ | ⟨name, showsValue, showsRest⟩ := shows
        exact .cons ⟨rfl, showsValue⟩ (inductionHypothesis showsRest)
  · intro areRelated
    induction areRelated with
    | nil =>
        exact .nil
    | @cons entry image _ _ isEntry _ inductionHypothesis =>
        obtain ⟨name, value⟩ := entry
        obtain ⟨imageName, slot⟩ := image
        obtain ⟨rfl, showsValue⟩ := isEntry
        exact .cons name showsValue inductionHypothesis

/-- What is entered under a name in a dictionary is shown there. -/
theorem ShowsAll.enter
    {entries : List (String × Document α)}
    {dictionary : List (String × Slot α)}
    (showsAll : known.ShowsAll entries dictionary)
    (name : String)
    {value : Document α}
    {slot : Slot α}
    (shows : known.Shows value slot) :
    known.ShowsAll (Table.enter name value entries) (Table.enter name slot dictionary) :=
  showsAll_iff_related.mpr ((showsAll_iff_related.mp showsAll).insert name shows)

theorem ShowsAll.lookup
    {entries : List (String × Document α)}
    {dictionary : List (String × Slot α)}
    (showsAll : known.ShowsAll entries dictionary)
    (name : String) :
    Option.Rel known.Shows (entries.lookup name) (dictionary.lookup name) :=
  (showsAll_iff_related.mp showsAll).get? name

/-- What entries have at a name is shown by what the dictionary has there. -/
theorem ShowsAll.exists_slot
    {entries : List (String × Document α)}
    {dictionary : List (String × Slot α)}
    (showsAll : known.ShowsAll entries dictionary)
    {name : String}
    {value : Document α}
    (isValue : entries.lookup name = some value) :
    ∃ slot, dictionary.lookup name = some slot ∧ known.Shows value slot := by
  have showsAt := showsAll.lookup name
  rw [isValue] at showsAt
  generalize dictionary.lookup name = found at showsAt ⊢
  obtain ⟨shows⟩ := showsAt
  exact ⟨_, rfl, shows⟩

/-- What a dictionary has at a name shows what the entries have there. -/
theorem ShowsAll.exists_value
    {entries : List (String × Document α)}
    {dictionary : List (String × Slot α)}
    (showsAll : known.ShowsAll entries dictionary)
    {name : String}
    {slot : Slot α}
    (isSlot : dictionary.lookup name = some slot) :
    ∃ value, entries.lookup name = some value ∧ known.Shows value slot := by
  have showsAt := showsAll.lookup name
  rw [isSlot] at showsAt
  generalize entries.lookup name = found at showsAt ⊢
  obtain ⟨shows⟩ := showsAt
  exact ⟨_, rfl, shows⟩

/-- What is known, and all that has been put into memory since. -/
def since (known : Known α) (memory after : Memory α) : Known α :=
  fun address => if address < memory.next then known address else after.at? address

section Since

variable {memory after : Memory α} {address : Nat}

theorem since_eq_of_lt
    (isOld : address < memory.next) :
    known.since memory after address = known address :=
  if_pos isOld

theorem since_eq_of_not_lt
    (isNew : ¬ address < memory.next) :
    known.since memory after address = after.at? address :=
  if_neg isNew

end Since

end Known

namespace Memory

variable {α : Type}

/-!
## Reading after writing
-/

@[simp]
theorem next_put
    (memory : Memory α)
    (dictionary : List (String × Slot α)) :
    (memory.put dictionary).next = memory.next + 1 := by
  simp [next, put]

@[simp]
theorem next_enter
    (memory : Memory α)
    (target : Nat)
    (name : String)
    (slot : Slot α) :
    (memory.enter target name slot).next = memory.next := by
  simp [next, enter]

theorem at?_put
    (memory : Memory α)
    (dictionary : List (String × Slot α))
    (address : Nat) :
    (memory.put dictionary).at? address =
      if address = memory.next then some dictionary else memory.at? address := by
  unfold at? put next
  rcases Nat.lt_trichotomy address memory.dictionaries.length with isOld | rfl | isBeyond
  · rw [List.getElem?_append_left isOld, if_neg (Nat.ne_of_lt isOld)]
  · rw [List.getElem?_concat_length, if_pos rfl]
  · have isNone : memory.dictionaries[address]? = none :=
      List.getElem?_eq_none (Nat.le_of_lt isBeyond)
    rw [List.getElem?_eq_none (by simp; omega), if_neg (Nat.ne_of_gt isBeyond), isNone]

/-- What has been put into memory is found at its address. -/
theorem at?_next_put
    (memory : Memory α)
    (dictionary : List (String × Slot α)) :
    (memory.put dictionary).at? memory.next = some dictionary := by
  rw [at?_put, if_pos rfl]

theorem at?_enter
    (memory : Memory α)
    (target : Nat)
    (name : String)
    (slot : Slot α)
    (address : Nat) :
    (memory.enter target name slot).at? address =
      if address = target then (memory.at? target).map (Table.enter name slot)
      else memory.at? address := by
  unfold at? enter
  by_cases isTarget : address = target
  · subst isTarget
    simp
  · rw [if_neg isTarget]
    simp [Ne.symm isTarget]

theorem lt_next_of_at?_eq_some
    {memory : Memory α}
    {address : Nat}
    {dictionary : List (String × Slot α)}
    (isThere : memory.at? address = some dictionary) :
    address < memory.next := by
  unfold at? at isThere
  exact (List.getElem?_eq_some_iff.mp isThere).1

/-- What is known of memory is known later on. -/
theorem isWithin_since
    {memory : Memory α}
    {known : Known α}
    (isKnown : known.IsWithin memory.at?)
    (after : Memory α) :
    known.IsWithin (known.since memory after) := by
  intro address dictionary isThere
  rw [Known.since_eq_of_lt (lt_next_of_at?_eq_some (isKnown _ _ isThere))]
  exact isThere

/-!
## Laying one dictionary over another one

A dictionary that something is laid over in place is kept out of what is known.  So whatever is
known is still there after each step, and what is shown is shown without going through that
dictionary.
-/

/-- Memory with further dictionaries. -/
structure Extends (memory after : Memory α) : Prop where
  next_le : memory.next ≤ after.next
  at?_eq : ∀ address < memory.next, after.at? address = memory.at? address

/-- Laying a dictionary over another one puts a new one into memory that shows a document. -/
def LaysApart (known : Known α) (memory : Memory α) (below above : Nat) (document : Document α) :
    Prop :=
  ∃ after,
    memory.Overlays below above after memory.next ∧
      memory.Extends after ∧ (known.since memory after).Shows document (.dictionary memory.next)

/-- What is left of memory when entries have been laid over a dictionary in place: nothing else has
changed, and the dictionary shows the entries. -/
structure LaidInto (known : Known α) (memory after : Memory α) (target : Nat)
    (entries : List (String × Document α)) : Prop where
  next_le : memory.next ≤ after.next
  at?_eq : ∀ address < memory.next, address ≠ target → after.at? address = memory.at? address
  shows :
    ∃ dictionary,
      after.at? target = some dictionary ∧ (known.since memory after).ShowsAll entries dictionary

section Step

variable {memory between after : Memory α} {known : Known α} {target : Nat} {name : String}
  {slot : Slot α} {dictionary : List (String × Slot α)} {entries : List (String × Document α)}

/-- What is known is left alone when something is entered into a dictionary that is not. -/
theorem isWithin_enter
    (isKnown : known.IsWithin memory.at?)
    (isHidden : known target = none) :
    known.IsWithin (memory.enter target name slot).at? := by
  intro address dictionary isThere
  rw [at?_enter, if_neg]
  · exact isKnown address dictionary isThere
  · rintro rfl
    rw [isHidden] at isThere
    cases isThere

/-- What is known, or new in further memory, is in it. -/
theorem Extends.isWithin
    (isLarger : memory.Extends between)
    (isKnown : known.IsWithin memory.at?) :
    (known.since memory between).IsWithin between.at? := by
  intro address dictionary isThere
  by_cases isOld : address < memory.next
  · rw [Known.since_eq_of_lt isOld] at isThere
    rw [isLarger.at?_eq address isOld]
    exact isKnown address dictionary isThere
  · rw [Known.since_eq_of_not_lt isOld] at isThere
    exact isThere

/-- Entries that are laid over a dictionary after something has been entered into it are laid over
it from the beginning on. -/
theorem LaidInto.of_enter
    (isOld : target < memory.next)
    (isLarger : memory.Extends between)
    (laidInto :
      LaidInto (known.since memory between) (between.enter target name slot) after target entries) :
    LaidInto known memory after target entries := by
  obtain ⟨next_le, at?_eq, dictionary, isThere, shows⟩ := laidInto
  rw [next_enter] at next_le at?_eq
  have stays (address : Nat) (isBefore : address < between.next) (isOther : address ≠ target) :
      after.at? address = between.at? address := by
    rw [at?_eq address isBefore isOther, at?_enter, if_neg isOther]
  refine ⟨Nat.le_trans isLarger.next_le next_le, ?_, dictionary, isThere, shows.mono ?_⟩
  · intro address isBefore isOther
    rw [stays address (Nat.lt_of_lt_of_le isBefore isLarger.next_le) isOther,
      isLarger.at?_eq address isBefore]
  · intro address found isFound
    by_cases isOlder : address < memory.next
    · have isBefore : address < (between.enter target name slot).next := by
        rw [next_enter]
        exact Nat.lt_of_lt_of_le isOlder isLarger.next_le
      rw [Known.since_eq_of_lt isBefore, Known.since_eq_of_lt isOlder] at isFound
      rw [Known.since_eq_of_lt isOlder]
      exact isFound
    · rw [Known.since_eq_of_not_lt isOlder]
      by_cases isBefore : address < (between.enter target name slot).next
      · rw [Known.since_eq_of_lt isBefore, Known.since_eq_of_not_lt isOlder] at isFound
        rw [next_enter] at isBefore
        rw [stays address isBefore (fun isTarget => isOlder (isTarget ▸ isOld))]
        exact isFound
      · rw [Known.since_eq_of_not_lt isBefore] at isFound
        exact isFound

/-- What is known is left alone when a dictionary is put into memory. -/
theorem isWithin_put
    (isKnown : known.IsWithin memory.at?) :
    known.IsWithin (memory.put dictionary).at? := by
  intro address found isFound
  have isThere := isKnown address found isFound
  rw [at?_put, if_neg (Nat.ne_of_lt (lt_next_of_at?_eq_some isThere))]
  exact isThere

/-- Laying entries over a dictionary that has just been put into memory changes nothing that was
there before. -/
theorem LaidInto.extends_of_put
    (laidInto : LaidInto known (memory.put dictionary) after memory.next entries) :
    memory.Extends after := by
  have next_le := laidInto.next_le
  rw [next_put] at next_le
  refine ⟨Nat.le_of_succ_le next_le, fun address isOld => ?_⟩
  have isOther : address ≠ memory.next := Nat.ne_of_lt isOld
  rw [laidInto.at?_eq address (by rw [next_put]; exact Nat.lt_succ_of_lt isOld) isOther, at?_put,
    if_neg isOther]

/-- What has been laid over a dictionary that had just been put into memory is shown by it. -/
theorem LaidInto.shows_of_put
    (isKnown : known.IsWithin memory.at?)
    (laidInto : LaidInto known (memory.put dictionary) after memory.next entries) :
    (known.since memory after).Shows (.mapping entries) (.dictionary memory.next) := by
  obtain ⟨laid, isThere, shows⟩ := laidInto.shows
  refine .dictionary ?_ (shows.mono ?_)
  · rw [Known.since_eq_of_not_lt (Nat.lt_irrefl _)]
    exact isThere
  · intro address found isFound
    by_cases isBefore : address < (memory.put dictionary).next
    · rw [Known.since_eq_of_lt isBefore] at isFound
      rw [Known.since_eq_of_lt (lt_next_of_at?_eq_some (isKnown _ _ isFound))]
      exact isFound
    · rw [Known.since_eq_of_not_lt isBefore] at isFound
      rw [next_put] at isBefore
      rw [Known.since_eq_of_not_lt (fun isOld => isBefore (Nat.lt_succ_of_lt isOld))]
      exact isFound

/-- One step of laying entries over a dictionary in place: what is laid at a name is shown by what
is entered there, which may have been put into memory for it. -/
theorem exists_step
    {lower : List (String × Document α)}
    {value : Document α}
    {slots : List (String × Slot α)}
    (isKnown : known.IsWithin memory.at?)
    (isTarget : memory.at? target = some dictionary)
    (showsLower : known.ShowsAll lower dictionary)
    (showsValue : known.Shows value slot)
    (laysApart :
      ∀ current below above,
        known.Shows current (.dictionary below) → known.Shows value (.dictionary above) →
          LaysApart known memory below above (current.overlay value)) :
    ∃ between laidSlot,
      (∀ after, OverlaysInto (between.enter target name laidSlot) target slots after →
        memory.OverlaysInto target ((name, slot) :: slots) after) ∧
        memory.Extends between ∧
        (known.since memory between).Shows (Document.laidAt lower name value) laidSlot := by
  by_cases areDictionaries :
      ∃ below above, dictionary.lookup name = some (.dictionary below) ∧ slot = .dictionary above
  · obtain ⟨below, above, isBelow, rfl⟩ := areDictionaries
    obtain ⟨current, isCurrent, showsCurrent⟩ := showsLower.exists_value isBelow
    obtain ⟨between, isLaid, isLarger, showsLaid⟩ :=
      laysApart current below above showsCurrent showsValue
    refine ⟨between, .dictionary memory.next, fun _ => .laid isTarget isBelow isLaid, isLarger, ?_⟩
    rw [Document.laidAt, isCurrent]
    exact showsLaid
  · have isReplaced : Document.laidAt lower name value = value := by
      unfold Document.laidAt
      cases isCurrent : lower.lookup name with
      | none => rfl
      | some current =>
          refine Document.overlay_of_not_both_mappings fun both => areDictionaries ?_
          obtain ⟨found, isFound, showsCurrent⟩ := showsLower.exists_slot isCurrent
          obtain ⟨below, rfl⟩ := showsCurrent.exists_eq_dictionary both.1
          obtain ⟨above, rfl⟩ := showsValue.exists_eq_dictionary both.2
          exact ⟨below, above, isFound, rfl⟩
    refine ⟨memory, slot, fun _ => .entered isTarget areDictionaries,
      ⟨Nat.le_refl _, fun _ _ => rfl⟩, ?_⟩
    rw [isReplaced]
    exact showsValue.mono (isWithin_since isKnown memory)

end Step

mutual

/-- Laying a dictionary over another one shows the one mapping laid over the other. -/
theorem laysApart_overlay
    {memory : Memory α}
    {known : Known α}
    {lower upper : Document α}
    {below above : Nat}
    (isKnown : known.IsWithin memory.at?)
    (showsLower : known.Shows lower (.dictionary below))
    (showsUpper : known.Shows upper (.dictionary above)) :
    LaysApart known memory below above (lower.overlay upper) := by
  match lower, showsLower, upper, showsUpper with
  | .mapping lower, .dictionary isLower showsAllLower,
      .mapping upper, .dictionary isUpper showsAllUpper =>
    have isHidden : known memory.next = none := by
      refine Option.eq_none_iff_forall_ne_some.mpr fun found isFound => ?_
      exact Nat.lt_irrefl _ (lt_next_of_at?_eq_some (isKnown _ _ isFound))
    obtain ⟨after, isLaid, laidInto⟩ :=
      exists_overlaysInto (isWithin_put isKnown) isHidden (at?_next_put memory _) showsAllLower
        showsAllUpper
    refine ⟨after, .copied (isKnown _ _ isLower) (isKnown _ _ isUpper) isLaid,
      laidInto.extends_of_put, ?_⟩
    rw [Document.overlay]
    exact laidInto.shows_of_put isKnown

/-- Laying entries over a dictionary in place changes nothing else. -/
theorem exists_overlaysInto
    {memory : Memory α}
    {known : Known α}
    {lower upper : List (String × Document α)}
    {dictionary slots : List (String × Slot α)}
    {target : Nat}
    (isKnown : known.IsWithin memory.at?)
    (isHidden : known target = none)
    (isTarget : memory.at? target = some dictionary)
    (showsLower : known.ShowsAll lower dictionary)
    (showsUpper : known.ShowsAll upper slots) :
    ∃ after,
      memory.OverlaysInto target slots after ∧
        LaidInto known memory after target (Document.overlayEntries lower upper) := by
  match upper, showsUpper with
  | [], .nil =>
    have stillShows := showsLower.mono (isWithin_since isKnown memory)
    exact ⟨memory, .done, Nat.le_refl _, fun _ _ _ => rfl, dictionary, isTarget, stillShows⟩
  | (_, value) :: rest, .cons name showsValue showsRest =>
    obtain ⟨between, laidSlot, isStep, isLarger, showsLaid⟩ :=
      exists_step isKnown isTarget showsLower showsValue
        fun current below above showsCurrent showsAbove =>
          laysApart_overlay isKnown showsCurrent showsAbove
    have isOld : target < memory.next := lt_next_of_at?_eq_some isTarget
    have isLater : known.IsWithin (known.since memory between) := isWithin_since isKnown between
    -- Nothing that has come since is the target, so the rest can be laid over it in the same way.
    have staysHidden : known.since memory between target = none := by
      rw [Known.since_eq_of_lt isOld, isHidden]
    have isEntered :
        (between.enter target name laidSlot).at? target =
          some (Table.enter name laidSlot dictionary) := by
      rw [at?_enter, if_pos rfl, isLarger.at?_eq target isOld, isTarget]
      rfl
    obtain ⟨after, isLaid, laidInto⟩ :=
      exists_overlaysInto (isWithin_enter (isLarger.isWithin isKnown) staysHidden) staysHidden
        isEntered ((showsLower.mono isLater).enter name showsLaid) (showsRest.mono isLater)
    rw [Document.overlayEntries_cons]
    exact ⟨after, isStep after isLaid, laidInto.of_enter isOld isLarger⟩

end

/-!
## What is left in memory
-/

/-- The dictionary at an address shows a document. -/
def Holds (memory : Memory α) (address : Nat) (document : Document α) : Prop :=
  Known.Shows memory.at? document (.dictionary address)

/-- Laying one dictionary over another one gives a dictionary that shows a document, and leaves all
that were there as they were. -/
def Makes (memory : Memory α) (below above : Nat) (document : Document α) : Prop :=
  ∃ after result,
    memory.Overlays below above after result ∧
      memory.Extends after ∧ after.Holds result document

section Holds

variable {memory after : Memory α} {below above address : Nat} {lower upper document : Document α}

theorem Holds.isMapping
    (holds : memory.Holds address document) :
    document.IsMapping := by
  cases holds
  exact ⟨_, rfl⟩

/-- A dictionary shows in further memory what it has shown before. -/
theorem Holds.of_extends
    (holds : memory.Holds address document)
    (isLarger : memory.Extends after) :
    after.Holds address document := by
  refine Known.Shows.mono (fun old dictionary isThere => ?_) holds
  rw [isLarger.at?_eq old (lt_next_of_at?_eq_some isThere)]
  exact isThere

/-- Laying a dictionary over another one makes the one document laid over the other. -/
theorem Holds.makes_overlay
    (holdsLower : memory.Holds below lower)
    (holdsUpper : memory.Holds above upper) :
    memory.Makes below above (lower.overlay upper) := by
  have isKnown : Known.IsWithin memory.at? memory.at? := fun _ _ isThere => isThere
  obtain ⟨after, isLaid, isLarger, shows⟩ := laysApart_overlay isKnown holdsLower holdsUpper
  exact ⟨after, memory.next, isLaid, isLarger, shows.mono (isLarger.isWithin isKnown)⟩

end Holds

/-- Laying the dictionary of a layer over that of a base gives a new dictionary that shows what the
two are combined to, and no dictionary that was there before has changed.  Laying the layer over the
result again changes nothing, nor does laying the base over itself, and at every path the result has
what the layer has there, or what the base has where the layer is silent. -/
theorem overlay_combines
    {memory : Memory Float}
    {below above : Nat}
    {base layer : Document Float}
    (holdsBase : memory.Holds below base)
    (holdsLayer : memory.Holds above layer)
    (baseDistinct : base.HasDistinctNames)
    (layerDistinct : layer.HasDistinctNames) :
    ∃ combined after result,
      Layers.combine base layer = .ok combined ∧
        memory.Overlays below above after result ∧
        (∀ other otherResult, memory.Overlays below above other otherResult →
          after = other ∧ result = otherResult) ∧
        after.Holds result combined ∧
        memory.Extends after ∧ after.Holds below base ∧ after.Holds above layer ∧
        Layers.combine combined layer = .ok combined ∧ after.Makes result above combined ∧
        Layers.combine base base = .ok base ∧ memory.Makes below below base ∧
        Configuration.IsLayered base layer combined := by
  obtain ⟨after, result, isLaid, isLarger, holdsCombined⟩ := holdsBase.makes_overlay holdsLayer
  have stillLayer : after.Holds above layer := holdsLayer.of_extends isLarger
  have again : (base.overlay layer).overlay layer = base.overlay layer :=
    Document.overlay_overlay layerDistinct base
  have onItself : base.overlay base = base := Document.overlay_self baseDistinct
  refine ⟨base.overlay layer, after, result, ?_, isLaid, fun _ _ => isLaid.unique, holdsCombined,
    isLarger, holdsBase.of_extends isLarger, stillLayer, ?_, ?_, ?_, ?_,
    Configuration.isLayered_overlay layerDistinct base⟩
  · exact Layers.combine_of_isMapping holdsBase.isMapping holdsLayer.isMapping
  · rw [Layers.combine_of_isMapping holdsCombined.isMapping holdsLayer.isMapping, again]
  · rw [← again]
    exact holdsCombined.makes_overlay stillLayer
  · rw [Layers.combine_of_isMapping holdsBase.isMapping holdsBase.isMapping, onItself]
  · rw [← onItself]
    exact holdsBase.makes_overlay holdsBase

/-- A base with two sections and a plain setting. -/
def plainBase : Document Float :=
  .mapping
    [("logging", .mapping [("level", .text "INFO"), ("format", .text "plain")]),
     ("storage", .text "memory"), ("solvers", .mapping [("default", .text "genetic")])]

/-- A layer that has a setting for one of the sections, a section in place of the plain setting, and
nothing in place of the other section. -/
def debugLayer : Document Float :=
  .mapping
    [("logging", .mapping [("level", .text "DEBUG")]),
     ("storage", .mapping [("backend", .text "file")]), ("solvers", .null)]

/-- What the two are combined to. -/
def debugged : Document Float :=
  .mapping
    [("logging", .mapping [("level", .text "DEBUG"), ("format", .text "plain")]),
     ("storage", .mapping [("backend", .text "file")]), ("solvers", .null)]

/-- The dictionaries of the two: those of the base come first. -/
def debugMemory : Memory Float :=
  ⟨[[("logging", .dictionary 1), ("storage", .plain (.text "memory")), ("solvers", .dictionary 2)],
    [("level", .plain (.text "INFO")), ("format", .plain (.text "plain"))],
    [("default", .plain (.text "genetic"))],
    [("logging", .dictionary 4), ("storage", .dictionary 5), ("solvers", .plain .null)],
    [("level", .plain (.text "DEBUG"))],
    [("backend", .plain (.text "file"))]]⟩

/-- The layer lies over the base section by section, in dictionaries of its own. -/
theorem debugLayer_lies_over_plainBase :
    debugMemory.Holds 0 plainBase ∧
      debugMemory.Holds 3 debugLayer ∧
      plainBase.HasDistinctNames ∧
      debugLayer.HasDistinctNames ∧
      Layers.combine plainBase debugLayer = .ok debugged ∧
      ∃ after result,
        debugMemory.Overlays 0 3 after result ∧ after.Holds result debugged ∧
          debugMemory.Extends after ∧ after.Holds 0 plainBase ∧ after.Holds 3 debugLayer ∧
          after.Makes result 3 debugged ∧ debugMemory.Makes 0 0 plainBase ∧
          Configuration.IsLayered plainBase debugLayer debugged := by
  have isPlain (text : String) : ¬ (Document.text (α := Float) text).IsMapping := by
    rintro ⟨_, ⟨⟩⟩
  have holdsBase : debugMemory.Holds 0 plainBase :=
    .dictionary rfl
      (.cons _ (.dictionary rfl (.cons _ (.plain (isPlain _)) (.cons _ (.plain (isPlain _)) .nil)))
        (.cons _ (.plain (isPlain _))
          (.cons _ (.dictionary rfl (.cons _ (.plain (isPlain _)) .nil)) .nil)))
  have holdsLayer : debugMemory.Holds 3 debugLayer :=
    .dictionary rfl
      (.cons _ (.dictionary rfl (.cons _ (.plain (isPlain _)) .nil))
        (.cons _ (.dictionary rfl (.cons _ (.plain (isPlain _)) .nil))
          (.cons _ (.plain (by rintro ⟨_, ⟨⟩⟩)) .nil)))
  have baseDistinct : plainBase.HasDistinctNames := by
    simp [plainBase, Document.HasDistinctNames, Document.HaveDistinctNames]
  have layerDistinct : debugLayer.HasDistinctNames := by
    simp [debugLayer, Document.HasDistinctNames, Document.HaveDistinctNames]
  have isDebugged : Layers.combine plainBase debugLayer = .ok debugged := by
    rfl
  obtain ⟨combined, after, result, isCombined, isLaid, -, holdsCombined, isLarger, stillBase,
      stillLayer, -, again, -, onItself, isLayered⟩ :=
    overlay_combines holdsBase holdsLayer baseDistinct layerDistinct
  obtain rfl : combined = debugged := Except.ok.inj (isCombined.symm.trans isDebugged)
  exact ⟨holdsBase, holdsLayer, baseDistinct, layerDistinct, isDebugged, after, result, isLaid,
    holdsCombined, isLarger, stillBase, stillLayer, again, onItself, isLayered⟩

end Memory

end Optima
