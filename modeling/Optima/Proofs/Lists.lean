import Mathlib.Data.List.Basic
import Mathlib.Data.List.Forall2
import Mathlib.Data.List.Induction
import Mathlib.Data.List.Nodup
import Optima.Failure

namespace Optima

/-!
# Lists

What several algorithms of the library need to know of the lists that they go
through: the best of a list is one of its items, a list has at most one first good
item, and a list that loses nothing when its repetitions are dropped has none.
-/

/-- Keeping one of two items at a time ends with an item of the list. -/
theorem foldl_choice_mem
    {β : Type}
    (choose : β → β → β)
    (isChoice : ∀ best other, choose best other = best ∨ choose best other = other)
    (rest : List β)
    (first : β) :
    rest.foldl choose first ∈ first :: rest := by
  induction rest generalizing first with
  | nil =>
      simp
  | cons second rest inductionHypothesis =>
      have member := inductionHypothesis (choose first second)
      rw [List.foldl_cons]
      rcases List.mem_cons.mp member with isChosen | inRest
      · rw [isChosen]
        rcases isChoice first second with isFirst | isSecond
        · simp [isFirst]
        · simp [isSecond]
      · exact List.mem_cons_of_mem first (List.mem_cons_of_mem second inRest)

/-- A condition that follows from another one on the items of a list leaves no fewer of them. -/
theorem filter_sublist_filter
    {β : Type}
    {items : List β}
    {holds follows : β → Bool}
    (isWeaker : ∀ item ∈ items, holds item = true → follows item = true) :
    (items.filter holds).Sublist (items.filter follows) := by
  have isSame : items.filter holds = (items.filter follows).filter holds := by
    rw [List.filter_filter]
    apply List.filter_congr
    intro item member
    rw [Bool.eq_iff_iff, Bool.and_eq_true]
    exact ⟨fun isKept => ⟨isKept, isWeaker item member isKept⟩, And.left⟩
  rw [isSame]
  exact List.filter_sublist

/-- A list without repetitions is one without its last item, which is not among the others. -/
theorem nodup_append_singleton_iff
    {β : Type}
    {items : List β}
    {item : β} :
    (items ++ [item]).Nodup ↔ items.Nodup ∧ item ∉ items := by
  rw [← List.concat_eq_append, List.nodup_concat, and_comm]

section First

variable {β : Type} {good : β → Prop} {items others : List β} {item : β}

/-- An item is the first of a list that is good. -/
def IsFirst (good : β → Prop) (items : List β) (item : β) : Prop :=
  ∃ before after,
    items = before ++ item :: after ∧ good item ∧ ∀ other ∈ before, ¬ good other

theorem IsFirst.good_item
    (isFirst : IsFirst good items item) :
    good item := by
  obtain ⟨before, after, -, isGood, -⟩ := isFirst
  exact isGood

theorem IsFirst.mem
    (isFirst : IsFirst good items item) :
    item ∈ items := by
  obtain ⟨before, after, rfl, -, -⟩ := isFirst
  simp

theorem isFirst_singleton
    (isGood : good item) :
    IsFirst good [item] item :=
  ⟨[], [], rfl, isGood, by simp⟩

theorem IsFirst.append_right
    (isFirst : IsFirst good items item)
    (others : List β) :
    IsFirst good (items ++ others) item := by
  obtain ⟨before, after, rfl, isGood, noneBefore⟩ := isFirst
  exact ⟨before, after ++ others, by simp, isGood, noneBefore⟩

theorem IsFirst.append_left
    (isFirst : IsFirst good items item)
    (noneGood : ∀ other ∈ others, ¬ good other) :
    IsFirst good (others ++ items) item := by
  obtain ⟨before, after, rfl, isGood, noneBefore⟩ := isFirst
  refine ⟨others ++ before, after, by simp, isGood, ?_⟩
  intro other member
  rcases List.mem_append.mp member with inOthers | inBefore
  · exact noneGood other inOthers
  · exact noneBefore other inBefore

/-- There is only one first good item. -/
theorem IsFirst.eq
    {second : β}
    (isFirst : IsFirst good items item)
    (isFirstToo : IsFirst good items second) :
    item = second := by
  obtain ⟨before, after, rfl, isGood, noneBefore⟩ := isFirst
  obtain ⟨earlier, later, sameItems, isGoodToo, noneEarlier⟩ := isFirstToo
  rcases List.append_eq_append_iff.mp sameItems with
    ⟨between, rfl, shape⟩ | ⟨between, rfl, shape⟩
  · cases between with
    | nil => exact (List.cons.inj shape).1
    | cons head tail =>
        obtain ⟨rfl, -⟩ := List.cons.inj shape
        exact absurd isGood (noneEarlier item (by simp))
  · cases between with
    | nil => exact (List.cons.inj shape).1.symm
    | cons head tail =>
        obtain ⟨rfl, -⟩ := List.cons.inj shape
        exact absurd isGoodToo (noneBefore second (by simp))

/-- The first good item of those that are kept is the first that is kept and good. -/
theorem IsFirst.of_filter
    {keep : β → Bool}
    {better : β → Prop}
    (isFirst : IsFirst good (items.filter keep) item)
    (isBetter : ∀ other ∈ items, better other ↔ keep other = true ∧ good other) :
    IsFirst better items item := by
  obtain ⟨before, after, areKept, isGood, noneBefore⟩ := isFirst
  obtain ⟨early, late, rfl, rfl, isLate⟩ := List.filter_eq_append_iff.mp areKept
  obtain ⟨dropped, rest, rfl, noneKept, isKept, rfl⟩ := List.filter_eq_cons_iff.mp isLate
  refine ⟨early ++ dropped, rest, by simp, (isBetter item (by simp)).mpr ⟨isKept, isGood⟩, ?_⟩
  intro other member otherBetter
  rcases List.mem_append.mp member with isEarly | isDropped
  · obtain ⟨otherKept, otherGood⟩ := (isBetter other (by simp [isEarly])).mp otherBetter
    exact noneBefore other (List.mem_filter.mpr ⟨isEarly, otherKept⟩) otherGood
  · obtain ⟨otherKept, -⟩ := (isBetter other (by simp [isDropped])).mp otherBetter
    exact noneKept other isDropped otherKept

end First

section Repetitions

variable {β : Type} [DecidableEq β]

/-- Dropping repetitions makes no list longer. -/
theorem length_eraseDups_le
    (items : List β) :
    items.eraseDups.length ≤ items.length := by
  induction items using List.reverseRecOn with
  | nil =>
      simp
  | append_singleton items item inductionHypothesis =>
      rw [List.eraseDups_append, List.length_append, List.length_append]
      have atMostOne : (List.removeAll [item] items).eraseDups.length ≤ 1 := by
        by_cases again : item ∈ items
        · simp [List.removeAll, again]
        · simp [List.removeAll, again, List.eraseDups_cons]
      simpa using Nat.add_le_add inductionHypothesis atMostOne

/-- A list that dropping repetitions leaves as long as it was has none. -/
theorem nodup_of_length_eraseDups_eq
    {items : List β}
    (sameLength : items.eraseDups.length = items.length) :
    items.Nodup := by
  induction items using List.reverseRecOn with
  | nil =>
      exact List.nodup_nil
  | append_singleton items item inductionHypothesis =>
      have shorter := length_eraseDups_le items
      rw [List.eraseDups_append, List.length_append, List.length_append] at sameLength
      by_cases again : item ∈ items
      · simp [List.removeAll, again] at sameLength
        omega
      · have isNew : (List.removeAll [item] items).eraseDups = [item] := by
          simp [List.removeAll, again, List.eraseDups_cons]
        rw [isNew] at sameLength
        have distinct := inductionHypothesis (by simpa using sameLength)
        exact nodup_append_singleton_iff.mpr ⟨distinct, again⟩

/-- Dropping repetitions leaves none. -/
theorem nodup_eraseDups
    (items : List β) :
    items.eraseDups.Nodup := by
  induction items using List.reverseRecOn with
  | nil =>
      exact List.nodup_nil
  | append_singleton items item inductionHypothesis =>
      rw [List.eraseDups_append]
      by_cases again : item ∈ items
      · simpa [List.removeAll, again] using inductionHypothesis
      · have isNew : (List.removeAll [item] items).eraseDups = [item] := by
          simp [List.removeAll, again, List.eraseDups_cons]
        rw [isNew]
        exact nodup_append_singleton_iff.mpr
          ⟨inductionHypothesis, fun isThere => again (List.mem_eraseDups.mp isThere)⟩

end Repetitions

/-- The order of items does not matter to how many there are without repetitions, whichever of them
count. -/
theorem length_eraseDups_filter_eq_of_perm
    {β : Type}
    [BEq β]
    [PartialEquivBEq β]
    {items others : List β}
    (isPerm : items.Perm others)
    (counts : β → Bool) :
    (items.filter counts).eraseDups.length = (others.filter counts).eraseDups.length := by
  induction isPerm generalizing counts with
  | nil =>
      rfl
  | cons item _ inductionHypothesis =>
      by_cases isCounted : counts item = true
      · simp only [List.filter_cons_of_pos isCounted, List.eraseDups_cons, List.length_cons,
          List.filter_filter, inductionHypothesis]
      · simp only [List.filter_cons_of_neg isCounted, inductionHypothesis]
  | swap first second rest =>
      by_cases isCounted : counts first = true <;> by_cases isCountedToo : counts second = true <;>
        simp only [List.filter_cons_of_pos, List.filter_cons_of_neg, isCounted, isCountedToo,
          List.eraseDups_cons, Bool.false_eq_true, not_false_eq_true]
      cases isSame : first == second with
      | false =>
          have isSameToo : (second == first) = false := BEq.comm.trans isSame
          simp [isSame, isSameToo, List.eraseDups_cons, List.filter_filter, Bool.and_left_comm]
      | true =>
          have isItself : (second == second) = true :=
            PartialEquivBEq.trans (PartialEquivBEq.symm isSame) isSame
          have sameAs (item : β) : (item == first) = (item == second) := BEq.congr_right isSame
          simp [isSame, isItself, sameAs]
  | trans _ _ inductionHypothesis inductionHypothesisToo =>
      exact (inductionHypothesis counts).trans (inductionHypothesisToo counts)

section Mapping

variable {ε β γ : Type} {compute : β → Except ε γ} {items : List β}

/-- What is computed on every item of a list has a result for each of them, in order. -/
theorem mapM_eq_ok_iff
    {results : List γ} :
    items.mapM compute = .ok results ↔
      List.Forall₂ (fun item result => compute item = .ok result) items results := by
  induction items generalizing results with
  | nil =>
      cases results <;> simp [pure, Except.pure]
  | cons item rest inductionHypothesis =>
      rw [List.mapM_cons]
      cases isResult : compute item with
      | error cause =>
          cases results <;> simp [bind, Except.bind, isResult]
      | ok result =>
          cases areOthers : rest.mapM compute with
          | error cause =>
              cases results <;>
                simp [bind, Except.bind, isResult, ← inductionHypothesis, areOthers]
          | ok others =>
              cases results <;>
                simp [bind, Except.bind, pure, Except.pure, isResult, ← inductionHypothesis,
                  areOthers]

/-- Where something is chosen for every item of a list, there is a result for each, in order. -/
theorem mapM_eq_some_iff
    {choose : β → Option γ}
    {results : List γ} :
    items.mapM choose = some results ↔
      List.Forall₂ (fun item result => choose item = some result) items results := by
  induction items generalizing results with
  | nil =>
      cases results <;> simp
  | cons item rest inductionHypothesis =>
      cases results <;> simp [Option.bind_eq_some_iff, ← inductionHypothesis]

/-- Lists are related item by item if those at the same position are. -/
theorem forall₂_iff_getElem?
    {related : β → γ → Prop}
    {others : List γ} :
    List.Forall₂ related items others ↔
      items.length = others.length ∧
        ∀ (position : Nat) (item : β) (other : γ),
          items[position]? = some item → others[position]? = some other →
            related item other := by
  rw [List.forall₂_iff_get]
  refine and_congr_right fun _ => ⟨?_, ?_⟩
  · intro areRelated position item other isItem isOther
    obtain ⟨inItems, rfl⟩ := List.getElem?_eq_some_iff.mp isItem
    obtain ⟨inOthers, rfl⟩ := List.getElem?_eq_some_iff.mp isOther
    exact areRelated position inItems inOthers
  · intro areRelated position inItems inOthers
    exact areRelated position _ _ (List.getElem?_eq_getElem inItems)
      (List.getElem?_eq_getElem inOthers)

/-- Lists are equal if their items are. -/
theorem beq_iff_forall₂
    [BEq β]
    {others : List β} :
    (items == others) = true ↔
      List.Forall₂ (fun item other => (item == other) = true) items others := by
  induction items generalizing others with
  | nil => cases others <;> simp
  | cons item rest inductionHypothesis => cases others <;> simp [inductionHypothesis]

theorem partialEquivBEq_list
    [BEq β]
    [PartialEquivBEq β] :
    PartialEquivBEq (List β) where
  symm areSame :=
    beq_iff_forall₂.mpr ((beq_iff_forall₂.mp areSame).flip.imp fun _ _ => PartialEquivBEq.symm)
  trans {first second third} areSame areSameToo := by
    rw [beq_iff_forall₂] at *
    induction areSame generalizing third with
    | nil =>
        exact areSameToo
    | cons isSame _ inductionHypothesis =>
        cases areSameToo with
        | cons isSameToo areSameToo =>
            exact .cons (PartialEquivBEq.trans isSame isSameToo) (inductionHypothesis areSameToo)

section Related

variable {related : β → γ → Prop} {others : List γ}

/-- An item of a list is related to one of the list that is related to it item by item. -/
theorem exists_right_of_forall₂
    (areRelated : List.Forall₂ related items others)
    {item : β}
    (member : item ∈ items) :
    ∃ other ∈ others, related item other := by
  induction areRelated with
  | nil =>
      simp at member
  | cons isRelated _ inductionHypothesis =>
      rcases List.mem_cons.mp member with isFirst | inRest
      · exact ⟨_, List.mem_cons_self, isFirst ▸ isRelated⟩
      · obtain ⟨other, inOthers, isOther⟩ := inductionHypothesis inRest
        exact ⟨other, List.mem_cons_of_mem _ inOthers, isOther⟩

theorem exists_left_of_forall₂
    (areRelated : List.Forall₂ related items others)
    {other : γ}
    (member : other ∈ others) :
    ∃ item ∈ items, related item other :=
  exists_right_of_forall₂ areRelated.flip member

/-- Where each item is related to something, a list is so item by item. -/
theorem exists_forall₂_of_forall_exists
    (each : ∀ item ∈ items, ∃ other, related item other) :
    ∃ others, List.Forall₂ related items others := by
  induction items with
  | nil =>
      exact ⟨[], .nil⟩
  | cons item rest inductionHypothesis =>
      rw [List.forall_mem_cons] at each
      obtain ⟨⟨other, isRelated⟩, each⟩ := each
      obtain ⟨others, areRelated⟩ := inductionHypothesis each
      exact ⟨other :: others, .cons isRelated areRelated⟩

/-- What follows for each item of a list from what it is related to follows item by item. -/
theorem forall₂_imp_of_mem
    {implied : β → γ → Prop}
    (areRelated : List.Forall₂ related items others)
    (carries : ∀ item ∈ items, ∀ other, related item other → implied item other) :
    List.Forall₂ implied items others := by
  induction areRelated with
  | nil => exact .nil
  | cons isRelated _ inductionHypothesis =>
      rw [List.forall_mem_cons] at carries
      exact .cons (carries.1 _ isRelated) (inductionHypothesis carries.2)

/-- What is the same of items that are related is the same of the lists. -/
theorem map_eq_map_of_forall₂
    {δ : Type}
    {shown : β → δ}
    {shownToo : γ → δ}
    (areRelated : List.Forall₂ related items others)
    (sameShown : ∀ {item other}, related item other → shown item = shownToo other) :
    items.map shown = others.map shownToo := by
  induction areRelated with
  | nil => rfl
  | cons isRelated _ inductionHypothesis =>
      rw [List.map_cons, List.map_cons, sameShown isRelated, inductionHypothesis]

/-- What holds from earlier to later items carries over to those they are related to. -/
theorem pairwise_of_forall₂
    {before : β → β → Prop}
    {after : γ → γ → Prop}
    (areRelated : List.Forall₂ related items others)
    (carries :
      ∀ {first second image next},
        related first image → related second next → before first second → after image next)
    (ordered : items.Pairwise before) :
    others.Pairwise after := by
  induction areRelated with
  | nil =>
      exact .nil
  | cons isRelated othersRelated inductionHypothesis =>
      obtain ⟨fromFirst, ordered⟩ := List.pairwise_cons.mp ordered
      refine List.pairwise_cons.mpr ⟨?_, inductionHypothesis ordered⟩
      intro other inOthers
      obtain ⟨item, inItems, isOther⟩ := exists_left_of_forall₂ othersRelated inOthers
      exact carries isRelated isOther (fromFirst item inItems)

/-- Where items are related by way of something between them, there is a list between the lists. -/
theorem exists_middle_of_forall₂
    {δ : Type}
    {before : β → δ → Prop}
    {after : δ → γ → Prop}
    (areRelated :
      List.Forall₂ (fun item other => ∃ middle, before item middle ∧ after middle other) items
        others) :
    ∃ middles, List.Forall₂ before items middles ∧ List.Forall₂ after middles others := by
  induction areRelated with
  | nil =>
      exact ⟨[], .nil, .nil⟩
  | cons isRelated _ inductionHypothesis =>
      obtain ⟨middle, isBefore, isAfter⟩ := isRelated
      obtain ⟨middles, areBefore, areAfter⟩ := inductionHypothesis
      exact ⟨middle :: middles, .cons isBefore areBefore, .cons isAfter areAfter⟩

/-- What is related to items with their positions is related to the items. -/
theorem forall₂_of_zipIdx
    (areRelated : List.Forall₂ (fun entry other => related entry.1 other) items.zipIdx others) :
    List.Forall₂ related items others := by
  rw [← List.zipIdx_map_fst 0 items]
  exact List.forall₂_map_left_iff.mpr areRelated

/-- Lists that are related item by item are so under common labels. -/
theorem forall₂_zip_left
    {δ : Type}
    (areRelated : List.Forall₂ related items others)
    (labels : List δ) :
    List.Forall₂ (fun entry image => entry.1 = image.1 ∧ related entry.2 image.2)
      (labels.zip items) (labels.zip others) := by
  induction areRelated generalizing labels with
  | nil =>
      cases labels <;> exact .nil
  | cons isRelated _ inductionHypothesis =>
      cases labels with
      | nil => exact .nil
      | cons label rest => exact .cons ⟨rfl, isRelated⟩ (inductionHypothesis rest)

/-- What is computed on related items has related results. -/
theorem exists_mapM_eq_ok_of_forall₂
    {δ ζ : Type}
    {relatedToo : δ → ζ → Prop}
    {compute : β → Except ε δ}
    {computeToo : γ → Except ε ζ}
    (areRelated : List.Forall₂ related items others)
    (carries :
      ∀ {item other result}, related item other → compute item = .ok result →
        ∃ image, computeToo other = .ok image ∧ relatedToo result image)
    {results : List δ}
    (mapped : items.mapM compute = .ok results) :
    ∃ images, others.mapM computeToo = .ok images ∧ List.Forall₂ relatedToo results images := by
  simp only [mapM_eq_ok_iff] at *
  induction areRelated generalizing results with
  | nil =>
      cases mapped
      exact ⟨[], .nil, .nil⟩
  | cons isRelated _ inductionHypothesis =>
      cases mapped with
      | cons isResult mapped =>
          obtain ⟨image, isImage, isRelatedToo⟩ := carries isRelated isResult
          obtain ⟨images, areImages, areRelatedToo⟩ := inductionHypothesis mapped
          exact ⟨image :: images, .cons isImage areImages, .cons isRelatedToo areRelatedToo⟩

end Related

/-- What is computed on every item has a result for each of them. -/
theorem exists_of_mem_of_mapM_eq_ok
    {results : List γ}
    (mapped : items.mapM compute = .ok results)
    {item : β}
    (member : item ∈ items) :
    ∃ result ∈ results, compute item = .ok result :=
  exists_right_of_forall₂ (mapM_eq_ok_iff.mp mapped) member

/-- Every result of what is computed on a list is that of one of its items. -/
theorem exists_of_mem_results_of_mapM_eq_ok
    {results : List γ}
    (mapped : items.mapM compute = .ok results)
    {result : γ}
    (member : result ∈ results) :
    ∃ item ∈ items, compute item = .ok result :=
  exists_left_of_forall₂ (mapM_eq_ok_iff.mp mapped) member

/-- A computation that has a result on each item has one on the list. -/
theorem exists_mapM_eq_ok
    (computed : ∀ item ∈ items, ∃ result, compute item = .ok result) :
    ∃ results, items.mapM compute = .ok results := by
  obtain ⟨results, areResults⟩ := exists_forall₂_of_forall_exists computed
  exact ⟨results, mapM_eq_ok_iff.mpr areResults⟩

/-- A computation has a result if its first step has one and it goes on from any. -/
theorem exists_bind_eq_ok
    {δ : Type}
    {first : Except ε δ}
    {next : δ → Except ε γ}
    (computed : ∃ value, first = .ok value)
    (continues : ∀ value, ∃ result, next value = .ok result) :
    ∃ result, first >>= next = .ok result := by
  obtain ⟨value, rfl⟩ := computed
  exact continues value

end Mapping

/-- Reading a list off by its positions gives the list. -/
theorem map_range_getElem?
    {β γ : Type}
    (items : List β)
    (view : β → γ)
    (missing : γ) :
    (List.range items.length).map (fun position =>
      ((items[position]?).map view).getD missing) = items.map view := by
  apply List.ext_getElem
  · simp
  · intro position inRange inItems
    have inBounds : position < items.length := by
      simpa using inRange
    simp [inBounds]

theorem map_getD_range
    {β : Type}
    (items : List β)
    (missing : β) :
    (List.range items.length).map (fun position => items.getD position missing) = items := by
  simpa [List.getD_eq_getElem?_getD] using map_range_getElem? items id missing

theorem countP_eq_countP_range
    {β : Type}
    {items : List β}
    {holds : β → Bool}
    {holdsAt : Nat → Bool}
    (agree :
      ∀ (position : Nat) (item : β), items[position]? = some item →
        holds item = holdsAt position) :
    items.countP holds = (List.range items.length).countP holdsAt := by
  calc items.countP holds
      = (items.map holds).countP id := by
        rw [List.countP_map]
        rfl
    _ = (List.range items.length).countP fun position =>
          ((items[position]?).map holds).getD false := by
        rw [← map_range_getElem? items holds false, List.countP_map]
        rfl
    _ = (List.range items.length).countP holdsAt := by
        refine List.countP_congr fun position inRange => ?_
        have isItem := List.getElem?_eq_getElem (List.mem_range.mp inRange)
        rw [isItem, Option.map_some, Option.getD_some, agree position _ isItem]

/-- A list is sorted by whatever is transitive and total on its items. -/
theorem pairwise_mergeSort_of_mem
    {β : Type}
    {precedes : β → β → Bool}
    {items : List β}
    (transitive :
      ∀ first ∈ items, ∀ second ∈ items, ∀ third ∈ items,
        precedes first second = true → precedes second third = true →
          precedes first third = true)
    (total :
      ∀ first ∈ items, ∀ second ∈ items,
        precedes first second = true ∨ precedes second first = true) :
    (items.mergeSort precedes).Pairwise (precedes · · = true) := by
  have sorted :
      (items.attach.mergeSort fun first second => precedes first.val second.val).Pairwise
        fun first second => precedes first.val second.val = true := by
    apply List.pairwise_mergeSort
    · intro first second third
      exact transitive first first.property second second.property third third.property
    · intro first second
      exact Bool.or_eq_true_iff.mpr (total first first.property second second.property)
  have isSorted :
      items.mergeSort precedes =
        (items.attach.mergeSort fun first second => precedes first.val second.val).map
          Subtype.val := by
    rw [List.map_mergeSort (s := precedes) fun _ _ _ _ => rfl, List.attach_map_subtype_val]
  rw [isSorted]
  exact List.pairwise_map.mpr sorted

theorem getD_mem_of_lt
    {β : Type}
    {items : List β}
    {position : Nat}
    (inRange : position < items.length)
    (missing : β) :
    items.getD position missing ∈ items := by
  rw [List.getD_eq_getElem?_getD, List.getElem?_eq_getElem inRange, Option.getD_some]
  exact List.getElem_mem inRange

/-- Where no two items share a key, an item is the only one with its key. -/
theorem filter_key_eq_of_mem
    {β : Type}
    {key : β → String}
    {items : List β}
    (distinct : (items.map key).Nodup)
    {item : β}
    (member : item ∈ items) :
    items.filter (key · == key item) = [item] := by
  induction items with
  | nil =>
      simp at member
  | cons first rest inductionHypothesis =>
      obtain ⟨isNew, restDistinct⟩ := List.nodup_cons.mp distinct
      rcases List.mem_cons.mp member with isFirst | inRest
      · subst item
        have noOther : rest.filter (key · == key first) = [] := by
          rw [List.filter_eq_nil_iff]
          intro other inRest sameKey
          exact isNew (List.mem_map.mpr ⟨other, inRest, by simpa using sameKey⟩)
        rw [List.filter_cons_of_pos (by simp), noOther]
      · have isOther : key first ≠ key item := by
          intro sameKey
          exact isNew (List.mem_map.mpr ⟨item, inRest, sameKey.symm⟩)
        rw [List.filter_cons_of_neg (by simpa using isOther)]
        exact inductionHypothesis restDistinct inRest

/-- What only the items with one key lead to is what the item with that key leads to. -/
theorem flatMap_eq_of_mem
    {β γ : Type}
    {key : β → String}
    {items : List β}
    (distinct : (items.map key).Nodup)
    {item : β}
    (member : item ∈ items)
    {image : β → List γ}
    (noOther : ∀ other, key other ≠ key item → image other = []) :
    items.flatMap image = image item := by
  have sameImage :
      items.flatMap image = (items.filter (key · == key item)).flatMap image := by
    clear distinct member
    induction items with
    | nil =>
        rfl
    | cons first rest inductionHypothesis =>
        rw [List.flatMap_cons, inductionHypothesis]
        by_cases sameKey : key first = key item
        · simp [sameKey]
        · simp [sameKey, noOther first sameKey]
  rw [sameImage, filter_key_eq_of_mem distinct member, List.flatMap_singleton]

end Optima
