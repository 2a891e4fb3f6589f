import Mathlib.Data.List.Basic
import Optima.Storage.FileTree

namespace Optima

/-!
# Places that paths lead to

A path leads to one place, whatever directories there are, as long as it can be
followed.  Directories that are there stay there.  Making the directories of a path
makes none but those on its way.
-/

namespace Letters

theorem pieces_of_not_mem
    {separator : Char}
    {text : List Char}
    (isWhole : separator ∉ text) :
    pieces separator text = [text] := by
  induction text with
  | nil => rfl
  | cons character rest inductionHypothesis =>
      rw [List.mem_cons, not_or] at isWhole
      unfold pieces
      rw [inductionHypothesis isWhole.2,
        if_neg fun isSame => isWhole.1 (eq_of_beq isSame).symm]

theorem split_of_not_mem
    {separator : Char}
    {text : String}
    (isWhole : separator ∉ text.toList) :
    split separator text = [text] := by
  unfold split
  rw [pieces_of_not_mem isWhole, List.map_singleton, String.ofList_toList]

end Letters

namespace FilePath

/-- A text that a path takes as one segment that goes down. -/
structure IsName (text : String) : Prop where
  isWhole : '/' ∉ text.toList
  isSomething : text ≠ ""
  isElsewhere : text ≠ "."
  isDownward : text ≠ upward

theorem ofText_of_isName
    {text : String}
    (isName : IsName text) :
    ofText text = ⟨false, [text]⟩ := by
  have isRelative : (text.toList.head? == some '/') = false := by
    rw [beq_eq_false_iff_ne]
    exact fun isHead => isName.isWhole (List.mem_of_mem_head? isHead)
  unfold ofText segmentsOf
  rw [isRelative, Letters.split_of_not_mem isName.isWhole, List.filter_cons_of_pos]
  · rfl
  · simp [isName.isSomething, isName.isElsewhere]

theorem child_of_isName
    {text : String}
    (isName : IsName text)
    (base : FilePath) :
    base.child text = ⟨base.isAbsolute, base.segments ++ [text]⟩ := by
  unfold child join
  rw [ofText_of_isName isName]
  rfl

end FilePath

namespace FileTree

variable {tree other : FileTree} {place : Place} {segments : List String}

/-- The place that a path leads to if it can be followed. -/
def endOf (tree : FileTree) (path : FilePath) : Place :=
  path.segments.foldl step (tree.origin path)

/-- The places that segments lead to, one after another. -/
def placesFrom : Place → List String → List Place
  | _, [] => []
  | place, segment :: rest => step place segment :: placesFrom (step place segment) rest

/-- The places on the way of a path, with its end. -/
def wayOf (tree : FileTree) (path : FilePath) : List Place :=
  placesFrom (tree.origin path) path.segments

theorem follow_cons
    (tree : FileTree)
    (place : Place)
    (segment : String)
    (rest : List String) :
    tree.follow place (segment :: rest) =
      if tree.isDirectoryAt place then tree.follow (step place segment) rest else none :=
  rfl

theorem eq_foldl_of_follow_eq_some
    {found : Place}
    (isFollowed : tree.follow place segments = some found) :
    found = segments.foldl step place := by
  induction segments generalizing place with
  | nil => exact (Option.some.inj isFollowed).symm
  | cons segment rest inductionHypothesis =>
      rw [follow_cons] at isFollowed
      split at isFollowed
      · exact inductionHypothesis isFollowed
      · cases isFollowed

theorem follow_append
    (tree : FileTree)
    (place : Place)
    (segments others : List String) :
    tree.follow place (segments ++ others) =
      (tree.follow place segments).bind (tree.follow · others) := by
  induction segments generalizing place with
  | nil => rfl
  | cons segment rest inductionHypothesis =>
      rw [List.cons_append, follow_cons, follow_cons]
      split
      · exact inductionHypothesis _
      · rfl

theorem isDirectoryAt_iff :
    tree.isDirectoryAt place = true ↔ place = [] ∨ place ∈ tree.directories := by
  simp [isDirectoryAt]

theorem isDirectoryAt_of_subset
    (isSubset : tree.directories ⊆ other.directories)
    (isDirectory : tree.isDirectoryAt place = true) :
    other.isDirectoryAt place = true := by
  rw [isDirectoryAt_iff] at isDirectory ⊢
  exact isDirectory.imp_right fun member => isSubset member

/-- A path that can be followed can be followed where there are more directories. -/
theorem follow_of_subset
    {found : Place}
    (isSubset : tree.directories ⊆ other.directories)
    (isFollowed : tree.follow place segments = some found) :
    other.follow place segments = some found := by
  induction segments generalizing place with
  | nil => exact isFollowed
  | cons segment rest inductionHypothesis =>
      rw [follow_cons] at isFollowed ⊢
      split at isFollowed
      · rename_i isDirectory
        rw [if_pos (isDirectoryAt_of_subset isSubset isDirectory)]
        exact inductionHypothesis isFollowed
      · cases isFollowed

theorem place?_of_subset
    {path : FilePath}
    (isSubset : tree.directories ⊆ other.directories)
    (sameWorking : other.working = tree.working)
    (isPlace : tree.place? path = some place) :
    other.place? path = some place := by
  unfold place? origin at isPlace ⊢
  rw [sameWorking]
  exact follow_of_subset isSubset isPlace

theorem place?_of_isDirectory
    {path : FilePath}
    (leadsToDirectory : tree.isDirectory path = true) :
    tree.place? path = some (tree.endOf path) := by
  unfold isDirectory at leadsToDirectory
  cases isFound : tree.place? path with
  | none =>
      rw [isFound] at leadsToDirectory
      cases leadsToDirectory
  | some found => exact congrArg some (eq_foldl_of_follow_eq_some isFound)

/-- A new text in a file leads no path elsewhere. -/
theorem place?_setText_eq_some
    {path : FilePath}
    {found : Place}
    {text : String}
    (isPlace : tree.place? path = some found) :
    (tree.setText place text).place? path = some found := by
  have isSubset : tree.directories ⊆ (tree.setText place text).directories :=
    List.Subset.refl _
  exact place?_of_subset isSubset rfl isPlace

/-- Directories are made on a way, and nothing else changes. -/
structure IsMade (tree other : FileTree) (way : List Place) : Prop where
  sameFiles : other.files = tree.files
  sameWorking : other.working = tree.working
  isSubset : tree.directories ⊆ other.directories
  isOnWay : ∀ directory ∈ other.directories, directory ∈ tree.directories ∨ directory ∈ way

theorem isMade_of_makeFrom_eq_some
    (made : tree.makeFrom place segments = some other) :
    IsMade tree other (placesFrom place segments) := by
  induction segments generalizing tree place with
  | nil =>
      unfold makeFrom at made
      split at made
      · cases made
        exact ⟨rfl, rfl, List.Subset.refl _, fun _ => .inl⟩
      · cases made
  | cons segment rest inductionHypothesis =>
      unfold makeFrom at made
      dsimp only at made
      split at made
      · have isMade := inductionHypothesis made
        exact { isMade with
          isOnWay := fun directory member =>
            (isMade.isOnWay directory member).imp_right (List.mem_cons_of_mem _) }
      · split at made
        · cases made
        · have isMade := inductionHypothesis made
          refine ⟨isMade.sameFiles, isMade.sameWorking,
            fun _ member => isMade.isSubset (List.mem_append_left _ member), ?_⟩
          intro directory member
          rcases isMade.isOnWay directory member with wasThere | isLater
          · rcases List.mem_append.mp wasThere with wasThere | isNext
            · exact .inl wasThere
            · exact .inr (List.mem_cons.mpr (.inl (List.mem_singleton.mp isNext)))
          · exact .inr (List.mem_cons_of_mem _ isLater)

/-- A file is written at the place that its path leads to, in a directory that is there. -/
theorem write?_eq_some
    {path : FilePath}
    {text : String}
    {written : FileTree}
    (isWritten : tree.write? path text = some written) :
    ∃ place, tree.place? path = some place ∧ written = tree.setText place text := by
  unfold write? at isWritten
  split at isWritten
  · cases isWritten
  · rename_i place isPlace
    split at isWritten
    · cases isWritten
    · exact ⟨place, isPlace, (Option.some.inj isWritten).symm⟩

theorem step_of_isName
    {name : String}
    (isName : FilePath.IsName name)
    (place : Place) :
    step place name = place ++ [name] :=
  if_neg fun isUpward => isName.isDownward (eq_of_beq isUpward)

/-- What is below a path is in a directory, at the place that the path leads to. -/
theorem place?_child_eq_some_iff
    {base : FilePath}
    {name : String}
    (isName : FilePath.IsName name) :
    tree.place? (base.child name) = some place ↔
      tree.place? base = some (tree.endOf base) ∧
        tree.isDirectoryAt (tree.endOf base) = true ∧ place = tree.endOf base ++ [name] := by
  have isFollowed :
      tree.place? (base.child name) =
        (tree.place? base).bind (tree.follow · [name]) := by
    rw [FilePath.child_of_isName isName]
    exact follow_append tree _ _ _
  rw [isFollowed]
  cases isBase : tree.place? base with
  | none => simp
  | some found =>
      obtain rfl : found = tree.endOf base := eq_foldl_of_follow_eq_some isBase
      rw [Option.bind_some, follow_cons, step_of_isName isName]
      by_cases isDirectory : tree.isDirectoryAt (tree.endOf base) = true
      · rw [if_pos isDirectory]
        exact ⟨fun isPlace => ⟨rfl, isDirectory, (Option.some.inj isPlace).symm⟩,
          fun isPlace => congrArg some isPlace.2.2.symm⟩
      · rw [if_neg isDirectory]
        exact ⟨nofun, fun isPlace => absurd isPlace.2.1 isDirectory⟩

end FileTree

end Optima
