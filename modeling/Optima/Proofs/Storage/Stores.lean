import Mathlib
import Optima.Proofs.Storage.Places
import Optima.Proofs.Table
import Optima.Storage.Store

namespace Optima

/-!
# Stores keep problems apart

A store answers for a problem with the solution that was made last of those that it has
got for this problem.  One that keeps solutions in memory does so for all names of
problems.  One that keeps them in files takes the name of a problem for a path, and
does so as long as other names lead elsewhere, and no name leads through a directory
that could be taken for a solution.
-/

namespace Record

variable {records : List Record} {problem : String}

/-- The moments at which solutions were made can be compared. -/
def AreComparable (records : List Record) : Prop :=
  ∀ first ∈ records, ∀ second ∈ records, first.createdAt.comparable second.createdAt = true

/-- The solutions of a problem. -/
def ofProblem (problem : String) (records : List Record) : List Record :=
  records.filter (·.solution.problem = problem)

/-- What is to be answered for a problem: nothing if there is no solution of it, and else one of its
solutions that none was made after. -/
structure IsLatestOf (problem : String) (records : List Record) (answer? : Option Record) :
    Prop where
  isNone_iff : answer? = none ↔ ∀ record ∈ records, record.solution.problem ≠ problem
  isLatest :
    ∀ answer, answer? = some answer →
      answer ∈ records ∧ answer.solution.problem = problem ∧
        ∀ other ∈ records, other.solution.problem = problem →
          other.createdAt.instant ≤ answer.createdAt.instant

theorem mem_ofProblem
    {record : Record} :
    record ∈ ofProblem problem records ↔ record ∈ records ∧ record.solution.problem = problem := by
  simp [ofProblem]

theorem ofProblem_append_singleton
    (record : Record) :
    ofProblem problem (records ++ [record]) =
      ofProblem problem records ++ if record.solution.problem = problem then [record] else [] := by
  by_cases isOwn : record.solution.problem = problem <;>
    simp [ofProblem, List.filter_append, isOwn]

theorem AreComparable.of_subset
    {others : List Record}
    (areComparable : AreComparable records)
    (isSubset : others ⊆ records) :
    AreComparable others :=
  fun first isFirst second isSecond =>
    areComparable first (isSubset isFirst) second (isSubset isSecond)

theorem exists_latestFrom
    {first : Record}
    (areComparable : AreComparable (first :: records)) :
    ∃ latest, latestFrom first records = .ok latest ∧ latest ∈ first :: records ∧
      ∀ other ∈ first :: records, other.createdAt.instant ≤ latest.createdAt.instant := by
  induction records generalizing first with
  | nil =>
      refine ⟨first, rfl, List.mem_singleton_self first, fun other member => ?_⟩
      obtain rfl := List.mem_singleton.mp member
      exact Int.le_refl _
  | cons second rest inductionHypothesis =>
      have canCompare := areComparable first List.mem_cons_self second (by simp)
      unfold latestFrom
      rw [canCompare]
      by_cases isEarlier : first.createdAt.instant < second.createdAt.instant
      · obtain ⟨latest, isLatest, member, isMaximal⟩ :=
          inductionHypothesis (areComparable.of_subset (List.subset_cons_self _ _))
        refine ⟨latest, (if_pos isEarlier).trans isLatest, List.mem_cons_of_mem _ member, ?_⟩
        intro other isOther
        rcases List.mem_cons.mp isOther with rfl | isLater
        · have isLater := isMaximal second List.mem_cons_self
          omega
        · exact isMaximal other isLater
      · have isKept : first :: rest ⊆ first :: second :: rest := by
          intro record member
          rcases List.mem_cons.mp member with rfl | isLater
          · exact List.mem_cons_self
          · exact List.mem_cons_of_mem _ (List.mem_cons_of_mem _ isLater)
        obtain ⟨latest, isLatest, member, isMaximal⟩ :=
          inductionHypothesis (areComparable.of_subset isKept)
        refine ⟨latest, (if_neg isEarlier).trans isLatest, isKept member, ?_⟩
        intro other isOther
        rcases List.mem_cons.mp isOther with rfl | isOther
        · exact isMaximal other List.mem_cons_self
        · rcases List.mem_cons.mp isOther with rfl | isLater
          · have isLater := isMaximal first List.mem_cons_self
            omega
          · exact isMaximal other (List.mem_cons_of_mem _ isLater)

/-- In whatever order the solutions of a problem are read, one that none was made after is
found. -/
theorem exists_latest?_of_perm
    {ordered : List Record}
    (isOrdered : ordered.Perm (ofProblem problem records))
    (areComparable : AreComparable records) :
    ∃ answer?, latest? ordered = .ok answer? ∧ IsLatestOf problem records answer? := by
  have isOwn (record : Record) :
      record ∈ ordered ↔ record ∈ records ∧ record.solution.problem = problem :=
    isOrdered.mem_iff.trans mem_ofProblem
  cases ordered with
  | nil =>
      refine ⟨none, rfl, ⟨fun _ record member isProblem => ?_, fun _ => rfl⟩, nofun⟩
      exact List.not_mem_nil ((isOwn record).mpr ⟨member, isProblem⟩)
  | cons first rest =>
      have isSubset : first :: rest ⊆ records := fun record member => ((isOwn record).mp member).1
      obtain ⟨latest, isLatest, member, isMaximal⟩ :=
        exists_latestFrom (areComparable.of_subset isSubset)
      have isOwnLatest := (isOwn latest).mp member
      refine ⟨some latest, congrArg (Except.map some) isLatest, ⟨nofun, fun isMissing => ?_⟩, ?_⟩
      · exact absurd isOwnLatest.2 (isMissing latest isOwnLatest.1)
      · rintro answer isAnswer
        obtain rfl := Option.some.inj isAnswer
        exact ⟨isOwnLatest.1, isOwnLatest.2, fun other isOther isProblem =>
          isMaximal other ((isOwn other).mpr ⟨isOther, isProblem⟩)⟩

end Record

/-- Solutions are read as they were written. -/
def RecordFormat.IsLossless (format : RecordFormat) (records : List Record) : Prop :=
  ∀ record ∈ records, format.read? (format.write record) = some record

namespace MemoryStore

variable {format : RecordFormat} {records : List Record} {problem : String}

/-- Keep solutions one after another. -/
def saveAll (format : RecordFormat) (store : MemoryStore) (records : List Record) : MemoryStore :=
  records.foldl (fun store record => store.save format record) store

theorem texts_saveAll
    (store : MemoryStore) :
    ((store.saveAll format records).texts.get? problem).getD [] =
      (store.texts.get? problem).getD [] ++
        (Record.ofProblem problem records).map format.write := by
  induction records generalizing store with
  | nil => exact (List.append_nil _).symm
  | cons record rest inductionHypothesis =>
      change ((saveAll format (store.save format record) rest).texts.get? problem).getD [] = _
      rw [inductionHypothesis]
      unfold save
      rw [Table.get?_insert]
      by_cases isOwn : record.solution.problem = problem
      · simp [Record.ofProblem, isOwn]
      · simp [Record.ofProblem, isOwn, Ne.symm isOwn]

theorem readTexts_map_write
    (isLossless : format.IsLossless records) :
    readTexts format (records.map format.write) = .ok records := by
  induction records with
  | nil => rfl
  | cons record rest inductionHypothesis =>
      obtain ⟨isRead, areRead⟩ := List.forall_mem_cons.mp isLossless
      rw [List.map_cons]
      unfold readTexts
      rw [isRead, inductionHypothesis areRead]
      rfl

/-- What is loaded for a problem is found among its solutions, in the order in which they were
kept. -/
theorem load_saveAll
    (isLossless : format.IsLossless records) :
    (saveAll format empty records).load format problem =
      Record.latest? (Record.ofProblem problem records) := by
  unfold load
  rw [texts_saveAll]
  change (readTexts format ((Record.ofProblem problem records).map format.write) >>= _) = _
  rw [readTexts_map_write fun record member => isLossless record (Record.mem_ofProblem.mp member).1]
  rfl

end MemoryStore

namespace FileStore

/-! ## The files of a problem -/

/-- The name of the file of a solution. -/
def fileName (record : Record) : String := record.identifier ++ ending

/-- Whether a place is that of a solution in a directory. -/
def isRecordAt (directory place : Place) : Bool :=
  !place.isEmpty && place.dropLast == directory && Letters.endsWith ending (place.getLastD "")

/-- The order of the names of files. -/
def isBefore (first second : String) : Bool := decide (first ≤ second)

theorem isName_fileName
    {record : Record}
    (isWhole : '/' ∉ record.identifier.toList) :
    FilePath.IsName (fileName record) := by
  have isLong (text : String) (isShort : text.length < 5) : fileName record ≠ text := by
    rintro rfl
    have isLong : ending.length = 5 := by decide
    rw [fileName, String.length_append] at isShort
    omega
  refine ⟨?_, isLong "" (by decide), isLong "." (by decide), isLong FilePath.upward (by decide)⟩
  rw [fileName, String.toList_append, List.mem_append, not_or]
  exact ⟨isWhole, by decide⟩

theorem isRecordAt_fileName
    (directory other : Place)
    (record : Record) :
    isRecordAt directory (other ++ [fileName record]) = (other == directory) := by
  have isEnding : Letters.endsWith ending (fileName record) = true := by
    unfold Letters.endsWith fileName
    rw [List.isSuffixOf_iff_suffix, String.toList_append]
    exact List.suffix_append _ _
  simp [isRecordAt, isEnding]

theorem fileName_injective
    {record other : Record}
    (isSame : fileName record = fileName other) :
    record.identifier = other.identifier := by
  unfold fileName at isSame
  exact (String.append_left_inj _).mp isSame

/-- It does not matter whether what is sorted is picked before or after. -/
theorem filter_mergeSort
    (names : List String)
    (keep : String → Bool) :
    (names.mergeSort isBefore).filter keep = (names.filter keep).mergeSort isBefore := by
  have isTransitive (first second third : String) :
      isBefore first second = true → isBefore second third = true →
        isBefore first third = true := by
    simp only [isBefore, decide_eq_true_eq]
    exact String.le_trans
  have isTotal (first second : String) :
      (isBefore first second || isBefore second first) = true := by
    simp only [isBefore, Bool.or_eq_true, decide_eq_true_eq]
    exact String.le_total _ _
  have isSorted (names : List String) := List.pairwise_mergeSort isTransitive isTotal names
  refine List.Perm.eq_of_pairwise ?_ ((isSorted names).filter _) (isSorted _) ?_
  · intro first second _ _ before after
    simp only [isBefore, decide_eq_true_eq] at before after
    exact String.le_antisymm before after
  · exact ((List.mergeSort_perm names isBefore).filter keep).trans
      (List.mergeSort_perm _ _).symm

section Saving

variable {store : FileStore} {format : RecordFormat} {tree next : FileTree} {problem : String}
  {records : List Record} {record : Record}

/-- Keep solutions one after another, as long as nothing fails. -/
def saveAll (store : FileStore) (format : RecordFormat) :
    FileTree → List Record → Except StorageFailure FileTree
  | tree, [] => .ok tree
  | tree, record :: rest =>
    match store.save format record tree with
    | (saved, .ok ()) => saveAll store format saved rest
    | (_, .error failure) => .error failure

/-- The place of the directory of a problem. -/
def placeOf (store : FileStore) (tree : FileTree) (problem : String) : Place :=
  tree.endOf (store.directoryOf problem)

/-- A solution does not get in the way of those of a problem: if it is of another problem, its
directory is at another place, and no directory that is made for it is taken for a solution. -/
structure IsApart (store : FileStore) (tree : FileTree) (problem : String) (record : Record) :
    Prop where
  isElsewhere :
    record.solution.problem ≠ problem →
      store.placeOf tree record.solution.problem ≠ store.placeOf tree problem
  isOffWay :
    ∀ place ∈ tree.wayOf (store.directoryOf record.solution.problem),
      isRecordAt (store.placeOf tree problem) place = false

/-- The files in the directory of a problem that hold solutions hold those of the problem, one
after another. -/
structure Holds (store : FileStore) (format : RecordFormat) (problem : String) (tree : FileTree)
    (records : List Record) : Prop where
  directories : ∀ directory ∈ tree.directories,
    isRecordAt (store.placeOf tree problem) directory = false
  files :
    tree.files.filter (fun file => isRecordAt (store.placeOf tree problem) file.1) =
      (Record.ofProblem problem records).map fun record =>
        (store.placeOf tree problem ++ [fileName record], format.write record)
  isThere :
    (∃ record ∈ records, record.solution.problem = problem) →
      tree.place? (store.directoryOf problem) = some (store.placeOf tree problem) ∧
        tree.isDirectoryAt (store.placeOf tree problem) = true

theorem placeOf_of_sameWorking
    (same : next.working = tree.working)
    (store : FileStore)
    (problem : String) :
    store.placeOf next problem = store.placeOf tree problem := by
  unfold placeOf FileTree.endOf FileTree.origin
  rw [same]

/-- What keeping a solution changes: directories are made on its way, and then its file is
written. -/
theorem exists_of_save_eq_ok
    (isWhole : '/' ∉ record.identifier.toList)
    (saved : store.save format record tree = (next, .ok ())) :
    ∃ made,
      FileTree.IsMade tree made (tree.wayOf (store.directoryOf record.solution.problem)) ∧
        made.place? (store.directoryOf record.solution.problem) =
            some (store.placeOf tree record.solution.problem) ∧
          made.isDirectoryAt (store.placeOf tree record.solution.problem) = true ∧
            next = made.setText
              (store.placeOf tree record.solution.problem ++ [fileName record])
              (format.write record) := by
  unfold save at saved
  dsimp only at saved
  split at saved
  · cases saved
  · rename_i made isMakeDirectories
    have isMade := FileTree.isMade_of_makeFrom_eq_some isMakeDirectories
    split at saved
    · cases saved
    · rename_i written isWritten
      cases saved
      obtain ⟨place, isPlace, rfl⟩ := FileTree.write?_eq_some isWritten
      obtain ⟨isFound, isDirectory, rfl⟩ :=
        (FileTree.place?_child_eq_some_iff (isName_fileName isWhole)).mp isPlace
      have isSame := placeOf_of_sameWorking isMade.sameWorking store record.solution.problem
      refine ⟨made, isMade, isSame ▸ isFound, isSame ▸ isDirectory, ?_⟩
      rw [← isSame]
      rfl

/-- The file of a new solution takes the place of none of the solutions of a problem. -/
theorem Holds.filter_others
    (holds : store.Holds format problem tree records)
    (isNew : ∀ other ∈ records, other.identifier ≠ record.identifier)
    (directory : Place) :
    (tree.files.filter (·.1 != directory ++ [fileName record])).filter
        (fun file => isRecordAt (store.placeOf tree problem) file.1) =
      (Record.ofProblem problem records).map fun record =>
        (store.placeOf tree problem ++ [fileName record], format.write record) := by
  rw [List.filter_comm, holds.files, List.filter_eq_self]
  intro file member
  obtain ⟨other, isOther, rfl⟩ := List.mem_map.mp member
  rw [bne_iff_ne]
  intro isSamePlace
  have isSameName := List.singleton_injective (List.append_inj_right' isSamePlace rfl)
  exact isNew other (Record.mem_ofProblem.mp isOther).1 (fileName_injective isSameName)

/-- What holds of the files of a problem holds when one more solution has been kept. -/
theorem Holds.save
    (holds : store.Holds format problem tree records)
    (isApart : store.IsApart tree problem record)
    (isWhole : '/' ∉ record.identifier.toList)
    (isNew : ∀ other ∈ records, other.identifier ≠ record.identifier)
    (saved : store.save format record tree = (next, .ok ())) :
    store.Holds format problem next (records ++ [record]) := by
  obtain ⟨made, isMade, isFound, isDirectory, rfl⟩ := exists_of_save_eq_ok isWhole saved
  have isSame :
      store.placeOf (made.setText (store.placeOf tree record.solution.problem ++ [fileName record])
        (format.write record)) problem = store.placeOf tree problem := by
    apply placeOf_of_sameWorking
    exact isMade.sameWorking
  constructor
  · intro directory member
    rw [isSame]
    rcases isMade.isOnWay directory member with wasThere | isOnWay
    · exact holds.directories directory wasThere
    · exact isApart.isOffWay directory isOnWay
  · rw [isSame]
    unfold FileTree.setText
    rw [isMade.sameFiles, List.filter_append, holds.filter_others isNew,
      Record.ofProblem_append_singleton, List.map_append]
    congr 1
    rw [List.filter_singleton, isRecordAt_fileName]
    by_cases isOwn : record.solution.problem = problem
    · rw [if_pos isOwn, isOwn, beq_self_eq_true]
      rfl
    · rw [if_neg isOwn, beq_eq_false_iff_ne.mpr (isApart.isElsewhere isOwn)]
      rfl
  · rintro ⟨other, isOther, isOwn⟩
    rw [isSame]
    rcases List.mem_append.mp isOther with wasThere | isRecord
    · obtain ⟨wasFound, wasDirectory⟩ := holds.isThere ⟨other, wasThere, isOwn⟩
      exact ⟨FileTree.place?_of_subset isMade.isSubset isMade.sameWorking wasFound,
        FileTree.isDirectoryAt_of_subset isMade.isSubset wasDirectory⟩
    · obtain rfl := List.mem_singleton.mp isRecord
      rw [isOwn] at isFound isDirectory ⊢
      exact ⟨FileTree.place?_setText_eq_some isFound, isDirectory⟩

theorem IsApart.of_sameWorking
    (isApart : store.IsApart tree problem record)
    (same : next.working = tree.working) :
    store.IsApart next problem record := by
  obtain ⟨isElsewhere, isOffWay⟩ := isApart
  constructor
  · rw [placeOf_of_sameWorking same, placeOf_of_sameWorking same]
    exact isElsewhere
  · unfold FileTree.wayOf FileTree.origin
    rw [placeOf_of_sameWorking same, same]
    exact isOffWay

theorem working_of_save_eq_ok
    (isWhole : '/' ∉ record.identifier.toList)
    (saved : store.save format record tree = (next, .ok ())) :
    next.working = tree.working := by
  obtain ⟨made, isMade, -, -, rfl⟩ := exists_of_save_eq_ok isWhole saved
  exact isMade.sameWorking

/-- What holds of the files of a problem holds when any number of solutions has been kept. -/
theorem Holds.saveAll
    {others : List Record}
    (holds : store.Holds format problem tree records)
    (areApart : ∀ record ∈ others, store.IsApart tree problem record)
    (areWhole : ∀ record ∈ others, '/' ∉ record.identifier.toList)
    (areDistinct : ((records ++ others).map (·.identifier)).Nodup)
    (saved : store.saveAll format tree others = .ok next) :
    store.Holds format problem next (records ++ others) := by
  induction others generalizing tree records with
  | nil =>
      cases saved
      rwa [List.append_nil]
  | cons record rest inductionHypothesis =>
      unfold FileStore.saveAll at saved
      split at saved
      · rename_i kept isKept
        have isWhole := areWhole record List.mem_cons_self
        have isNew : ∀ other ∈ records, other.identifier ≠ record.identifier := by
          rw [List.map_append, List.nodup_append] at areDistinct
          intro other isOther
          exact areDistinct.2.2 _ (List.mem_map_of_mem isOther) _
            (List.mem_map_of_mem List.mem_cons_self)
        have holdsNext := holds.save (areApart record List.mem_cons_self) isWhole isNew isKept
        rw [List.append_cons]
        refine inductionHypothesis holdsNext ?_ ?_ ?_ saved
        · intro other isOther
          exact (areApart other (List.mem_cons_of_mem _ isOther)).of_sameWorking
            (working_of_save_eq_ok isWhole isKept)
        · exact fun other isOther => areWhole other (List.mem_cons_of_mem _ isOther)
        · rwa [← List.append_cons]
      · cases saved

end Saving

/-! ## Loading -/

section Loading

variable {store : FileStore} {format : RecordFormat} {tree : FileTree} {problem : String}
  {records : List Record}

/-- The names of the files of the solutions of a problem are found in order. -/
theorem Holds.recordNames_eq
    (holds : store.Holds format problem tree records)
    (isPlace : tree.place? (store.directoryOf problem) = some (store.placeOf tree problem)) :
    recordNames tree (store.directoryOf problem) =
      ((Record.ofProblem problem records).map fileName).mergeSort isBefore := by
  have isNames :
      recordNames tree (store.directoryOf problem) =
        ((((tree.directories ++ tree.files.map (·.1)).filter fun place =>
            !place.isEmpty && place.dropLast == store.placeOf tree problem).map fun place =>
              place.getLastD "").mergeSort isBefore).filter (Letters.endsWith ending) := by
    unfold recordNames FileTree.namesIn
    rw [isPlace]
    rfl
  have isPicked :
      ((tree.directories ++ tree.files.map (·.1)).filter fun place =>
          !place.isEmpty && place.dropLast == store.placeOf tree problem).filter
        (Letters.endsWith ending ∘ fun place => place.getLastD "") =
      (Record.ofProblem problem records).map fun record =>
        store.placeOf tree problem ++ [fileName record] := by
    have isRecord :
        (fun place : Place =>
            (Letters.endsWith ending ∘ fun place : Place => place.getLastD "") place &&
              (!place.isEmpty && place.dropLast == store.placeOf tree problem)) =
          isRecordAt (store.placeOf tree problem) :=
      funext fun place => Bool.and_comm _ _
    rw [List.filter_filter, isRecord, List.filter_append,
      List.filter_eq_nil_iff.mpr fun directory member => by simp [holds.directories _ member],
      List.nil_append, List.filter_map]
    have areFiles := holds.files
    unfold Function.comp
    rw [areFiles, List.map_map]
    rfl
  rw [isNames, filter_mergeSort, List.filter_map, isPicked, List.map_map]
  congr 2
  funext record
  simp

theorem readRecords_map_fileName
    {directory : FilePath}
    (isLossless : format.IsLossless records)
    (areThere : ∀ record ∈ records,
      tree.read? (directory.child (fileName record)) = some (format.write record)) :
    readRecords format tree directory (records.map fileName) = .ok records := by
  induction records with
  | nil => rfl
  | cons record rest inductionHypothesis =>
      obtain ⟨isRead, areRead⟩ := List.forall_mem_cons.mp isLossless
      obtain ⟨isThere, restAreThere⟩ := List.forall_mem_cons.mp areThere
      rw [List.map_cons]
      unfold readRecords
      dsimp only
      rw [isThere]
      dsimp only
      rw [isRead, inductionHypothesis areRead restAreThere]
      rfl

/-- The solutions of a problem, in the order of the names of their files. -/
def inOrder (problem : String) (records : List Record) : List Record :=
  (Record.ofProblem problem records).mergeSort fun first second =>
    isBefore (fileName first) (fileName second)

theorem inOrder_perm
    (problem : String)
    (records : List Record) :
    (inOrder problem records).Perm (Record.ofProblem problem records) :=
  List.mergeSort_perm _ _

/-- The file of a solution that has been kept is there. -/
theorem Holds.read?_eq
    (holds : store.Holds format problem tree records)
    (areWhole : ∀ record ∈ records, '/' ∉ record.identifier.toList)
    (areDistinct : (records.map (·.identifier)).Nodup)
    {record : Record}
    (member : record ∈ Record.ofProblem problem records) :
    tree.read? ((store.directoryOf problem).child (fileName record)) =
      some (format.write record) := by
  obtain ⟨isRecord, isOwn⟩ := Record.mem_ofProblem.mp member
  obtain ⟨isPlace, isDirectory⟩ := holds.isThere ⟨record, isRecord, isOwn⟩
  unfold FileTree.read?
  rw [(FileTree.place?_child_eq_some_iff (isName_fileName (areWhole record isRecord))).mpr
    ⟨isPlace, isDirectory, rfl⟩]
  change tree.files.lookup (store.placeOf tree problem ++ [fileName record]) = _
  have isRecordFile :
      isRecordAt (store.placeOf tree problem) (store.placeOf tree problem ++ [fileName record]) =
        true := by
    rw [isRecordAt_fileName, beq_self_eq_true]
  rw [← lookup_filter_of_keep isRecordFile, holds.files]
  apply lookup_eq_some_of_mem
  · have areOwnDistinct := (List.pairwise_map.mp areDistinct).sublist
      (List.filter_sublist (p := (·.solution.problem = problem)))
    rw [List.map_map]
    refine List.pairwise_map.mpr (areOwnDistinct.imp fun isOther isSamePlace => isOther ?_)
    exact fileName_injective (List.singleton_injective (List.append_inj_right' isSamePlace rfl))
  · exact List.mem_map_of_mem member

/-- What is loaded for a problem is found among its solutions, in the order of the names of their
files. -/
theorem Holds.load_eq
    (holds : store.Holds format problem tree records)
    (isLossless : format.IsLossless records)
    (areWhole : ∀ record ∈ records, '/' ∉ record.identifier.toList)
    (areDistinct : (records.map (·.identifier)).Nodup) :
    store.load format problem tree = Record.latest? (inOrder problem records) := by
  unfold load
  dsimp only
  by_cases isDirectory : tree.isDirectory (store.directoryOf problem) = true
  · rw [if_pos isDirectory]
    have isNames :
        recordNames tree (store.directoryOf problem) = (inOrder problem records).map fileName := by
      rw [holds.recordNames_eq (FileTree.place?_of_isDirectory isDirectory)]
      exact (List.map_mergeSort (f := fileName) fun _ _ _ _ => rfl).symm
    have isOwn (record : Record) (member : record ∈ inOrder problem records) :
        record ∈ Record.ofProblem problem records :=
      (inOrder_perm problem records).subset member
    rw [isNames, readRecords_map_fileName
      (fun record member => isLossless record (Record.mem_ofProblem.mp (isOwn record member)).1)
      fun record member => holds.read?_eq areWhole areDistinct (isOwn record member)]
    rfl
  · have isMissing : Record.ofProblem problem records = [] := by
      rw [List.eq_nil_iff_forall_not_mem]
      intro record member
      have isOwn := Record.mem_ofProblem.mp member
      obtain ⟨isPlace, isDirectoryAt⟩ := holds.isThere ⟨record, isOwn.1, isOwn.2⟩
      apply isDirectory
      unfold FileTree.isDirectory
      rw [isPlace]
      exact isDirectoryAt
    rw [if_neg isDirectory, inOrder, isMissing, List.mergeSort_nil]
    rfl

end Loading

/-! ## Problems with plain names -/

section Names

variable {store : FileStore} {tree : FileTree} {place : Place} {segments : List String}

theorem length_step
    {segment : String}
    (goesDown : segment ≠ FilePath.upward)
    (place : Place) :
    (FileTree.step place segment).length = place.length + 1 := by
  rw [FileTree.step, if_neg fun isUpward => goesDown (eq_of_beq isUpward), List.length_append,
    List.length_singleton]

theorem length_foldl_step
    (goDown : ∀ segment ∈ segments, segment ≠ FilePath.upward)
    (place : Place) :
    (segments.foldl FileTree.step place).length = place.length + segments.length := by
  induction segments generalizing place with
  | nil => rfl
  | cons segment rest inductionHypothesis =>
      obtain ⟨goesDown, restGoDown⟩ := List.forall_mem_cons.mp goDown
      rw [List.foldl_cons, inductionHypothesis restGoDown, length_step goesDown, List.length_cons]
      omega

theorem length_le_of_mem_placesFrom
    (goDown : ∀ segment ∈ segments, segment ≠ FilePath.upward)
    {other : Place}
    (isOnWay : other ∈ FileTree.placesFrom place segments) :
    other.length ≤ place.length + segments.length := by
  induction segments generalizing place with
  | nil => cases isOnWay
  | cons segment rest inductionHypothesis =>
      obtain ⟨goesDown, restGoDown⟩ := List.forall_mem_cons.mp goDown
      have isLonger := length_step goesDown place
      rw [List.length_cons]
      rcases List.mem_cons.mp isOnWay with rfl | isLater
      · omega
      · have isShort := inductionHypothesis restGoDown isLater
        omega

theorem length_of_isRecordAt
    {directory : Place}
    (isRecord : isRecordAt directory place = true) :
    place.length = directory.length + 1 := by
  simp only [isRecordAt, Bool.and_eq_true, beq_iff_eq, Bool.not_eq_true', List.isEmpty_eq_false_iff]
    at isRecord
  obtain ⟨⟨isSomewhere, isDirectory⟩, -⟩ := isRecord
  have isLong := List.length_pos_iff.mpr isSomewhere
  rw [← isDirectory, List.length_dropLast]
  omega

theorem placeOf_of_isName
    {name : String}
    (isName : FilePath.IsName name) :
    store.placeOf tree name = tree.endOf store.root ++ [name] := by
  unfold placeOf directoryOf
  rw [FilePath.child_of_isName isName]
  unfold FileTree.endOf
  rw [List.foldl_append, List.foldl_cons, List.foldl_nil, FileTree.step_of_isName isName]
  rfl

/-- Problems with plain names do not get in each other's way. -/
theorem isApart_of_isName
    {problem : String}
    {record : Record}
    (goDown : ∀ segment ∈ store.root.segments, segment ≠ FilePath.upward)
    (isName : FilePath.IsName problem)
    (isOtherName : FilePath.IsName record.solution.problem) :
    store.IsApart tree problem record := by
  constructor
  · rw [placeOf_of_isName isName, placeOf_of_isName isOtherName]
    intro isOther isSame
    exact isOther (List.singleton_injective (List.append_inj_right' isSame rfl))
  · intro other isOnWay
    -- The way ends beside the directory of the problem, and nothing on it is below that.
    unfold FileTree.wayOf directoryOf at isOnWay
    rw [FilePath.child_of_isName isOtherName] at isOnWay
    have goDownToo :
        ∀ segment ∈ store.root.segments ++ [record.solution.problem],
          segment ≠ FilePath.upward :=
      List.forall_mem_append.mpr ⟨goDown, List.forall_mem_singleton.mpr isOtherName.isDownward⟩
    have isShort := length_le_of_mem_placesFrom goDownToo isOnWay
    have isRoot : (tree.endOf store.root).length = _ := length_foldl_step goDown _
    rw [Bool.eq_false_iff]
    intro isRecord
    have isLong := length_of_isRecordAt isRecord
    rw [placeOf_of_isName isName, List.length_append, List.length_singleton, isRoot] at isLong
    rw [List.length_append, List.length_singleton] at isShort
    unfold FileTree.origin at isLong isShort
    dsimp only at isShort
    omega

end Names

end FileStore

/-- Both stores answer for a problem with the solution that was made last of those that they have
got for it, and other solutions do not matter.  The store in files does so where nothing was in the
directory of the problem at first and no solution gets in the way of those of the problem. -/
theorem stores_answer_latest
    (format : RecordFormat)
    (records : List Record)
    (problem : String)
    (isLossless : format.IsLossless records)
    (areComparable : Record.AreComparable records) :
    (∃ answer?,
      (MemoryStore.saveAll format .empty records).load format problem = .ok answer? ∧
        Record.latest? (Record.ofProblem problem records) = .ok answer? ∧
        Record.IsLatestOf problem records answer?) ∧
      ∀ (store : FileStore) (tree saved : FileTree),
        (∀ record ∈ records, '/' ∉ record.identifier.toList) →
        (records.map (·.identifier)).Nodup →
        (∀ place ∈ tree.directories ++ tree.files.map (·.1),
          FileStore.isRecordAt (store.placeOf tree problem) place = false) →
        (∀ record ∈ records, store.IsApart tree problem record) →
        store.saveAll format tree records = .ok saved →
        ∃ answer?,
          store.load format problem saved = .ok answer? ∧
            Record.latest? (FileStore.inOrder problem records) = .ok answer? ∧
            Record.IsLatestOf problem records answer? := by
  constructor
  · obtain ⟨answer?, isLatest, isAnswer⟩ :=
      Record.exists_latest?_of_perm (.refl (Record.ofProblem problem records)) areComparable
    exact ⟨answer?, (MemoryStore.load_saveAll isLossless).trans isLatest, isLatest, isAnswer⟩
  · intro store tree saved areWhole areDistinct isEmpty areApart isSaved
    have holdsNothing : store.Holds format problem tree [] := by
      constructor
      · exact fun directory member => isEmpty directory (List.mem_append_left _ member)
      · refine List.filter_eq_nil_iff.mpr fun file member => ?_
        rw [isEmpty file.1 (List.mem_append_right _ (List.mem_map_of_mem member))]
        exact Bool.false_ne_true
      · rintro ⟨record, member, -⟩
        cases member
    have holds := holdsNothing.saveAll areApart areWhole areDistinct isSaved
    obtain ⟨answer?, isLatest, isAnswer⟩ :=
      Record.exists_latest?_of_perm (FileStore.inOrder_perm problem records) areComparable
    exact ⟨answer?, (holds.load_eq isLossless areWhole areDistinct).trans isLatest, isLatest,
      isAnswer⟩

section Results

/-- A solution that was made in a year. -/
def solutionOf (problem identifier : String) (year : Nat) : Record :=
  ⟨identifier, ⟨year, 1, 1, 0, 0, 0, 0, none⟩,
    .bare problem .feasible ⟨"genetic", 1, 0, [], {}⟩, []⟩

/-- A format that knows some solutions by their identifiers. -/
def formatOf (records : List Record) : RecordFormat :=
  ⟨(·.identifier), fun text => records.find? (·.identifier == text)⟩

/-- A store of files in a directory. -/
def resultStore : FileStore := ⟨.ofText "results"⟩

/-- Two solutions of a problem, and a later one of another. -/
def threeSolutions : List Record :=
  [solutionOf "p1" "a" 2001, solutionOf "p2" "b" 2002, solutionOf "p1" "c" 2000]

/-- The files that they are kept in. -/
def threeFiles : FileTree where
  directories :=
    [["work"], ["work", "results"], ["work", "results", "p1"], ["work", "results", "p2"]]
  files :=
    [(["work", "results", "p1", "a.json"], "a"), (["work", "results", "p2", "b.json"], "b"),
      (["work", "results", "p1", "c.json"], "c")]
  working := ["work"]

/-- Both stores answer with the later one of the two solutions. -/
theorem threeSolutions_answer_latest :
    (MemoryStore.saveAll (formatOf threeSolutions) .empty threeSolutions).load
        (formatOf threeSolutions) "p1" = .ok (some (solutionOf "p1" "a" 2001)) ∧
      ∃ saved,
        resultStore.saveAll (formatOf threeSolutions) (.empty ["work"]) threeSolutions =
            .ok saved ∧
          resultStore.load (formatOf threeSolutions) "p1" saved =
            .ok (some (solutionOf "p1" "a" 2001)) := by
  have isLossless : (formatOf threeSolutions).IsLossless threeSolutions := by
    simp [RecordFormat.IsLossless, formatOf, threeSolutions, solutionOf]
  have areComparable : Record.AreComparable threeSolutions := by
    unfold Record.AreComparable
    decide
  obtain ⟨⟨remembered?, isRemembered, isLatest, -⟩, fromFiles⟩ :=
    stores_answer_latest (formatOf threeSolutions) threeSolutions "p1" isLossless areComparable
  have isFirst :
      Record.latest? (Record.ofProblem "p1" threeSolutions) =
        .ok (some (solutionOf "p1" "a" 2001)) := by
    cbv
  have areApart :
      ∀ record ∈ threeSolutions, resultStore.IsApart (.empty ["work"]) "p1" record := by
    have isName : FilePath.IsName "p1" := ⟨by decide, by decide, by decide, by decide⟩
    have isOtherName : FilePath.IsName "p2" := ⟨by decide, by decide, by decide, by decide⟩
    have goDown : ∀ segment ∈ resultStore.root.segments, segment ≠ FilePath.upward := by decide
    intro record member
    simp only [threeSolutions, List.mem_cons, List.not_mem_nil, or_false] at member
    rcases member with rfl | rfl | rfl
    · exact FileStore.isApart_of_isName goDown isName isName
    · exact FileStore.isApart_of_isName goDown isName isOtherName
    · exact FileStore.isApart_of_isName goDown isName isName
  have isSaved :
      resultStore.saveAll (formatOf threeSolutions) (.empty ["work"]) threeSolutions =
        .ok threeFiles := by
    cbv
  obtain ⟨found?, isFound, isLatestFound, -⟩ :=
    fromFiles resultStore (.empty ["work"]) threeFiles (by decide) (by decide) (by decide)
      areApart isSaved
  have isFirstFile :
      Record.latest? (FileStore.inOrder "p1" threeSolutions) =
        .ok (some (solutionOf "p1" "a" 2001)) := by
    cbv
  exact ⟨isRemembered.trans (isLatest.symm.trans isFirst), threeFiles, isSaved,
    isFound.trans (isLatestFound.symm.trans isFirstFile)⟩

/-- A solution of one problem is found in files for another problem, the name of which leads to
the same directory.  Memory tells the two apart. -/
theorem sameDirectory_confuses_problems :
    ∃ saved,
      resultStore.saveAll (formatOf [solutionOf "./p" "s" 2000]) (.empty ["work"])
            [solutionOf "./p" "s" 2000] =
          .ok saved ∧
        resultStore.load (formatOf [solutionOf "./p" "s" 2000]) "p" saved =
          .ok (some (solutionOf "./p" "s" 2000)) ∧
        ¬ Record.IsLatestOf "p" [solutionOf "./p" "s" 2000]
            (some (solutionOf "./p" "s" 2000)) ∧
        (MemoryStore.saveAll (formatOf [solutionOf "./p" "s" 2000]) .empty
            [solutionOf "./p" "s" 2000]).load (formatOf [solutionOf "./p" "s" 2000]) "p" =
          .ok none := by
  refine ⟨⟨[["work"], ["work", "results"], ["work", "results", "p"]],
    [(["work", "results", "p", "s.json"], "s")], ["work"]⟩, by cbv, by cbv, ?_, by cbv⟩
  intro isLatest
  have isOwn := (isLatest.isLatest _ rfl).2.1
  exact absurd isOwn (by decide)

end Results

end Optima
