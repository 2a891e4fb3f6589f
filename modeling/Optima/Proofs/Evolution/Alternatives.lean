import Mathlib
import Optima.Proofs.Evolution.Elitism
import Optima.Proofs.Evolution.Front

namespace Optima

/-!
# The alternatives of the genetic strategy

The genetic strategy gives back the fittest members of its last generation: each vector once, the
fittest first, and as many as are asked for if there are that many vectors.  A member that is left
out has the vector of one that is told of, or is at most as fit as each of them.
-/

namespace Evolution

variable {α : Type} [Scalar α] {candidates : Candidates α} {members : List (Member α)}

/-- Members that can be decoded can be told of. -/
theorem exists_alternativesAt_eq_ok
    (areDecoded : ∀ member ∈ members, ∃ values, candidates.decode member.vector = .ok values)
    (dominated positions : List Nat)
    (crowding : List α) :
    ∃ others, alternativesAt candidates members dominated crowding positions = .ok others := by
  refine exists_mapM_eq_ok fun entry inEntries => ?_
  obtain ⟨place, -, isEntry⟩ := List.mem_filterMap.mp inEntries
  obtain ⟨member, isMember, rfl⟩ := Option.map_eq_some_iff.mp isEntry
  obtain ⟨values, areValues⟩ := areDecoded member (List.mem_of_getElem? isMember)
  simp [alternative, areValues, bind, Except.bind, pure, Except.pure]

end Evolution

namespace Genetic

open Evolution

variable {α : Type} [Scalar α] {candidates : Candidates α} {count : Nat}
  {members told : List (Member α)} {others : List (Alternative α)}

/-- The positions of the members that are given back, the fittest first. -/
def keptPositions (count : Nat) (members : List (Member α)) : List Nat :=
  (distinctPositions (members.map (·.vector)) [] (ranking members)).take count

/-- What the members that are told of are to all members of a generation. -/
structure AreFittest (count : Nat) (members told : List (Member α)) : Prop where
  mem : ∀ member ∈ told, member ∈ members
  /-- As many are told of as are asked for, or as there are vectors. -/
  length_eq : told.length = min count (members.map (·.vector)).eraseDups.length
  areDistinct : told.Pairwise fun one other => (one.vector == other.vector) = false
  areOrdered : told.Pairwise fun earlier later => later.fitness ≤ earlier.fitness
  isBest : 0 < count → told.head? = best? members
  isComplete :
    ∀ member ∈ members,
      (∃ one ∈ told, one = member ∨ (member.vector == one.vector) = true) ∨
        ∀ one ∈ told, member.fitness ≤ one.fitness

/-- Alternatives tell of members in their order, with ranks from one. -/
structure TellInOrder (candidates : Candidates α) (told : List (Member α))
    (others : List (Alternative α)) : Prop where
  tellOf : List.Forall₂ (TellsOf candidates) told others
  areRanked :
    ∀ (index : Nat) (other : Alternative α), others[index]? = some other →
      other.rank = ((index + 1 : Nat) : Int)

theorem mem_ranking_iff
    {position : Nat} :
    position ∈ ranking members ↔ position < members.length := by
  rw [ranking, Scalar.mem_descending_iff, List.length_map]

theorem mem_ranking_of_mem_keptPositions
    {position : Nat}
    (isKept : position ∈ keptPositions count members) :
    position ∈ ranking members :=
  (sublist_distinctPositions _ _ _).mem (List.mem_of_mem_take isKept)

/-- A ranking has the vectors of all members. -/
theorem map_getD_ranking_perm
    (members : List (Member α)) :
    ((ranking members).map ((members.map (·.vector)).getD · [])).Perm
      (members.map (·.vector)) := by
  have isPerm : (ranking members).Perm (List.range members.length) := by
    simpa [ranking, Scalar.descending] using
      Scalar.ascending_perm ((members.map (·.fitness)).map (-·))
  have areVectors : (List.range members.length).map ((members.map (·.vector)).getD · []) =
      members.map (·.vector) := by
    simpa [List.getD_eq_getElem?_getD] using map_range_getElem? members (·.vector) []
  have isMapped := isPerm.map ((members.map (·.vector)).getD · [])
  rwa [areVectors] at isMapped

/-- Each vector is kept once. -/
theorem length_keptPositions
    [NumericScalar α]
    (count : Nat)
    (members : List (Member α)) :
    (keptPositions count members).length =
      min count (members.map (·.vector)).eraseDups.length := by
  have isPartialEquiv : PartialEquivBEq α := Scalar.partialEquivBEq
  have isPartialEquivToo : PartialEquivBEq (List α) := partialEquivBEq_list
  have areVectors := map_getD_distinctPositions (members.map (·.vector)) [] (ranking members)
  rw [keptPositions, List.length_take, ← List.length_map ((members.map (·.vector)).getD · []),
    areVectors, length_eraseDups_filter_eq_of_perm (map_getD_ranking_perm members)]
  simp

/-- If any member is told of, the best one is told of first. -/
theorem head?_eq_best?
    (areThere :
      List.Forall₂ (fun position member => members[position]? = some member)
        (keptPositions count members) told)
    (someCount : 0 < count) :
    told.head? = best? members := by
  obtain ⟨further, rfl⟩ := Nat.exists_eq_succ_of_ne_zero someCount.ne'
  unfold keptPositions at areThere
  unfold best?
  cases areRanked : ranking members with
  | nil =>
      rw [areRanked] at areThere
      cases areThere
      rfl
  | cons first rest =>
      -- Nothing has been seen before the first position, so it is kept.
      rw [areRanked, distinctPositions] at areThere
      cases areThere with
      | cons isFirst _ => exact isFirst.symm

section Fitness

variable [NumericScalar α]
  (areNumbers : ∀ member ∈ members, Scalar.isNaN member.fitness = false)

include areNumbers

/-- From one position of a ranking to a later one the fitness does not rise. -/
theorem pairwise_ranking :
    (ranking members).Pairwise fun earlier later =>
      ∀ first second, members[earlier]? = some first → members[later]? = some second →
        second.fitness ≤ first.fitness := by
  refine (Scalar.pairwise_descending_of_areNumbers ?_).imp ?_
  · simpa using areNumbers
  · intro earlier later ordered first second isFirst isSecond
    exact ordered _ _ (by simp [isFirst]) (by simp [isSecond])

/-- A member whose vector is told of only later, or not at all, is at most as fit as those that are
told of. -/
theorem exists_told_or_fitness_le
    (areThere :
      List.Forall₂ (fun position member => members[position]? = some member)
        (keptPositions count members) told)
    {member : Member α}
    (inMembers : member ∈ members) :
    (∃ one ∈ told, one = member ∨ (member.vector == one.vector) = true) ∨
      ∀ one ∈ told, member.fitness ≤ one.fitness := by
  obtain ⟨position, isMember⟩ := List.mem_iff_getElem?.mp inMembers
  have isRanked := mem_ranking_iff.mpr (List.getElem?_eq_some_iff.mp isMember).1
  have ordered := pairwise_ranking areNumbers
  obtain isSeen | ⟨kept, isKept, keeps⟩ :=
    exists_kept_of_mem (members.map (·.vector)) [] ordered isRanked
  · cases isSeen
  have inRange := mem_ranking_iff.mp ((sublist_distinctPositions _ _ _).mem isKept)
  have isThere := List.getElem?_eq_getElem inRange
  have keptOrdered :=
    ordered.sublist (sublist_distinctPositions (members.map (·.vector)) [] (ranking members))
  rw [← List.take_append_drop count (distinctPositions _ _ _)] at isKept keptOrdered
  rcases List.mem_append.mp isKept with isTaken | isDropped
  · obtain ⟨one, inTold, isOne⟩ := exists_right_of_forall₂ areThere isTaken
    refine .inl ⟨one, inTold, keeps.imp ?_ ?_⟩
    · rintro rfl
      exact Option.some.inj (isOne.symm.trans isMember)
    · rintro ⟨-, isSame⟩
      rwa [getD_map_vector isMember, getD_map_vector isOne] at isSame
  · refine .inr fun one inTold => ?_
    obtain ⟨place, isTaken, isOne⟩ := exists_left_of_forall₂ areThere inTold
    have atMost : members[kept].fitness ≤ one.fitness :=
      (List.pairwise_append.mp keptOrdered).2.2 place isTaken kept isDropped _ _ isOne isThere
    rcases keeps with rfl | ⟨isBefore, -⟩
    · obtain rfl := Option.some.inj (isThere.symm.trans isMember)
      exact atMost
    · exact ComparableScalar.le_trans _ _ _ (isBefore _ _ isThere isMember) atMost

/-- The members at the positions that are kept are the fittest. -/
theorem areFittest_of_areThere
    (areThere :
      List.Forall₂ (fun position member => members[position]? = some member)
        (keptPositions count members) told) :
    AreFittest count members told where
  mem _ := mem_of_areThere areThere
  length_eq := areThere.length_eq.symm.trans (length_keptPositions count members)
  areDistinct :=
    pairwise_vector_of_areThere areThere
      ((pairwise_distinctPositions _ _ _).sublist (List.take_sublist _ _))
  areOrdered := by
    have ordered := (pairwise_ranking areNumbers).sublist
      ((List.take_sublist count _).trans
        (sublist_distinctPositions (members.map (·.vector)) [] (ranking members)))
    exact pairwise_of_forall₂ areThere
      (fun isFirst isSecond ordered => ordered _ _ isFirst isSecond) ordered
  isBest := head?_eq_best? areThere
  isComplete _ inMembers := exists_told_or_fitness_le areNumbers areThere inMembers

end Fitness

/-- Alternatives tell of the members at the positions that are kept. -/
theorem exists_told_of_alternatives_eq_ok
    (areOthers : alternatives candidates count members = .ok others) :
    ∃ told,
      List.Forall₂ (fun position member => members[position]? = some member)
          (keptPositions count members) told ∧
        TellInOrder candidates told others := by
  have arePlaced := of_alternativesAt_eq_ok (fun position isKept =>
    ⟨_, List.getElem?_eq_getElem (mem_ranking_iff.mp (mem_ranking_of_mem_keptPositions isKept))⟩)
    areOthers
  obtain ⟨told, areThere, tellOf⟩ :=
    exists_middle_of_forall₂ (arePlaced.imp fun _ _ isPlaced => isPlaced.2.2)
  exact ⟨told, forall₂_of_zipIdx areThere, tellOf,
    rank_eq_of_forall₂_zipIdx (arePlaced.imp fun _ _ isPlaced => isPlaced.1)⟩

/-- Members of the search space can be told of, and give values that differ. -/
theorem exists_alternatives_eq_ok
    [FractionalScalar α]
    {problem : Problem α}
    {defaultBounds : α × α}
    {tolerance : α}
    (count : Nat)
    (prepared : Candidates.ofProblem problem defaultBounds tolerance = .ok candidates)
    (distinct : problem.variableNames.Nodup)
    (faultless : ∀ decision ∈ problem.decisions, decision.fault? = none)
    (areContained : ∀ member ∈ members, candidates.Contains member.vector) :
    ∃ others, alternatives candidates count members = .ok others ∧
      others.Pairwise fun one other => (one.variableValues == other.variableValues) = false := by
  have areTightened := Candidates.isTightened_intervalOf distinct faultless prepared
  obtain rfl := Candidates.problem_eq_of_ofProblem_eq_ok prepared
  have standFor (member : Member α) (inMembers : member ∈ members) :=
    Candidates.exists_decode_eq_ok_of_contains distinct faultless areTightened
      (areContained member inMembers)
  have areDecoded (member : Member α) (inMembers : member ∈ members) :
      ∃ values, candidates.decode member.vector = .ok values :=
    (standFor member inMembers).imp fun _ => And.left
  obtain ⟨others, areOthers⟩ :=
    exists_alternativesAt_eq_ok areDecoded _ (keptPositions count members) _
  refine ⟨others, areOthers, ?_⟩
  obtain ⟨told, areThere, tellOf, -⟩ := exists_told_of_alternatives_eq_ok areOthers
  have areDistinct := pairwise_vector_of_areThere areThere
    ((pairwise_distinctPositions _ _ _).sublist (List.take_sublist _ _))
  have tellOf := (List.forall₂_and_left _ _).mpr
    ⟨fun one inTold => standFor one (mem_of_areThere areThere inTold), tellOf⟩
  refine pairwise_of_forall₂ tellOf ?_ areDistinct
  rintro first second one other ⟨⟨values, areValues, standsFor⟩, tellsOf⟩
    ⟨⟨images, areImages, standsForToo⟩, tellsOfToo⟩ isDistinct
  obtain rfl := Except.ok.inj (areValues.symm.trans tellsOf.areValues)
  obtain rfl := Except.ok.inj (areImages.symm.trans tellsOfToo.areValues)
  rw [← Bool.not_eq_true] at isDistinct ⊢
  exact fun areEqual => isDistinct (Candidates.beq_of_standsFor standsFor standsForToo areEqual)

section Solving

variable {γ : Type} [SeededSource γ α]

variable (γ) in
/--
Of members none of which has NaN as its fitness, the alternatives tell of the fittest ones, as many
as are asked for or as there are different vectors.  If the members are in the search space of sound
variables with names of their own, the alternatives can be told and give values that differ.  What
comes first among the alternatives of a solve is the member that the solution itself tells of.
-/
theorem alternatives_are_fittest
    [NumericScalar α]
    (problem : Problem α)
    (parameters : GeneticParameters α) :
    (∀ candidates count, ∀ members : List (Member α),
        (∀ member ∈ members, Scalar.isNaN member.fitness = false) →
          (∀ others, alternatives candidates count members = .ok others →
            ∃ told, AreFittest count members told ∧ TellInOrder candidates told others) ∧
          ∀ [FractionalScalar α],
            Candidates.ofProblem problem parameters.defaultBounds parameters.tolerance =
                .ok candidates →
              problem.variableNames.Nodup →
                (∀ decision ∈ problem.decisions, decision.fault? = none) →
                  (∀ member ∈ members, candidates.Contains member.vector) →
                    ∃ others, alternatives candidates count members = .ok others ∧
                      others.Pairwise fun one other =>
                        (one.variableValues == other.variableValues) = false) ∧
      ∀ watch outcome, watch.lookAtFlag.1 = false → solve γ problem parameters watch = .ok outcome →
        ∃ candidates population members, ∃ source remaining : γ,
          IsSetUp problem parameters candidates source population remaining ∧
            (course candidates parameters watch population remaining).getLast? = some members ∧
            alternatives candidates parameters.alternativesCount members =
              .ok outcome.alternatives ∧
            (0 < parameters.alternativesCount →
              ∃ first, outcome.alternatives.head? = some first ∧
                first.variableValues = outcome.variableValues ∧
                first.objectiveValues = outcome.objectiveValues) := by
  refine ⟨fun candidates count members areNumbers => ⟨fun others areOthers => ?_, ?_⟩,
    fun watch outcome started solved => ?_⟩
  · obtain ⟨told, areThere, tellInOrder⟩ := exists_told_of_alternatives_eq_ok areOthers
    exact ⟨told, areFittest_of_areThere areNumbers areThere, tellInOrder⟩
  · exact exists_alternatives_eq_ok count
  · obtain ⟨candidates, population, ending, details, source, remaining, isSetUp, evolved,
      areOthers, isShown⟩ := exists_shows_of_solve_eq_ok started solved
    obtain ⟨-, isLast, isChosen⟩ := closesChosen_of_evolve_eq_ok evolved
    refine ⟨candidates, population, ending.members, source, remaining, isSetUp, isLast, areOthers,
      fun someCount => ?_⟩
    obtain ⟨told, areThere, tellOf, -⟩ := exists_told_of_alternatives_eq_ok areOthers
    have isFirst := head?_eq_best? areThere someCount
    rw [isChosen] at isFirst
    obtain ⟨rest, rfl⟩ := List.head?_eq_some_iff.mp isFirst
    obtain ⟨first, others, tellsOf, -, areOthers⟩ := List.forall₂_cons_left_iff.mp tellOf
    refine ⟨first, by rw [areOthers, List.head?_cons], ?_, ?_⟩
    · exact Except.ok.inj (tellsOf.areValues.symm.trans isShown.areValues)
    · exact tellsOf.areObjectives.trans isShown.areObjectives.symm

end Solving

section Samples

/-- Vectors some of which are there twice. -/
def repeatedVectors : List (List Extended) :=
  [[.finite 5], [.finite 3], [.finite 9], [.finite 3], [.finite 5]]

theorem reciprocalCandidates_has_alternatives :
    ∃ members others,
      membersOf reciprocalCandidates threeMembers repeatedVectors = .ok members ∧
        alternatives reciprocalCandidates 2 members = .ok others ∧
        (others.map fun other => (other.rank, other.variableValues)) =
          [(1, ⟨[("x", .number (.finite 3))]⟩), (2, ⟨[("x", .number (.finite 5))]⟩)] := by
  have isTold :
      (do
        let members ← membersOf reciprocalCandidates threeMembers repeatedVectors
        let others ← alternatives reciprocalCandidates 2 members
        return others.map fun other => (other.rank, other.variableValues)) =
        (.ok [(1, ⟨[("x", .number (.finite 3))]⟩), (2, ⟨[("x", .number (.finite 5))]⟩)] :
          Except Breakdown (List (Int × Table (Datum Extended)))) := by
    cbv
  obtain ⟨members, areMembers, isTold⟩ := bind_eq_ok isTold
  obtain ⟨others, areOthers, isTold⟩ := bind_eq_ok isTold
  exact ⟨members, others, areMembers, areOthers, Except.ok.inj isTold⟩

theorem contains_of_mem_repeatedVectors :
    ∀ vector ∈ repeatedVectors, reciprocalCandidates.Contains vector := by
  have isGene (value : Int) (isAbove : 0 ≤ Extended.finite value)
      (isBelow : Extended.finite value ≤ .finite 9) :
      reciprocalCandidates.Contains [.finite value] :=
    .cons ⟨isAbove, isBelow, fun _ => ⟨value, rfl⟩⟩ .nil
  have isThree := isGene 3 (by decide) (by decide)
  have isFive := isGene 5 (by decide) (by decide)
  have isNine := isGene 9 (by decide) (by decide)
  simp only [repeatedVectors, List.forall_mem_cons]
  exact ⟨isFive, isThree, isNine, isThree, isFive, List.forall_mem_nil _⟩

/-- Of three, five and nine the first two have the largest reciprocals, and are told of once. -/
theorem reciprocalProblem_gives_alternatives :
    (∃ members others,
        membersOf reciprocalCandidates threeMembers repeatedVectors = .ok members ∧
          alternatives reciprocalCandidates 2 members = .ok others ∧
          (others.map fun other => (other.rank, other.variableValues)) =
            [(1, ⟨[("x", .number (.finite 3))]⟩), (2, ⟨[("x", .number (.finite 5))]⟩)] ∧
          (∃ told, AreFittest 2 members told ∧ TellInOrder reciprocalCandidates told others) ∧
          others.Pairwise fun one other => (one.variableValues == other.variableValues) = false) ∧
      ∃ outcome,
        solve MixingGenerator reciprocalProblem threeMembers idleWatch = .ok outcome ∧
          ∃ first, outcome.alternatives.head? = some first ∧
            first.variableValues = outcome.variableValues := by
  obtain ⟨ofMembers, ofSolve⟩ :=
    alternatives_are_fittest MixingGenerator reciprocalProblem threeMembers
  obtain ⟨members, others, areMembers, areOthers, areTold⟩ := reciprocalCandidates_has_alternatives
  obtain ⟨areFittest, areDistinct⟩ := ofMembers reciprocalCandidates 2 members fun _ _ => rfl
  have areContained : ∀ member ∈ members, reciprocalCandidates.Contains member.vector :=
    fun member inMembers =>
      contains_of_mem_repeatedVectors _ (memberOf_of_mem areMembers inMembers).1
  have isFaultless : ∀ decision ∈ reciprocalProblem.decisions, decision.fault? = none := by
    intro decision inProblem
    obtain rfl := List.mem_singleton.mp inProblem
    cbv
  obtain ⟨same, areSame, differ⟩ := areDistinct reciprocalProblem_isSetUp.prepared (by decide)
    isFaultless areContained
  obtain rfl := Except.ok.inj (areOthers.symm.trans areSame)
  obtain ⟨outcome, solved, -⟩ := reciprocalProblem_returns
  obtain ⟨_, _, _, _, _, -, -, -, isFirst⟩ := ofSolve idleWatch outcome rfl solved
  obtain ⟨first, isThere, sameValues, -⟩ := isFirst (by decide)
  exact ⟨⟨members, others, areMembers, areOthers, areTold, areFittest others areOthers, differ⟩,
    outcome, solved, first, isThere, sameValues⟩

end Samples

end Genetic

end Optima
