import Optima.Proofs.Evolution.Containment
import Optima.Proofs.Evolution.Extremes
import Optima.Proofs.Evolution.Verdict
import Optima.Proofs.Search.Sameness

namespace Optima

/-!
# The front that is given back

The alternatives of the Pareto strategy are members of the first front of the last
generation, each vector once and the most isolated ones first.  A member whose vector is
dropped as a repetition is told by the alternative that has the vector already, and so is
the member that stands for the front.
-/

/-- What an alternative is compared by. -/
def Alternative.standing {α : Type} [Scalar α] (objectives : List (Objective α))
    (other : Alternative α) : Standing α :=
  ⟨Objectives.minimizationVector objectives other.objectiveValues, other.constraintViolation⟩

theorem Scalar.positionOfSmallest_lt
    {α : Type}
    [Scalar α]
    {numbers : List α}
    (someNumber : numbers ≠ []) :
    positionOfSmallest numbers < numbers.length := by
  unfold positionOfSmallest positionOfLargest
  have sameLength : (numbers.map (-·)).length = numbers.length := List.length_map _
  rw [← sameLength]
  have notEmpty : numbers.map (-·) ≠ [] := by simpa using someNumber
  generalize numbers.map (-·) = opposites at notEmpty ⊢
  cases areEntries : opposites.zipIdx with
  | nil => exact absurd (List.zipIdx_eq_nil_iff.mp areEntries) notEmpty
  | cons first rest =>
      have member : rest.foldl
          (fun best entry => if outweighs entry.1 best.1 then entry else best) first ∈
            opposites.zipIdx := by
        rw [areEntries]
        refine foldl_choice_mem _ (fun best other => ?_) rest first
        split
        · exact .inr rfl
        · exact .inl rfl
      exact (List.getElem?_eq_some_iff.mp (List.mem_zipIdx_iff_getElem?.mp member)).1

namespace Evolution

variable {α : Type} [Scalar α]

section Distinct

variable {vectors seen : List (List α)} {positions : List Nat} {position : Nat}

theorem sublist_distinctPositions
    (vectors seen : List (List α))
    (positions : List Nat) :
    (distinctPositions vectors seen positions).Sublist positions := by
  induction positions generalizing seen with
  | nil =>
      exact .slnil
  | cons first rest inductionHypothesis =>
      unfold distinctPositions
      dsimp only
      split
      · exact (inductionHypothesis seen).cons first
      · exact (inductionHypothesis _).cons_cons first

theorem contains_eq_false_of_mem_distinctPositions
    (isKept : position ∈ distinctPositions vectors seen positions) :
    seen.contains (vectors.getD position []) = false := by
  induction positions generalizing seen with
  | nil =>
      cases isKept
  | cons first rest inductionHypothesis =>
      unfold distinctPositions at isKept
      dsimp only at isKept
      split at isKept
      · exact inductionHypothesis isKept
      · rename_i isNew
        rcases List.mem_cons.mp isKept with rfl | isKept
        · exact Bool.eq_false_iff.mpr isNew
        · have notSeen := inductionHypothesis isKept
          rw [List.contains_cons, Bool.or_eq_false_iff] at notSeen
          exact notSeen.2

/-- No vector is kept twice. -/
theorem pairwise_distinctPositions
    (vectors seen : List (List α))
    (positions : List Nat) :
    (distinctPositions vectors seen positions).Pairwise fun earlier later =>
      (vectors.getD later [] == vectors.getD earlier []) = false := by
  induction positions generalizing seen with
  | nil =>
      exact .nil
  | cons first rest inductionHypothesis =>
      unfold distinctPositions
      dsimp only
      split
      · exact inductionHypothesis seen
      · refine List.pairwise_cons.mpr ⟨fun later isKept => ?_, inductionHypothesis _⟩
        have notSeen := contains_eq_false_of_mem_distinctPositions isKept
        rw [List.contains_cons, Bool.or_eq_false_iff] at notSeen
        exact notSeen.1

/-- A position is kept, or its vector has been seen or is kept at a position that comes before. -/
theorem exists_kept_of_mem
    {precedes : Nat → Nat → Prop}
    (vectors seen : List (List α))
    (ordered : positions.Pairwise precedes)
    (member : position ∈ positions) :
    seen.contains (vectors.getD position []) = true ∨
      ∃ kept ∈ distinctPositions vectors seen positions,
        kept = position ∨
          precedes kept position ∧
            (vectors.getD position [] == vectors.getD kept []) = true := by
  induction positions generalizing seen with
  | nil =>
      cases member
  | cons first rest inductionHypothesis =>
      obtain ⟨isFirst, restOrdered⟩ := List.pairwise_cons.mp ordered
      unfold distinctPositions
      dsimp only
      split
      · rename_i isSeen
        rcases List.mem_cons.mp member with rfl | member
        · exact .inl isSeen
        · exact inductionHypothesis seen restOrdered member
      · rcases List.mem_cons.mp member with rfl | member
        · exact .inr ⟨position, List.mem_cons_self, .inl rfl⟩
        · rcases inductionHypothesis (vectors.getD first [] :: seen) restOrdered member with
            isSeen | ⟨kept, isKept, keeps⟩
          · rw [List.contains_cons, Bool.or_eq_true] at isSeen
            rcases isSeen with isSame | isSeen
            · exact .inr ⟨first, List.mem_cons_self, .inr ⟨isFirst position member, isSame⟩⟩
            · exact .inl isSeen
          · exact .inr ⟨kept, List.mem_cons_of_mem _ isKept, keeps⟩

/-- The vectors that are kept are those of the positions that are not seen, without repetitions. -/
theorem map_getD_distinctPositions
    (vectors seen : List (List α))
    (positions : List Nat) :
    (distinctPositions vectors seen positions).map (vectors.getD · []) =
      ((positions.map (vectors.getD · [])).filter fun vector =>
        !seen.contains vector).eraseDups := by
  induction positions generalizing seen with
  | nil =>
      rfl
  | cons first rest inductionHypothesis =>
      unfold distinctPositions
      dsimp only
      split
      · rename_i isSeen
        rw [inductionHypothesis, List.map_cons, List.filter_cons_of_neg (by simpa using isSeen)]
      · rename_i isNew
        rw [List.map_cons, inductionHypothesis, List.map_cons,
          List.filter_cons_of_pos (by simpa using isNew), List.eraseDups_cons, List.filter_filter]
        simp only [List.contains_cons, Bool.not_or]

end Distinct

/-- What an alternative tells of a member. -/
structure TellsOf (candidates : Candidates α) (member : Member α) (other : Alternative α) :
    Prop where
  areValues : candidates.decode member.vector = .ok other.variableValues
  areObjectives : other.objectiveValues = member.evaluation.objectiveValues
  isFitness : other.fitness = some member.fitness
  isViolation : other.constraintViolation = member.evaluation.violation

theorem TellsOf.standing_eq
    {candidates : Candidates α}
    {member : Member α}
    {other : Alternative α}
    (tellsOf : TellsOf candidates member other) :
    other.standing candidates.problem.objectives = candidates.standing member.evaluation := by
  rw [Alternative.standing, tellsOf.areObjectives, tellsOf.isViolation]
  rfl

/-- Alternatives tell of the members at some positions, in their order. -/
theorem of_alternativesAt_eq_ok
    {candidates : Candidates α}
    {members : List (Member α)}
    {dominated positions : List Nat}
    {crowding : List α}
    {others : List (Alternative α)}
    (arePlaced : ∀ position ∈ positions, ∃ member, members[position]? = some member)
    (areOthers : alternativesAt candidates members dominated crowding positions = .ok others) :
    List.Forall₂
      (fun entry other =>
        other.rank = ((entry.2 + 1 : Nat) : Int) ∧
          other.crowdingDistance = crowding.getD entry.1 0 ∧
          ∃ member, members[entry.1]? = some member ∧ TellsOf candidates member other)
      positions.zipIdx others := by
  rw [alternativesAt, mapM_eq_ok_iff] at areOthers
  have arePlacedFrom :
      ∀ entry ∈ positions.zipIdx, ∃ member, members[entry.1]? = some member :=
    fun entry inEntries => arePlaced entry.1 (List.fst_mem_of_mem_zipIdx inEntries)
  generalize positions.zipIdx = entries at areOthers arePlacedFrom ⊢
  induction entries generalizing others with
  | nil =>
      cases areOthers
      exact .nil
  | cons entry rest inductionHypothesis =>
      rw [List.forall_mem_cons] at arePlacedFrom
      obtain ⟨⟨member, isMember⟩, arePlaced⟩ := arePlacedFrom
      rw [List.filterMap_cons_some (b := (member, entry.1, entry.2 + 1)) (by simp [isMember])]
        at areOthers
      cases areOthers with
      | cons isOther areOthers =>
          refine .cons ?_ (inductionHypothesis areOthers arePlaced)
          obtain ⟨values, areValues, isOther⟩ := bind_eq_ok isOther
          cases isOther
          exact ⟨rfl, rfl, member, isMember, areValues, rfl, rfl, rfl⟩

omit [Scalar α] in
/-- What is ranked by its place has ranks from one. -/
theorem rank_eq_of_forall₂_zipIdx
    {positions : List Nat}
    {others : List (Alternative α)}
    (areRanked :
      List.Forall₂ (fun entry other => other.rank = ((entry.2 + 1 : Nat) : Int)) positions.zipIdx
        others)
    (index : Nat)
    (other : Alternative α)
    (isOther : others[index]? = some other) :
    other.rank = ((index + 1 : Nat) : Int) := by
  obtain ⟨sameLength, areAllRanked⟩ := forall₂_iff_getElem?.mp areRanked
  have inRange : index < positions.zipIdx.length :=
    sameLength ▸ (List.getElem?_eq_some_iff.mp isOther).1
  have isRank := areAllRanked index _ other (List.getElem?_eq_getElem inRange) isOther
  rw [isRank, List.getElem_zipIdx, Nat.zero_add]

section Placing

variable {members told : List (Member α)}

omit [Scalar α] in
theorem getD_map_vector
    {position : Nat}
    {member : Member α}
    (isMember : members[position]? = some member) :
    (members.map (·.vector)).getD position [] = member.vector := by
  simp [List.getD_eq_getElem?_getD, isMember]

omit [Scalar α] in
theorem mem_of_areThere
    {positions : List Nat}
    (areThere :
      List.Forall₂ (fun position member => members[position]? = some member) positions told)
    {member : Member α}
    (inTold : member ∈ told) :
    member ∈ members := by
  obtain ⟨position, -, isMember⟩ := exists_left_of_forall₂ areThere inTold
  exact List.mem_of_getElem? isMember

/-- The members at positions with different vectors are members that have different vectors. -/
theorem pairwise_vector_of_areThere
    [NumericScalar α]
    {positions : List Nat}
    (areThere :
      List.Forall₂ (fun position member => members[position]? = some member) positions told)
    (areDistinct :
      positions.Pairwise fun earlier later =>
        ((members.map (·.vector)).getD later [] ==
          (members.map (·.vector)).getD earlier []) = false) :
    told.Pairwise fun one other => (one.vector == other.vector) = false := by
  have isPartialEquiv : PartialEquivBEq α := Scalar.partialEquivBEq
  have isPartialEquivToo : PartialEquivBEq (List α) := partialEquivBEq_list
  refine pairwise_of_forall₂ areThere ?_ areDistinct
  intro first second one other isOne isOther isDistinct
  rw [getD_map_vector isOne, getD_map_vector isOther] at isDistinct
  exact BEq.comm.trans isDistinct

end Placing

end Evolution

/-- A candidate of rank zero is in the first front. -/
theorem Layering.mem_first_of_ranks_eq_zero
    {α : Type}
    [Scalar α]
    [ComparableScalar α]
    {standings : List (Standing α)}
    {dimension position : Nat}
    (sameDimension : Standing.HasDimension dimension standings)
    (isRank : (ofStandings standings).ranks[position]? = some 0) :
    position ∈ (ofStandings standings).first := by
  have areLayers := Fronts.areLayers_sort sameDimension
  change (Fronts.ranks standings.length (Fronts.sort standings))[position]? = some 0 at isRank
  change position ∈ (Fronts.sort standings).headD []
  rw [Fronts.ranks, List.getElem?_map, Option.map_eq_some_iff] at isRank
  obtain ⟨place, isPlace, isRank⟩ := isRank
  obtain ⟨inRange, rfl⟩ := List.getElem?_eq_some_iff.mp isPlace
  rw [List.getElem_range] at isRank
  rw [List.length_range] at inRange
  cases isFront : (Fronts.sort standings).findIdx? fun front => front.contains position with
  | none =>
      obtain ⟨front, inFronts, inFront⟩ := List.mem_flatten.mp
        (areLayers.flatten_perm_range.mem_iff.mpr (List.mem_range.mpr inRange))
      have notThere := List.findIdx?_eq_none_iff.mp isFront front inFronts
      rw [List.contains_iff_mem.mpr inFront] at notThere
      cases notThere
  | some number =>
      rw [isFront] at isRank
      obtain rfl : number = 0 := isRank
      obtain ⟨someFront, isThere, -⟩ := List.findIdx?_eq_some_iff_getElem.mp isFront
      cases areFronts : Fronts.sort standings with
      | nil => simp [areFronts] at someFront
      | cons front rest => simpa [areFronts] using isThere

namespace Pareto

open Evolution

variable {α : Type} [Scalar α] {candidates : Candidates α} {members : List (Member α)}
  {others : List (Alternative α)} {ending : Ending α}

/-- What alternatives are to a generation of which they are the front. -/
structure IsFront (candidates : Candidates α) (members : List (Member α))
    (others : List (Alternative α)) : Prop where
  /-- The alternatives tell of members that have different vectors. -/
  areMembers :
    ∃ told : List (Member α),
      (∀ member ∈ told, member ∈ members) ∧
        (told.Pairwise fun one other => (one.vector == other.vector) = false) ∧
        List.Forall₂ (TellsOf candidates) told others
  isUndominated :
    ∀ member ∈ members, ∀ other ∈ others,
      ¬ (candidates.standing member.evaluation).dominates
        (other.standing candidates.problem.objectives) = true
  areIncomparable :
    ∀ one ∈ others, ∀ other ∈ others,
      ¬ (one.standing candidates.problem.objectives).dominates
        (other.standing candidates.problem.objectives) = true
  areRanked :
    ∀ (index : Nat) (other : Alternative α), others[index]? = some other →
      other.rank = ((index + 1 : Nat) : Int)
  /-- Where the members of the front have crowding distances, these never rise. -/
  areIsolated :
    (∀ position ∈ (layeringOf candidates members).first,
        Scalar.isNaN ((layeringOf candidates members).crowdingAt position) = false) →
      others.Pairwise fun earlier later => later.crowdingDistance ≤ earlier.crowdingDistance
  /-- Every member of rank zero stands for values that an alternative gives. -/
  isComplete :
    ∀ (position : Nat) (member : Member α),
      members[position]? = some member →
        (layeringOf candidates members).ranks[position]? = some 0 →
          ∃ other ∈ others, ∃ values,
            candidates.decode member.vector = .ok values ∧
              other.variableValues.Related Datum.IsSame values

/-- The positions of the members that are given back, the most isolated ones first. -/
def frontPositions (candidates : Candidates α) (members : List (Member α)) : List Nat :=
  distinctPositions (members.map (·.vector)) []
    ((layeringOf candidates members).byIsolation (layeringOf candidates members).first)

theorem mem_first_of_mem_frontPositions
    {position : Nat}
    (isKept : position ∈ frontPositions candidates members) :
    position ∈ (layeringOf candidates members).first :=
  (Layering.byIsolation_perm _ _).mem_iff.mp ((sublist_distinctPositions _ _ _).mem isKept)

/-- An alternative is told of a member at a position, at a place in the order. -/
def IsPlaced (candidates : Candidates α) (members : List (Member α)) (entry : Nat × Nat)
    (other : Alternative α) : Prop :=
  other.rank = ((entry.2 + 1 : Nat) : Int) ∧
    other.crowdingDistance = (layeringOf candidates members).crowdingAt entry.1 ∧
    ∃ member, members[entry.1]? = some member ∧ TellsOf candidates member other

theorem arePlaced_of_alternatives_eq_ok
    [ComparableScalar α]
    (isLayering : ending.layering = layeringOf candidates ending.members)
    (areOthers : alternatives candidates ending = .ok others) :
    List.Forall₂ (IsPlaced candidates ending.members)
      (frontPositions candidates ending.members).zipIdx others := by
  unfold alternatives at areOthers
  rw [isLayering] at areOthers
  refine of_alternativesAt_eq_ok (fun position isKept => ?_) areOthers
  exact exists_member_of_mem_first (mem_first_of_mem_frontPositions isKept)

section Telling

variable
  (arePlaced :
    List.Forall₂ (IsPlaced candidates members) (frontPositions candidates members).zipIdx others)

include arePlaced

theorem exists_first_of_mem_alternatives
    {other : Alternative α}
    (inOthers : other ∈ others) :
    ∃ position ∈ (layeringOf candidates members).first, ∃ member,
      members[position]? = some member ∧ TellsOf candidates member other := by
  obtain ⟨entry, inEntries, -, -, member, isMember, tellsOf⟩ :=
    exists_left_of_forall₂ arePlaced inOthers
  exact ⟨entry.1, mem_first_of_mem_frontPositions (List.fst_mem_of_mem_zipIdx inEntries), member,
    isMember, tellsOf⟩

/-- The alternatives tell of members that have different vectors. -/
theorem exists_told_of_arePlaced
    [FractionalScalar α] :
    ∃ told : List (Member α),
      (∀ member ∈ told, member ∈ members) ∧
        (told.Pairwise fun one other => (one.vector == other.vector) = false) ∧
        List.Forall₂ (TellsOf candidates) told others := by
  obtain ⟨told, areThere, tellOf⟩ :=
    exists_middle_of_forall₂ (arePlaced.imp fun _ _ isPlaced => isPlaced.2.2)
  have areThere : List.Forall₂ (fun position member => members[position]? = some member)
      (frontPositions candidates members) told :=
    forall₂_of_zipIdx areThere
  exact ⟨told, fun _ => mem_of_areThere areThere,
    pairwise_vector_of_areThere areThere (pairwise_distinctPositions _ _ _), tellOf⟩

/-- Every member of the first front is told by an alternative, or another one that has the same
vector is. -/
theorem exists_alternative_of_mem_first
    [NumericScalar α]
    {position : Nat}
    {member : Member α}
    (isFirst : position ∈ (layeringOf candidates members).first)
    (isMember : members[position]? = some member) :
    ∃ other ∈ others, ∃ one ∈ members,
      TellsOf candidates one other ∧ AreSame member.vector one.vector := by
  have inOrder := (Layering.byIsolation_perm (layeringOf candidates members) _).mem_iff.mpr isFirst
  obtain isSeen | ⟨kept, isKept, keeps⟩ :=
    exists_kept_of_mem (members.map (·.vector)) [] (List.pairwise_of_forall fun _ _ => trivial)
      inOrder
  · cases isSeen
  · obtain ⟨index, isIndex⟩ := List.mem_iff_getElem?.mp isKept
    have inEntries : (kept, index) ∈ (frontPositions candidates members).zipIdx :=
      List.mem_zipIdx_iff_getElem?.mpr isIndex
    obtain ⟨other, inOthers, -, -, one, isOne, tellsOf⟩ :=
      exists_right_of_forall₂ arePlaced inEntries
    have areSame : AreSame ((members.map (·.vector)).getD position [])
        ((members.map (·.vector)).getD kept []) := by
      rcases keeps with rfl | ⟨-, isEqual⟩
      · exact areSame_self _
      · exact areSame_of_beq isEqual
    rw [getD_map_vector isMember, getD_map_vector isOne] at areSame
    exact ⟨other, inOthers, one, List.mem_of_getElem? isOne, tellsOf, areSame⟩

/-- Without crowding distances that are NaN the alternatives come in their order. -/
theorem pairwise_crowdingDistance
    [NumericScalar α]
    (areNumbers :
      ∀ position ∈ (layeringOf candidates members).first,
        Scalar.isNaN ((layeringOf candidates members).crowdingAt position) = false) :
    others.Pairwise fun earlier later => later.crowdingDistance ≤ earlier.crowdingDistance := by
  have ordered : (frontPositions candidates members).Pairwise fun earlier later =>
      (layeringOf candidates members).crowdingAt later ≤
        (layeringOf candidates members).crowdingAt earlier := by
    have notAbove := (Layering.pairwise_byIsolation areNumbers).sublist
      (sublist_distinctPositions (members.map (·.vector)) [] _)
    refine notAbove.imp_of_mem fun {earlier later} isEarlier isLater notBelow => ?_
    exact NumericScalar.le_of_not_lt _ _ (areNumbers later (mem_first_of_mem_frontPositions isLater))
      (areNumbers earlier (mem_first_of_mem_frontPositions isEarlier)) notBelow
  rw [← List.zipIdx_map_fst 0 (frontPositions candidates members), List.pairwise_map] at ordered
  refine pairwise_of_forall₂ arePlaced ?_ ordered
  rintro first second one other ⟨-, isDistance, -⟩ ⟨-, isDistanceToo, -⟩ atMost
  rw [isDistance, isDistanceToo]
  exact atMost

/-- The alternatives are the front of the generation. -/
theorem isFront_of_arePlaced
    [CongruentScalar α] :
    IsFront candidates members others := by
  have isUndominated :
      ∀ member ∈ members, ∀ other ∈ others,
        ¬ (candidates.standing member.evaluation).dominates
          (other.standing candidates.problem.objectives) = true := by
    intro member inMembers other inOthers
    obtain ⟨position, isFirst, one, isOne, tellsOf⟩ :=
      exists_first_of_mem_alternatives arePlaced inOthers
    rw [tellsOf.standing_eq]
    exact not_dominates_of_mem_first isFirst isOne inMembers
  refine ⟨exists_told_of_arePlaced arePlaced, isUndominated, ?_, ?_,
    pairwise_crowdingDistance arePlaced, ?_⟩
  · intro one inOthers other inOthersToo
    obtain ⟨position, -, member, isMember, tellsOf⟩ :=
      exists_first_of_mem_alternatives arePlaced inOthers
    rw [tellsOf.standing_eq]
    exact isUndominated member (List.mem_of_getElem? isMember) other inOthersToo
  · exact rank_eq_of_forall₂_zipIdx (arePlaced.imp fun _ _ isPlaced => isPlaced.1)
  · intro position member isMember isRank
    obtain ⟨other, inOthers, one, -, tellsOf, areSame⟩ := exists_alternative_of_mem_first arePlaced
      (Layering.mem_first_of_ranks_eq_zero (hasDimension_standingsOf candidates members) isRank)
      isMember
    obtain ⟨values, areValues, areRelated⟩ :=
      Candidates.exists_decode_eq_ok_of_areSame areSame.symm tellsOf.areValues
    exact ⟨other, inOthers, values, areValues, areRelated⟩

end Telling

/-- Where every variable has a name of its own, no two alternatives give equal values. -/
theorem IsFront.pairwise_variableValues
    [CountingScalar α]
    (isFront : IsFront candidates members others)
    (distinct : candidates.names.Nodup)
    (faultless : ∀ decision ∈ candidates.problem.decisions, decision.fault? = none)
    (areCodes : ∀ member ∈ members, candidates.AreCodes member.vector) :
    others.Pairwise fun one other => (one.variableValues == other.variableValues) = false := by
  obtain ⟨told, areMembers, areDistinct, tellOf⟩ := isFront.areMembers
  have tellOf := (List.forall₂_and_left _ _).mpr ⟨areMembers, tellOf⟩
  refine pairwise_of_forall₂ tellOf ?_ areDistinct
  rintro member another one other ⟨inMembers, tellsOf⟩ ⟨inMembersToo, tellsOfToo⟩ isDistinct
  by_contra areEqual
  have isEqual := Candidates.beq_of_decode_eq_ok distinct faultless (areCodes member inMembers)
    (areCodes another inMembersToo) tellsOf.areValues tellsOfToo.areValues
    (Bool.not_eq_false _ |>.mp areEqual)
  exact Bool.false_ne_true (isDistinct.symm.trans isEqual)

/-- The member that stands for the front is one of the front. -/
theorem exists_first_of_primary?_eq_some
    [Elementary α]
    {primary : Member α}
    (isLayering : ending.layering = layeringOf candidates ending.members)
    (someFirst : (layeringOf candidates ending.members).first ≠ [])
    (isPrimary : primary? candidates ending = some primary) :
    ∃ position ∈ (layeringOf candidates ending.members).first,
      ending.members[position]? = some primary := by
  unfold primary? at isPrimary
  rw [isLayering] at isPrimary
  refine ⟨_, ?_, isPrimary⟩
  refine getD_mem_of_lt ?_ 0
  refine (Scalar.positionOfSmallest_lt ?_).trans_eq ?_
  · simpa using someFirst
  · simp

section Solving

variable {γ : Type} [SeededSource γ α]

/-- A solve gives back the alternatives at the end of its run. -/
theorem alternatives_eq_of_solve_eq_ok
    [Elementary α]
    {problem : Problem α}
    {parameters : GeneticParameters α}
    {watch : Watch α}
    {population : List (List α)}
    {source remaining : γ}
    {outcome : Solution α}
    (isSetUp : IsSetUp problem parameters candidates source population remaining members)
    (started : watch.lookAtFlag.1 = false)
    (evolved :
      evolve candidates parameters parameters.maxIterations members
          (.start watch.lookAtFlag.2) remaining = .ok ending)
    (areOthers : alternatives candidates ending = .ok others)
    (solved : solve γ problem parameters watch = .ok outcome) :
    outcome.alternatives = others := by
  obtain ⟨same, _, _, _, _, _, _, _, isSetUpToo, evolvedToo, -, areOthersToo, -⟩ :=
    exists_shows_of_solve_eq_ok started solved
  obtain rfl : same = candidates := Except.ok.inj (isSetUpToo.prepared.symm.trans isSetUp.prepared)
  cases isSetUpToo.seeded.symm.trans isSetUp.seeded
  cases isSetUpToo.populated.symm.trans isSetUp.populated
  cases isSetUpToo.evaluated.symm.trans isSetUp.evaluated
  cases evolvedToo.symm.trans evolved
  exact Except.ok.inj (areOthersToo.symm.trans areOthers)

variable (γ) in
/--
A solve that returns, and was not cancelled before it began, gives back the front of the last
generation of its run.  Where the variables are sound and have names of their own, no two
alternatives give equal values.  What the solution itself gives counts as the same as what an
alternative gives, also the values of the objectives where no closure tells the signs of zero
apart.
-/
theorem solve_returns_front
    [Elementary α]
    [CountingScalar α]
    [CongruentScalar α]
    [LawfulSource γ α]
    (problem : Problem α)
    (parameters : GeneticParameters α)
    (watch : Watch α)
    (outcome : Solution α)
    (started : watch.lookAtFlag.1 = false)
    (solved : solve γ problem parameters watch = .ok outcome) :
    ∃ candidates population members last, ∃ source remaining : γ,
      IsSetUp problem parameters candidates source population remaining members ∧
        (course candidates parameters watch members remaining).getLast? = some last ∧
        (∀ member ∈ last, memberOf candidates parameters member.vector = .ok member) ∧
        IsFront candidates last outcome.alternatives ∧
        ((∀ decision ∈ problem.decisions, decision.fault? = none) →
          problem.variableNames.Nodup →
            outcome.alternatives.Pairwise fun one other =>
              (one.variableValues == other.variableValues) = false) ∧
        ∃ other ∈ outcome.alternatives,
          other.variableValues.Related Datum.IsSame outcome.variableValues ∧
            (problem.IsCongruent →
              other.objectiveValues.Related (fun value image => Scalar.same value image = true)
                outcome.objectiveValues) := by
  obtain ⟨candidates, population, members, ending, primary, details, source, remaining, isSetUp,
    evolved, isPrimary, areOthers, isShown⟩ := exists_shows_of_solve_eq_ok started solved
  obtain ⟨⟨points, -, areTold⟩, isLast, isLayering⟩ := closes_of_evolve_eq_ok evolved
  have inCourse := List.mem_of_getLast? isLast
  have areMembers := memberOf_of_mem_course isSetUp.evaluated ending.members inCourse
  have arePlaced := arePlaced_of_alternatives_eq_ok isLayering areOthers
  have isFront := isFront_of_arePlaced arePlaced
  refine ⟨candidates, population, members, ending.members, source, remaining, isSetUp, isLast,
    areMembers, isFront, ?_, ?_⟩
  · intro faultless distinct
    have areTold := areTold_of_mem_course faultless isSetUp ending.members inCourse
    have areTightened := Candidates.isTightened_intervalOf distinct faultless isSetUp.prepared
    obtain rfl := isSetUp.problem_eq
    exact isFront.pairwise_variableValues distinct faultless
      fun member inMembers => (areTold member inMembers).2 areTightened
  · -- What is told of the last generation tells of a member of its first front.
    obtain ⟨point, -, leader, isLeader, -⟩ := exists_right_of_forall₂ areTold inCourse
    have someFirst : (layeringOf candidates ending.members).first ≠ [] := by
      intro noFirst
      simp [noFirst, leader?] at isLeader
    obtain ⟨position, isFirst, isThere⟩ :=
      exists_first_of_primary?_eq_some isLayering someFirst isPrimary
    obtain ⟨other, inOthers, one, inMembers, tellsOf, areSame⟩ :=
      exists_alternative_of_mem_first arePlaced isFirst isThere
    refine ⟨other, inOthers, ?_, fun isCongruent => ?_⟩
    · obtain ⟨values, areValues, areRelated⟩ :=
        Candidates.exists_decode_eq_ok_of_areSame areSame.symm tellsOf.areValues
      obtain rfl := Except.ok.inj (areValues.symm.trans isShown.areValues)
      exact areRelated
    · rw [tellsOf.areObjectives, isShown.areObjectives]
      exact Candidates.related_objectiveValues (isSetUp.problem_eq ▸ isCongruent) areSame.symm
        (evaluate_of_memberOf_eq_ok (areMembers one inMembers))
        (evaluate_of_memberOf_eq_ok (areMembers primary (List.mem_of_getElem? isThere)))

end Solving

section Stretched

theorem stretchedCandidates_evolves :
    ∃ members ending primary others,
      IsSetUp stretchedProblem fourMembers stretchedCandidates (⟨6⟩ : MixingGenerator)
          [[.finite 0], [.finite 9], [.finite 7], [.finite 4]] ⟨4354685564936845360⟩ members ∧
        evolve stretchedCandidates fourMembers 2 members
            (.start Genetic.idleWatch.lookAtFlag.2)
            (⟨4354685564936845360⟩ : MixingGenerator) = .ok ending ∧
        primary? stretchedCandidates ending = some primary ∧
        alternatives stretchedCandidates ending = .ok others ∧
        (others.map fun other => (other.rank, other.objectiveValues.entries)) =
          [(1, [("low", 0), ("high", 0)]), (2, [("low", .finite 9), ("high", .finite 9)])] ∧
        primary.vector = [.finite 0] := by
  have evolves :
      (do
        let members ← membersOf stretchedCandidates fourMembers
          [[.finite 0], [.finite 9], [.finite 7], [.finite 4]]
        let ending : Ending Extended ← evolve stretchedCandidates fourMembers 2 members
          (.start Genetic.idleWatch.lookAtFlag.2) (⟨4354685564936845360⟩ : MixingGenerator)
        let others ← alternatives stretchedCandidates ending
        return (others.map fun other => (other.rank, other.objectiveValues.entries),
          (primary? stretchedCandidates ending).map fun primary => primary.vector)) =
        (.ok ([(1, [("low", 0), ("high", 0)]), (2, [("low", .finite 9), ("high", .finite 9)])],
          some [.finite 0]) :
          Except Breakdown (List (Int × List (String × Extended)) × Option (List Extended))) := by
    cbv
  obtain ⟨members, areMembers, evolves⟩ := bind_eq_ok evolves
  obtain ⟨ending, evolved, evolves⟩ := bind_eq_ok evolves
  obtain ⟨others, areOthers, evolves⟩ := bind_eq_ok evolves
  obtain ⟨areTold, isVector⟩ := Prod.mk.inj (Except.ok.inj evolves)
  obtain ⟨primary, isPrimary, isVector⟩ := Option.map_eq_some_iff.mp isVector
  exact ⟨members, ending, primary, others, ⟨⟨by cbv, rfl, by cbv⟩, areMembers⟩, evolved,
    isPrimary, areOthers, areTold, isVector⟩

/-- Four members with two vectors leave two alternatives. -/
theorem stretchedProblem_returns_front :
    Genetic.idleWatch.lookAtFlag.1 = false ∧
      ∃ outcome,
        solve MixingGenerator stretchedProblem fourMembers Genetic.idleWatch = .ok outcome ∧
          (outcome.alternatives.map fun other => (other.rank, other.objectiveValues.entries)) =
            [(1, [("low", 0), ("high", 0)]), (2, [("low", .finite 9), ("high", .finite 9)])] ∧
          (outcome.alternatives.Pairwise fun one other =>
            (one.variableValues == other.variableValues) = false) ∧
          ∃ candidates members last, ∃ remaining : MixingGenerator,
            (course candidates fourMembers Genetic.idleWatch members remaining).getLast? =
                some last ∧
              IsFront candidates last outcome.alternatives := by
  obtain ⟨members, ending, primary, others, isSetUp, evolved, isPrimary, areOthers, areTold,
    isVector⟩ := stretchedCandidates_evolves
  obtain ⟨outcome, solved, -⟩ :
      ∃ outcome,
        solve MixingGenerator stretchedProblem fourMembers Genetic.idleWatch = .ok outcome ∧
          outcome.account.history = ending.trace.history.reverse := by
    refine exists_solve_eq_ok isSetUp rfl evolved isPrimary areOthers ?_ ?_ ?_
    all_goals rw [isVector]
    all_goals exact exists_eq_ok_of_toBool (by cbv)
  obtain ⟨candidates, population, generation, last, source, remaining, -, isLast, -, isFront,
    areDistinct, -⟩ := solve_returns_front MixingGenerator stretchedProblem fourMembers
      Genetic.idleWatch outcome rfl solved
  refine ⟨rfl, outcome, solved, ?_, areDistinct ?_ (by decide), candidates, generation, last,
    remaining, isLast, isFront⟩
  · rw [alternatives_eq_of_solve_eq_ok isSetUp rfl evolved areOthers solved]
    exact areTold
  · intro decision inProblem
    obtain rfl := List.mem_singleton.mp inProblem
    cbv

end Stretched

end Pareto

end Optima
