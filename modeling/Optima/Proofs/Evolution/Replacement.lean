import Optima.Proofs.Evolution.Succession
import Optima.Proofs.Problem.Feasibility

namespace Optima

/-!
# Elitist replacement

A member of a generation is in the next one too, or it dominates none of those who are.
So somebody in the next generation violates the constraints no more than that member does,
and this is handed on from generation to generation: what is feasible once has feasible
successors for ever, and the least violation never rises.
-/

namespace Evolution

variable {α γ : Type} [Scalar α] [RandomSource γ α] {candidates : Candidates α}
  {parameters : GeneticParameters α}

@[simp] theorem length_offspring
    (generation : Nat)
    (population : List (List α))
    (scores : List α)
    (count : Nat)
    (source : γ) :
    (offspring candidates parameters generation population scores count source).1.length =
      count := by
  have twice {β : Type} (pairs : List (β × β)) :
      (pairs.flatMap fun pair => [pair.1, pair.2]).length = 2 * pairs.length := by
    induction pairs with
    | nil => rfl
    | cons pair rest inductionHypothesis =>
        rw [List.flatMap_cons, List.length_append, inductionHypothesis, List.length_cons]
        simp only [List.length_cons, List.length_nil]
        omega
  unfold offspring
  dsimp only
  rw [List.length_take, twice, RandomSource.length_repeated]
  omega

/-- There are as many members as children were asked for. -/
theorem length_of_membersOf_offspring_eq_ok
    {generation count : Nat}
    {population : List (List α)}
    {scores : List α}
    {source : γ}
    {children : List (Member α)}
    (areChildren :
      membersOf candidates parameters
        (offspring candidates parameters generation population scores count source).1 =
          .ok children) :
    children.length = count := by
  rw [← length_offspring generation population scores count source,
    ← map_vector_of_membersOf_eq_ok areChildren, List.length_map]

theorem evaluate_of_memberOf_eq_ok
    {vector : List α}
    {member : Member α}
    (isMember : memberOf candidates parameters vector = .ok member) :
    candidates.evaluate vector = .ok member.evaluation := by
  obtain ⟨evaluation, isEvaluation, isMember⟩ := bind_eq_ok isMember
  cases isMember
  exact isEvaluation

end Evolution

namespace Pareto

open Evolution

variable {α : Type} [Scalar α] {candidates : Candidates α} {parameters : GeneticParameters α}
  {members next pool : List (Member α)} {size : Nat}

/-- The items at some positions of a list, all of which it has. -/
theorem length_filterMap_getElem?
    {β : Type}
    {items : List β}
    {positions : List Nat}
    (inRange : ∀ position ∈ positions, position < items.length) :
    (positions.filterMap fun position => items[position]?).length = positions.length := by
  induction positions with
  | nil => rfl
  | cons position rest inductionHypothesis =>
      have isItem := List.getElem?_eq_getElem (inRange position List.mem_cons_self)
      rw [List.filterMap_cons_some isItem, List.length_cons, List.length_cons,
        inductionHypothesis fun other member => inRange other (List.mem_cons_of_mem _ member)]

theorem hasDimension_standingsOf
    (candidates : Candidates α)
    (members : List (Member α)) :
    Standing.HasDimension candidates.problem.objectives.length
      (standingsOf candidates members) := by
  intro standing isStanding
  obtain ⟨member, -, rfl⟩ := List.mem_map.mp isStanding
  exact List.length_map _

theorem dominatesAt_standingsOf_iff
    {first second : Nat} :
    Fronts.dominatesAt (standingsOf candidates members) first second = true ↔
      ∃ one other,
        members[first]? = some one ∧ members[second]? = some other ∧
          (candidates.standing one.evaluation).dominates
            (candidates.standing other.evaluation) = true := by
  rw [Fronts.dominatesAt_iff]
  simp only [standingsOf, List.getElem?_map, Option.map_eq_some_iff]
  constructor
  · rintro ⟨_, _, ⟨one, isOne, rfl⟩, ⟨other, isOther, rfl⟩, dominates⟩
    exact ⟨one, other, isOne, isOther, dominates⟩
  · rintro ⟨one, other, isOne, isOther, dominates⟩
    exact ⟨_, _, ⟨one, isOne, rfl⟩, ⟨other, isOther, rfl⟩, dominates⟩

/-- What a generation is that replaces another: an elite of its members and of as many children. -/
def Replaces (candidates : Candidates α) (size : Nat) (members next : List (Member α)) : Prop :=
  ∃ children survivors,
    children.length = size ∧
      AreElite (standingsOf candidates (members ++ children)) size survivors ∧
      next = survivors.filterMap fun position => (members ++ children)[position]?

/-- Whoever survives was in the pool. -/
theorem mem_of_mem_replacement
    {member : Member α}
    (survives : member ∈ replacement candidates size pool) :
    member ∈ pool := by
  obtain ⟨position, -, isMember⟩ := List.mem_filterMap.mp survives
  exact List.mem_of_getElem? isMember

section Replacing

variable [NumericScalar α]

theorem areElite_replacement
    (candidates : Candidates α)
    (enough : size ≤ pool.length) :
    AreElite (standingsOf candidates pool) size
      ((Layering.ofStandings (standingsOf candidates pool)).survivors size) := by
  refine Layering.areElite_survivors (hasDimension_standingsOf candidates pool) ?_
  rw [standingsOf, List.length_map]
  exact enough

theorem replaces_of_succeeds
    {γ : Type}
    [RandomSource γ α]
    (succeeds : Succeeds γ candidates parameters members next) :
    Replaces candidates parameters.populationSize members next := by
  obtain ⟨generation, added, source, areAdded, rfl⟩ := succeeds
  have sameLength := length_of_membersOf_offspring_eq_ok areAdded
  refine ⟨added, _, sameLength, areElite_replacement candidates ?_, rfl⟩
  rw [List.length_append]
  omega

end Replacing

section Elite

variable {survivors : List Nat}

theorem length_eq_of_areElite
    (areElite : AreElite (standingsOf candidates pool) size survivors) :
    (survivors.filterMap fun position => pool[position]?).length = size := by
  rw [length_filterMap_getElem?, areElite.length_eq]
  intro position survives
  simpa [standingsOf] using areElite.inRange position survives

/-- Some survivor is a given member of the pool, or is not dominated by it. -/
theorem exists_survivor
    (areElite : AreElite (standingsOf candidates pool) size survivors)
    (somePlace : 0 < size)
    {member : Member α}
    (inPool : member ∈ pool) :
    ∃ survivor ∈ survivors.filterMap fun position => pool[position]?,
      survivor = member ∨
        ¬ (candidates.standing member.evaluation).dominates
          (candidates.standing survivor.evaluation) = true := by
  obtain ⟨position, isMember⟩ := List.mem_iff_getElem?.mp inPool
  by_cases survives : position ∈ survivors
  · exact ⟨member, List.mem_filterMap.mpr ⟨position, survives, isMember⟩, .inl rfl⟩
  · obtain ⟨other, others, areSurvivors⟩ :
        ∃ other others, survivors = other :: others := by
      refine List.exists_cons_of_ne_nil fun noSurvivor => ?_
      rw [← areElite.length_eq, noSurvivor] at somePlace
      exact Nat.lt_irrefl 0 somePlace
    have otherSurvives : other ∈ survivors := by
      simp [areSurvivors]
    have inRange : other < pool.length := by
      simpa [standingsOf] using areElite.inRange other otherSurvives
    have isOther := List.getElem?_eq_getElem inRange
    -- Any survivor will do, for none of them is dominated by a member that is discarded.
    refine ⟨pool[other], List.mem_filterMap.mpr ⟨other, otherSurvives, isOther⟩, .inr ?_⟩
    intro dominates
    exact areElite.isUndominated position survives other otherSurvives
      (dominatesAt_standingsOf_iff.mpr ⟨member, _, isMember, isOther, dominates⟩)

theorem length_of_succeeds
    [NumericScalar α]
    {γ : Type}
    [RandomSource γ α]
    (succeeds : Succeeds γ candidates parameters members next) :
    next.length = parameters.populationSize := by
  obtain ⟨children, survivors, -, areElite, rfl⟩ := replaces_of_succeeds succeeds
  exact length_eq_of_areElite areElite

/-- Every generation of a run consists of vectors and what they are worth. -/
theorem memberOf_of_mem_course
    {γ : Type}
    [RandomSource γ α]
    {population : List (List α)}
    (areMembers : membersOf candidates parameters population = .ok members)
    {remaining : Nat}
    {trace : Trace α}
    {source : γ} :
    ∀ generation ∈ generations candidates parameters remaining members trace source,
      ∀ member ∈ generation, memberOf candidates parameters member.vector = .ok member := by
  refine of_mem_generations ?_ ?_
  · exact fun member inMembers => (memberOf_of_mem areMembers inMembers).2
  · intro earlier later succeeds areEarlier member inLater
    obtain ⟨number, added, current, areAdded, rfl⟩ := succeeds
    rcases List.mem_append.mp (mem_of_mem_replacement inLater) with inEarlier | isAdded
    · exact areEarlier member inEarlier
    · exact (memberOf_of_mem areAdded isAdded).2

end Elite

/-- No member of a generation violates a negative amount. -/
def AreMeasured (members : List (Member α)) : Prop :=
  ∀ member ∈ members, 0 ≤ member.evaluation.violation

/-- For each member of a generation a later one has a member that violates no more. -/
def KeepsLow (earlier later : List (Member α)) : Prop :=
  ∀ member ∈ earlier, ∃ other ∈ later, other.evaluation.violation ≤ member.evaluation.violation

section Measuring

variable [MeasuringScalar α]

theorem KeepsLow.trans
    {first second third : List (Member α)}
    (early : KeepsLow first second)
    (late : KeepsLow second third) :
    KeepsLow first third := by
  intro member inFirst
  obtain ⟨other, inSecond, atMost⟩ := early member inFirst
  obtain ⟨another, inThird, atMostToo⟩ := late other inSecond
  exact ⟨another, inThird, ComparableScalar.le_trans _ _ _ atMostToo atMost⟩

/-- Where a generation has a feasible member, one that keeps its violations low has one. -/
theorem KeepsLow.exists_isFeasible
    {earlier later : List (Member α)}
    (keepsLow : KeepsLow earlier later)
    (areMeasured : AreMeasured later)
    (someFeasible : ∃ member ∈ earlier, member.evaluation.isFeasible = true) :
    ∃ member ∈ later, member.evaluation.isFeasible = true := by
  obtain ⟨member, inEarlier, isFeasible⟩ := someFeasible
  obtain ⟨other, inLater, atMost⟩ := keepsLow member inEarlier
  obtain ⟨isZero, -⟩ := (NumericScalar.beq_iff_le member.evaluation.violation 0).mp isFeasible
  refine ⟨other, inLater, (NumericScalar.beq_iff_le _ _).mpr ⟨?_, areMeasured other inLater⟩⟩
  exact ComparableScalar.le_trans _ _ _ atMost isZero

theorem areMeasured_of_membersOf_eq_ok
    {population : List (List α)}
    (areMembers : membersOf candidates parameters population = .ok members) :
    AreMeasured members := by
  intro member inMembers
  obtain ⟨-, isMember⟩ := memberOf_of_mem areMembers inMembers
  exact Candidates.violation_nonneg (evaluate_of_memberOf_eq_ok isMember)

variable {γ : Type} [RandomSource γ α]

theorem areMeasured_of_succeeds
    (succeeds : Succeeds γ candidates parameters members next)
    (areMeasured : AreMeasured members) :
    AreMeasured next := by
  obtain ⟨generation, added, source, areAdded, rfl⟩ := succeeds
  intro member inNext
  rcases List.mem_append.mp (mem_of_mem_replacement inNext) with inMembers | isAdded
  · exact areMeasured member inMembers
  · exact areMeasured_of_membersOf_eq_ok areAdded member isAdded

/-- A generation that is made of another keeps its violations low. -/
theorem keepsLow_of_succeeds
    (succeeds : Succeeds γ candidates parameters members next)
    (areMeasured : AreMeasured members)
    (sameSize : members.length = parameters.populationSize) :
    KeepsLow members next := by
  intro member inMembers
  have areMeasuredNext := areMeasured_of_succeeds succeeds areMeasured
  obtain ⟨children, survivors, -, areElite, rfl⟩ := replaces_of_succeeds succeeds
  have somePlace : 0 < parameters.populationSize :=
    sameSize ▸ List.length_pos_of_mem inMembers
  obtain ⟨survivor, survives, rfl | notDominated⟩ :=
    exists_survivor areElite somePlace (List.mem_append_left children inMembers)
  · exact ⟨survivor, survives,
      NumericScalar.le_self (NumericScalar.isNaN_right (areMeasured survivor inMembers))⟩
  · exact ⟨survivor, survives, Standing.violation_le_of_not_dominates
      (areMeasured member inMembers) (areMeasuredNext survivor survives) notDominated⟩

end Measuring

section Telling

variable {point next : ConvergencePoint α}

theorem exists_member_of_mem_first
    [ComparableScalar α]
    {position : Nat}
    (isFirst : position ∈ (layeringOf candidates members).first) :
    ∃ member, members[position]? = some member := by
  have inRange :=
    Layering.lt_length_of_mem_first (hasDimension_standingsOf candidates members) isFirst
  rw [standingsOf, List.length_map] at inRange
  exact ⟨_, List.getElem?_eq_getElem inRange⟩

/-- The members of the first front are dominated by no member of their generation. -/
theorem not_dominates_of_mem_first
    [ComparableScalar α]
    {position : Nat}
    {member other : Member α}
    (isFirst : position ∈ (layeringOf candidates members).first)
    (isMember : members[position]? = some member)
    (inMembers : other ∈ members) :
    ¬ (candidates.standing other.evaluation).dominates
      (candidates.standing member.evaluation) = true := by
  intro dominates
  have isSorting := (Fronts.areLayers_sort (hasDimension_standingsOf candidates members)).isSorting
  obtain ⟨otherPosition, isOther⟩ := List.mem_iff_getElem?.mp inMembers
  have isFirst : position ∈ (Fronts.sort (standingsOf candidates members)).headD [] := isFirst
  cases areFronts : Fronts.sort (standingsOf candidates members) with
  | nil =>
      simp [areFronts] at isFirst
  | cons front rest =>
      rw [areFronts] at isFirst
      obtain ⟨-, -, isUndominated⟩ :=
        (isSorting.mem_iff [] front rest areFronts position).mp isFirst
      exact isUndominated otherPosition (by simp)
        (dominatesAt_standingsOf_iff.mpr ⟨other, member, isOther, isMember, dominates⟩)

/-- The least violation at some positions, any of which has a member, is that of a member. -/
theorem exists_leastViolation
    {positions : List Nat}
    (someMember : (positions.filterMap fun position => members[position]?) ≠ []) :
    ∃ position ∈ positions, ∃ member,
      members[position]? = some member ∧
        leastViolation members positions = member.evaluation.violation := by
  obtain ⟨first, rest, areMembers⟩ := List.exists_cons_of_ne_nil someMember
  have isChosen :
      leastViolation members positions ∈ (first :: rest).map (·.evaluation.violation) := by
    rw [leastViolation, areMembers]
    refine foldl_choice_mem Scalar.smaller (fun best other => ?_) _ _
    unfold Scalar.smaller
    split
    · exact .inr rfl
    · exact .inl rfl
  rw [← areMembers] at isChosen
  obtain ⟨member, isMember, isLeast⟩ := List.mem_map.mp isChosen
  obtain ⟨position, isPosition, isItem⟩ := List.mem_filterMap.mp isMember
  exact ⟨position, isPosition, member, isItem, isLeast.symm⟩

/-- What is told of the violations of a generation is the least one of all its members. -/
theorem isLeast_of_tells
    [MeasuringScalar α]
    (areMeasured : AreMeasured members)
    (told : Tells candidates members point) :
    (∃ member ∈ members, point.constraintViolation = member.evaluation.violation) ∧
      ∀ member ∈ members, point.constraintViolation ≤ member.evaluation.violation := by
  obtain ⟨leader, isLeader, -, isViolation⟩ := told
  have someMember :
      ((layeringOf candidates members).first.filterMap fun position => members[position]?) ≠
        [] := by
    intro noMember
    simp [leader?, noMember] at isLeader
  obtain ⟨position, isFirst, least, isLeast, isTold⟩ := exists_leastViolation someMember
  rw [isViolation, isTold]
  have inMembers := List.mem_of_getElem? isLeast
  refine ⟨⟨least, inMembers, rfl⟩, fun member isMember => ?_⟩
  exact Standing.violation_le_of_not_dominates (areMeasured member isMember)
    (areMeasured least inMembers) (not_dominates_of_mem_first isFirst isLeast isMember)

end Telling

end Pareto

end Optima
