import Mathlib
import Optima.Proofs.Evolution.LeastViolation
import Optima.Proofs.Evolution.Survival
import Optima.Proofs.Ranking.Crowding

namespace Optima

/-!
# Isolated and extreme members

Members at the ends of a front are the most isolated ones, and so they survive.
-/

/-!
## The most isolated members

Where the first front does not fit into the next generation, those of its members that are
infinitely isolated are taken first.  There are no more of them than two per objective, and
one of them is the best along the objective.
-/

namespace Layering

variable {α : Type} [Scalar α] [SpacingScalar α] {standings : List (Standing α)}
  {dimension places : Nat}

/-- The vectors of the first front. -/
def firstVectors (standings : List (Standing α)) : List (List α) :=
  (ofStandings standings).first.map fun position =>
    (standings.map (·.objectives)).getD position []

/-- The crowding distances of a first front that has more than two members. -/
theorem areCrowding_first
    (sameDimension : Standing.HasDimension dimension standings)
    (manyMembers : 2 < (ofStandings standings).first.length)
    (haveSpread :
      ∀ index < dimension,
        Crowding.HaveFiniteSpread (Crowding.component (firstVectors standings) index)) :
    ∃ distances,
      Crowding.AreCrowding (firstVectors standings) (List.range dimension) distances ∧
        ∀ (index position : Nat), (ofStandings standings).first[index]? = some position →
          (ofStandings standings).crowdingAt position = distances.getD index 0 := by
  have areLayers := Fronts.areLayers_sort sameDimension
  have inRange :
      ∀ position ∈ (Fronts.sort standings).flatten,
        position < (standings.map (·.objectives)).length := by
    intro position isMember
    rw [List.length_map]
    exact List.mem_range.mp (areLayers.flatten_perm_range.mem_iff.mp isMember)
  have isFront := first_mem_fronts (List.ne_nil_of_length_pos (Nat.zero_lt_of_lt manyMembers))
  refine ⟨_, Crowding.areCrowding_distances (by simpa [firstVectors] using manyMembers) ?_
    haveSpread, fun index position isMember => ?_⟩
  · intro vector isVector
    obtain ⟨position, isFirst, rfl⟩ := List.mem_map.mp isVector
    have isStanding := inRange position (List.mem_flatten.mpr ⟨_, isFront, isFirst⟩)
    obtain ⟨standing, inStandings, isSame⟩ := List.mem_map.mp (getD_mem_of_lt isStanding [])
    rw [← isSame]
    exact sameDimension standing inStandings
  · exact Crowding.getD_perFront areLayers.nodup_flatten inRange isFront isMember

omit [SpacingScalar α] in
/-- No more than two members per objective of such a front are infinitely isolated. -/
theorem countP_isolated_le
    {distances : List α}
    (areCrowding : Crowding.AreCrowding (firstVectors standings) (List.range dimension) distances)
    (crowdingAt_eq :
      ∀ (index position : Nat), (ofStandings standings).first[index]? = some position →
        (ofStandings standings).crowdingAt position = distances.getD index 0) :
    (ofStandings standings).first.countP (fun position =>
      decide (Scalar.infinity ≤ (ofStandings standings).crowdingAt position)) ≤ 2 * dimension := by
  calc _ = (List.range (ofStandings standings).first.length).countP fun index =>
          decide (Scalar.infinity ≤ distances.getD index 0) :=
        countP_eq_countP_range fun index position isMember => by
          rw [crowdingAt_eq index position isMember]
    _ = (Crowding.isolated (firstVectors standings).length distances).card := by
        rw [firstVectors, List.length_map, List.countP_eq_length_filter,
          ← List.toFinset_card_of_nodup (List.nodup_range.filter _)]
        congr 1
        ext index
        simp [Crowding.isolated]
    _ ≤ 2 * dimension := by
        simpa using areCrowding.card_isolated

/-- Whoever is infinitely isolated is taken, if there are places for all who are. -/
theorem mem_take_byIsolation
    {layering : Layering α}
    {front : List Nat}
    (areDistinct : front.Nodup)
    (areSpaced :
      ∀ position ∈ front,
        Scalar.infinity ≤ layering.crowdingAt position ∨
          (0 ≤ layering.crowdingAt position ∧
            layering.crowdingAt position < Scalar.infinity))
    (notMany :
      front.countP (fun position => decide (Scalar.infinity ≤ layering.crowdingAt position)) ≤
        places)
    {member : Nat}
    (isMember : member ∈ front)
    (isFar : Scalar.infinity ≤ layering.crowdingAt member) :
    member ∈ (layering.byIsolation front).take places := by
  -- Otherwise those that are taken are infinitely isolated too, and there are too many of them.
  by_contra isDiscarded
  have areNumbers :
      ∀ position ∈ front, Scalar.isNaN (layering.crowdingAt position) = false := by
    intro position isMember
    rcases areSpaced position isMember with isInfinite | ⟨isPositive, -⟩
    · exact NumericScalar.isNaN_right isInfinite
    · exact NumericScalar.isNaN_right isPositive
  have isPerm := byIsolation_perm layering front
  have allFar :
      ∀ position ∈ (layering.byIsolation front).take places,
        position ∈ front ∧ Scalar.infinity ≤ layering.crowdingAt position := by
    intro position isTaken
    have inFront := isPerm.mem_iff.mp (List.mem_of_mem_take isTaken)
    have notCloser := not_lt_of_mem_take areNumbers isTaken isMember isDiscarded
    refine ⟨inFront, (areSpaced position inFront).resolve_right fun isSpaced => notCloser ?_⟩
    exact ComparableScalar.lt_of_lt_of_le isSpaced.2 isFar
  have takenDistinct : (member :: (layering.byIsolation front).take places).Nodup :=
    List.nodup_cons.mpr ⟨isDiscarded,
      (isPerm.nodup_iff.mpr areDistinct).sublist (List.take_sublist _ _)⟩
  have tooMany :=
    (takenDistinct.subperm fun position isThere =>
      List.mem_filter.mpr ((List.mem_cons.mp isThere).elim
        (fun isSame => isSame ▸ ⟨isMember, decide_eq_true isFar⟩)
        (fun isTaken => (allFar position isTaken).imp_right decide_eq_true))).length_le
  rw [← List.countP_eq_length_filter, List.length_cons, List.length_take, isPerm.length_eq]
    at tooMany
  have atMostAll := front.countP_le_length
    (p := fun position => decide (Scalar.infinity ≤ layering.crowdingAt position))
  omega

/-- If there are two places per objective, one of the best along each objective is among the most
isolated members of a first front that does not fit. -/
theorem exists_best_survivor
    (sameDimension : Standing.HasDimension dimension standings)
    (doesNotFit : places < (ofStandings standings).first.length)
    (enough : 2 * dimension ≤ places)
    (haveSpread :
      ∀ index < dimension,
        Crowding.HaveFiniteSpread (Crowding.component (firstVectors standings) index))
    {index : Nat}
    (isIndex : index < dimension) :
    ∃ best ∈ (ofStandings standings).first,
      best ∈ (ofStandings standings).survivors places ∧
        ∀ position ∈ (ofStandings standings).first,
          ((standings.map (·.objectives)).getD best []).getD index 0 ≤
            ((standings.map (·.objectives)).getD position []).getD index 0 := by
  obtain ⟨distances, areCrowding, crowdingAt_eq⟩ :=
    areCrowding_first sameDimension (by omega) haveSpread
  have sameLength : (firstVectors standings).length = (ofStandings standings).first.length :=
    List.length_map _
  have vectorAt {index position : Nat}
      (isMember : (ofStandings standings).first[index]? = some position) :
      (firstVectors standings).getD index [] =
        (standings.map (·.objectives)).getD position [] := by
    rw [firstVectors, List.getD_eq_getElem?_getD, List.getElem?_map, isMember]
    rfl
  obtain ⟨bestIndex, inFront, isFar, isBest⟩ :=
    areCrowding.exists_best index (List.mem_range.mpr isIndex)
  rw [sameLength] at inFront isBest
  have isMember := List.getElem?_eq_getElem inFront
  have isFirst := List.mem_of_getElem? isMember
  refine ⟨_, isFirst, ?_, fun position isFirstToo => ?_⟩
  · rw [survivors_eq_take doesNotFit]
    refine mem_take_byIsolation (nodup_first sameDimension) (fun position isFirst => ?_)
      ((countP_isolated_le areCrowding crowdingAt_eq).trans enough) isFirst
      (by rwa [crowdingAt_eq bestIndex _ isMember])
    obtain ⟨other, isOther⟩ := List.mem_iff_getElem?.mp isFirst
    rw [crowdingAt_eq other position isOther]
    exact areCrowding.areSpaced other
  · obtain ⟨other, isOther⟩ := List.mem_iff_getElem?.mp isFirstToo
    rw [← vectorAt isMember, ← vectorAt isOther]
    exact isBest other (List.getElem?_eq_some_iff.mp isOther).1

end Layering

/-!
## Extreme points

Along each objective, the best feasible member of a pool is in the first front or has its
match there, and one of the best in the first front survives.  So a generation keeps the
best values of its feasible members, as long as the values of the objectives are finitely
far from each other.
-/

/-- Numbers that are turned around by a sense of one or minus one. -/
class OrientedScalar (α : Type) [Scalar α] : Prop extends SpacingScalar α where
  neg_neg_one_mul (value : α) : -(-1) * value = value
  neg_one_mul (value : α) : -1 * value = -value
  isFinite_neg_sub_neg (first second : α) :
    Scalar.isFinite (second - first) = true → Scalar.isFinite (-first - -second) = true

section Extended

open Extended

instance : OrientedScalar Extended where
  neg_neg_one_mul value := by
    change mul (neg (neg (finite 1))) value = value
    cases value <;> simp [mul, neg, infinite]
  neg_one_mul value := by
    change mul (neg (finite 1)) value = neg value
    cases value <;> simp [mul, neg, infinite]
  isFinite_neg_sub_neg first second := by
    change Scalar.isFinite (add _ (neg _)) = true →
      Scalar.isFinite (add (neg _) (neg (neg _))) = true
    cases first <;> cases second <;> simp [add, neg, Scalar.isFinite]

end Extended

namespace Objective

variable {α : Type} [Scalar α] {objective : Objective α} {value other : α}

/-- Whether a value of an objective is at least as good as another. -/
def AtLeastAsGood (objective : Objective α) (value other : α) : Prop :=
  match objective.direction with
  | .minimize => value ≤ other
  | .maximize => other ≤ value

variable [OrientedScalar α]

theorem isFinite_turned_sub
    (isFinite : Scalar.isFinite (value - other) = true)
    (isFiniteToo : Scalar.isFinite (other - value) = true) :
    Scalar.isFinite (-objective.sense * value - -objective.sense * other) = true := by
  cases isDirection : objective.direction with
  | minimize =>
      simpa [sense, isDirection, OrientedScalar.neg_neg_one_mul] using isFinite
  | maximize =>
      simpa [sense, isDirection, OrientedScalar.neg_one_mul] using
        OrientedScalar.isFinite_neg_sub_neg _ _ isFiniteToo

/-- A value that is at most another when both are turned to be small is at least as good. -/
theorem atLeastAsGood_of_turned_le
    (isNumber : Scalar.isNaN value = false)
    (isNumberToo : Scalar.isNaN other = false)
    (atMost : -objective.sense * value ≤ -objective.sense * other) :
    objective.AtLeastAsGood value other := by
  unfold AtLeastAsGood
  cases isDirection : objective.direction with
  | minimize =>
      simpa [sense, isDirection, OrientedScalar.neg_neg_one_mul] using atMost
  | maximize =>
      simp only [sense, isDirection, OrientedScalar.neg_one_mul] at atMost
      refine NumericScalar.le_of_not_lt _ _ isNumberToo isNumber fun isBelow => ?_
      exact ComparableScalar.not_le_of_lt ((NumericScalar.neg_lt_neg_iff _ _).mpr isBelow) atMost

end Objective

namespace Pareto

open Evolution

variable {α : Type} [Scalar α] {candidates : Candidates α} {pool earlier : List (Member α)}
  {size : Nat}

/-- The value of an objective for a member. -/
def valueAt (objective : Objective α) (member : Member α) : α :=
  Objectives.valueOf member.evaluation.objectiveValues objective

/-- The values of each objective for feasible members of a pool are finitely far from each other
and from themselves. -/
def HaveFiniteValues (candidates : Candidates α) (pool : List (Member α)) : Prop :=
  ∀ objective ∈ candidates.problem.objectives,
    ∀ one ∈ pool, one.evaluation.isFeasible = true →
      ∀ other ∈ pool, other.evaluation.isFeasible = true →
        Scalar.isFinite (valueAt objective one - valueAt objective other) = true

/-- For each objective a later generation has a feasible member that is at least as good as any
feasible one of an earlier generation. -/
def KeepsExtremes (candidates : Candidates α) (earlier later : List (Member α)) : Prop :=
  ∀ objective ∈ candidates.problem.objectives,
    ∀ member ∈ earlier, member.evaluation.isFeasible = true →
      ∃ other ∈ later, other.evaluation.isFeasible = true ∧
        objective.AtLeastAsGood (valueAt objective other) (valueAt objective member)

theorem getD_objectives_standingsOf
    {position : Nat}
    {member : Member α}
    (isMember : pool[position]? = some member)
    {index : Nat}
    {objective : Objective α}
    (isObjective : candidates.problem.objectives[index]? = some objective) :
    ((((standingsOf candidates pool).map (·.objectives)).getD position []).getD index 0) =
      -objective.sense * valueAt objective member := by
  simp [standingsOf, Candidates.standing, Candidates.minimizationVector,
    Objectives.minimizationVector, List.getD_eq_getElem?_getD, isMember, isObjective, valueAt]

section Keeping

variable [OrientedScalar α] {index : Nat} {objective : Objective α}

/-- Some member of the first front is at least as good as a given feasible one. -/
theorem exists_first_turned_le
    {member : Member α}
    (inPool : member ∈ pool)
    (isFeasible : member.evaluation.isFeasible = true)
    (isObjective : candidates.problem.objectives[index]? = some objective)
    (isNumber : Scalar.isNaN (-objective.sense * valueAt objective member) = false) :
    ∃ position ∈ (layeringOf candidates pool).first,
      ∃ first,
        pool[position]? = some first ∧
          -objective.sense * valueAt objective first ≤
            -objective.sense * valueAt objective member := by
  obtain ⟨position, isMember⟩ := List.mem_iff_getElem?.mp inPool
  have inRange : position < (standingsOf candidates pool).length := by
    rw [standingsOf, List.length_map]
    exact (List.getElem?_eq_some_iff.mp isMember).1
  obtain ⟨firstPosition, isFirst, isSame | isDominated⟩ :=
    Fronts.exists_mem_first (hasDimension_standingsOf candidates pool) inRange
  · subst isSame
    exact ⟨firstPosition, isFirst, member, isMember, NumericScalar.le_self isNumber⟩
  · obtain ⟨first, again, isThere, isAgain, dominates⟩ :=
      dominatesAt_standingsOf_iff.mp isDominated
    obtain rfl := Option.some.inj (isMember.symm.trans isAgain)
    refine ⟨firstPosition, isFirst, first, isThere, ?_⟩
    have inRange : index < candidates.problem.objectives.length :=
      (List.getElem?_eq_some_iff.mp isObjective).1
    have atMost := Standing.le_of_nowhereAbove
      (Standing.nowhereAbove_of_dominates dominates isFeasible)
      (inRange.trans_eq (List.length_map _).symm) (inRange.trans_eq (List.length_map _).symm)
    simpa [Candidates.standing, Candidates.minimizationVector, Objectives.minimizationVector,
      List.getD_eq_getElem?_getD, isObjective, valueAt] using atMost

/-- Where a pool has a feasible member, all of its first front are feasible. -/
theorem isFeasible_of_mem_first
    (someFeasible : ∃ member ∈ pool, member.evaluation.isFeasible = true)
    {position : Nat}
    {first : Member α}
    (isFirst : position ∈ (layeringOf candidates pool).first)
    (isMember : pool[position]? = some first) :
    first.evaluation.isFeasible = true := by
  obtain ⟨member, inPool, isFeasible⟩ := someFeasible
  have notDominated := not_dominates_of_mem_first isFirst isMember inPool
  by_contra isInfeasible
  have isFeasible : (candidates.standing member.evaluation).isFeasible = true := isFeasible
  have isInfeasible : (candidates.standing first.evaluation).isFeasible = false :=
    Bool.eq_false_iff.mpr isInfeasible
  exact notDominated (by simp [Standing.dominates, isFeasible, isInfeasible])

/-- The turned values of a first front of feasible members are finitely far from each other. -/
theorem haveFiniteSpread_first
    (haveValues : HaveFiniteValues candidates pool)
    (someFeasible : ∃ member ∈ pool, member.evaluation.isFeasible = true)
    (isObjective : candidates.problem.objectives[index]? = some objective) :
    Crowding.HaveFiniteSpread
      (Crowding.component (Layering.firstVectors (standingsOf candidates pool)) index) := by
  have isValue {number : α}
      (isNumber :
        number ∈ Crowding.component (Layering.firstVectors (standingsOf candidates pool)) index) :
      ∃ member ∈ pool, member.evaluation.isFeasible = true ∧
        number = -objective.sense * valueAt objective member := by
    obtain ⟨vector, isVector, rfl⟩ := List.mem_map.mp isNumber
    obtain ⟨position, isFirst, rfl⟩ := List.mem_map.mp isVector
    obtain ⟨member, isMember⟩ := exists_member_of_mem_first isFirst
    exact ⟨member, List.mem_of_getElem? isMember,
      isFeasible_of_mem_first someFeasible isFirst isMember,
      getD_objectives_standingsOf isMember isObjective⟩
  have inObjectives := List.mem_of_getElem? isObjective
  intro number isNumber other isOther
  obtain ⟨one, inPool, isFeasible, rfl⟩ := isValue isNumber
  obtain ⟨another, inPoolToo, isFeasibleToo, rfl⟩ := isValue isOther
  exact Objective.isFinite_turned_sub
    (haveValues objective inObjectives one inPool isFeasible another inPoolToo isFeasibleToo)
    (haveValues objective inObjectives another inPoolToo isFeasibleToo one inPool isFeasible)

/-- Either the first front survives as a whole, or one of its best along the objective does. -/
theorem exists_survivor_turned_le
    (enough : 2 * candidates.problem.objectives.length ≤ size)
    (haveValues : HaveFiniteValues candidates pool)
    (someFeasible : ∃ member ∈ pool, member.evaluation.isFeasible = true)
    (isObjective : candidates.problem.objectives[index]? = some objective)
    {position : Nat}
    {first : Member α}
    (isFirst : position ∈ (layeringOf candidates pool).first)
    (isThere : pool[position]? = some first)
    (isNumber : Scalar.isNaN (-objective.sense * valueAt objective first) = false) :
    ∃ survivorPosition ∈ (layeringOf candidates pool).first,
      survivorPosition ∈ (layeringOf candidates pool).survivors size ∧
        ∃ survivor, pool[survivorPosition]? = some survivor ∧
          -objective.sense * valueAt objective survivor ≤
            -objective.sense * valueAt objective first := by
  by_cases fits : (layeringOf candidates pool).first.length ≤ size
  · exact ⟨position, isFirst, Layering.mem_survivors_of_mem_first fits isFirst, first, isThere,
      NumericScalar.le_self isNumber⟩
  · have haveSpread :
        ∀ index < candidates.problem.objectives.length,
          Crowding.HaveFiniteSpread
            (Crowding.component (Layering.firstVectors (standingsOf candidates pool)) index) :=
      fun index isIndex =>
        haveFiniteSpread_first haveValues someFeasible (List.getElem?_eq_getElem isIndex)
    obtain ⟨best, isFirstToo, survives, isBest⟩ :=
      Layering.exists_best_survivor (hasDimension_standingsOf candidates pool)
        (Nat.lt_of_not_le fits) enough haveSpread (List.getElem?_eq_some_iff.mp isObjective).1
    obtain ⟨survivor, isSurvivor⟩ := exists_member_of_mem_first isFirstToo
    have isLeast := isBest position isFirst
    rw [getD_objectives_standingsOf isSurvivor isObjective,
      getD_objectives_standingsOf isThere isObjective] at isLeast
    exact ⟨best, isFirstToo, survives, survivor, isSurvivor, isLeast⟩

theorem keepsExtremes_replacement
    (enough : 2 * candidates.problem.objectives.length ≤ size)
    (haveValues : HaveFiniteValues candidates pool)
    (arePooled : ∀ member ∈ earlier, member ∈ pool) :
    KeepsExtremes candidates earlier (replacement candidates size pool) := by
  intro objective inObjectives member inEarlier isFeasible
  obtain ⟨index, isObjective⟩ := List.mem_iff_getElem?.mp inObjectives
  have inPool := arePooled member inEarlier
  have someFeasible : ∃ member ∈ pool, member.evaluation.isFeasible = true :=
    ⟨member, inPool, isFeasible⟩
  have isNumber {one : Member α} (inPool : one ∈ pool)
      (isFeasible : one.evaluation.isFeasible = true) :
      Scalar.isNaN (valueAt objective one) = false ∧
        Scalar.isNaN (-objective.sense * valueAt objective one) = false := by
    have isFinite := haveValues objective inObjectives one inPool isFeasible one inPool isFeasible
    exact ⟨SpacingScalar.isNaN_of_isFinite_sub _ _ isFinite,
      SpacingScalar.isNaN_of_isFinite_sub _ _ (Objective.isFinite_turned_sub isFinite isFinite)⟩
  obtain ⟨position, isFirst, first, isThere, atMost⟩ :=
    exists_first_turned_le inPool isFeasible isObjective (isNumber inPool isFeasible).2
  obtain ⟨survivorPosition, isFirstToo, survives, survivor, isSurvivor, isLeast⟩ :=
    exists_survivor_turned_le enough haveValues someFeasible isObjective isFirst isThere
      (isNumber (List.mem_of_getElem? isThere)
        (isFeasible_of_mem_first someFeasible isFirst isThere)).2
  have isFeasibleSurvivor := isFeasible_of_mem_first someFeasible isFirstToo isSurvivor
  refine ⟨survivor, List.mem_filterMap.mpr ⟨survivorPosition, survives, isSurvivor⟩,
    isFeasibleSurvivor, ?_⟩
  exact Objective.atLeastAsGood_of_turned_le
    (isNumber (List.mem_of_getElem? isSurvivor) isFeasibleSurvivor).1
    (isNumber inPool isFeasible).1 (ComparableScalar.le_trans _ _ _ isLeast atMost)

end Keeping

section Running

variable {γ : Type} [SeededSource γ α]

variable (γ) in
/-- Members that are bred from a generation by some draws. -/
def AreChildren (candidates : Candidates α) (parameters : GeneticParameters α)
    (members children : List (Member α)) : Prop :=
  ∃ generation, ∃ source : γ,
    membersOf candidates parameters
        (offspring candidates parameters generation (members.map (·.vector))
          (layeringOf candidates members).selectionScores parameters.populationSize source).1 =
      .ok children

variable (γ) in
/--
With two places per objective, no generation of a run loses the best value that the feasible
members of the one before it have along an objective, as long as the values among these and
their children are finitely far from each other.  The history of a solve that returns tells
of every generation of such a run.
-/
theorem solve_keeps_extremes
    [Elementary α]
    [OrientedScalar α]
    (problem : Problem α)
    (parameters : GeneticParameters α)
    (watch : Watch α)
    (enough : 2 * problem.objectives.length ≤ parameters.populationSize) :
    (∀ candidates population members, ∀ source remaining : γ,
      IsSetUp problem parameters candidates source population remaining members →
        (course candidates parameters watch members remaining).IsChain fun earlier later =>
          ∃ children,
            AreChildren γ candidates parameters earlier children ∧
              later = replacement candidates parameters.populationSize (earlier ++ children) ∧
              (HaveFiniteValues candidates (earlier ++ children) →
                KeepsExtremes candidates earlier later)) ∧
      ∀ outcome, solve γ problem parameters watch = .ok outcome → watch.lookAtFlag.1 = false →
        ∃ candidates population members, ∃ source remaining : γ,
          IsSetUp problem parameters candidates source population remaining members ∧
            List.Forall₂ (Tells candidates) (course candidates parameters watch members remaining)
              outcome.account.history := by
  refine ⟨?_, fun outcome solved started => exists_told_of_solve_eq_ok started solved⟩
  intro candidates population members source remaining isSetUp
  rw [← isSetUp.problem_eq] at enough
  refine (isChain_generations _ members _ remaining).imp ?_
  rintro earlier later ⟨generation, children, source, areChildren, rfl⟩
  refine ⟨children, ⟨generation, source, areChildren⟩, rfl, fun haveValues => ?_⟩
  exact keepsExtremes_replacement enough haveValues fun member => List.mem_append_left children

end Running

section Stretched

/-- A whole number from zero to nine that is to be small and to be large. -/
def stretchedProblem : Problem Extended :=
  { contestedProblem with constraints := [] }

/-- The search space of the number. -/
def stretchedCandidates : Candidates Extended :=
  { contestedCandidates with problem := stretchedProblem }

/-- A run of two generations of four members. -/
def fourMembers : GeneticParameters Extended :=
  { twoMembers with populationSize := 4 }

/-- Both ends of the interval are still there after a replacement. -/
theorem stretchedProblem_keeps_extremes :
    2 * stretchedProblem.objectives.length ≤ fourMembers.populationSize ∧
      ∃ members, ∃ remaining : MixingGenerator,
        IsSetUp stretchedProblem fourMembers stretchedCandidates ⟨6⟩
            [[.finite 0], [.finite 9], [.finite 7], [.finite 4]] remaining members ∧
          (course stretchedCandidates fourMembers Genetic.idleWatch members remaining).map
              (fun generation => generation.map (·.vector)) =
            [[[.finite 0], [.finite 9], [.finite 7], [.finite 4]],
              [[.finite 0], [.finite 9], [.finite 0], [.finite 9]]] ∧
          (course stretchedCandidates fourMembers Genetic.idleWatch members remaining).IsChain
            fun earlier later =>
              ∃ children,
                AreChildren MixingGenerator stretchedCandidates fourMembers earlier children ∧
                  later = replacement stretchedCandidates 4 (earlier ++ children) ∧
                  (HaveFiniteValues stretchedCandidates (earlier ++ children) →
                    KeepsExtremes stretchedCandidates earlier later) := by
  have enough : 2 * stretchedProblem.objectives.length ≤ fourMembers.populationSize := by
    decide
  have evolves :
      (do
        let members ← membersOf stretchedCandidates fourMembers
          [[.finite 0], [.finite 9], [.finite 7], [.finite 4]]
        return (course stretchedCandidates fourMembers Genetic.idleWatch members
          (⟨4354685564936845360⟩ : MixingGenerator)).map fun generation =>
            generation.map (·.vector)) =
        (.ok [[[.finite 0], [.finite 9], [.finite 7], [.finite 4]],
          [[.finite 0], [.finite 9], [.finite 0], [.finite 9]]] :
          Except Breakdown (List (List (List Extended)))) := by
    cbv
  obtain ⟨members, areMembers, areVectors⟩ := bind_eq_ok evolves
  have isSetUp :
      IsSetUp stretchedProblem fourMembers stretchedCandidates (⟨6⟩ : MixingGenerator)
        [[.finite 0], [.finite 9], [.finite 7], [.finite 4]] ⟨4354685564936845360⟩ members :=
    ⟨⟨by cbv, rfl, by cbv⟩, areMembers⟩
  obtain ⟨ofRun, -⟩ := solve_keeps_extremes MixingGenerator stretchedProblem fourMembers
    Genetic.idleWatch enough
  exact ⟨enough, members, _, isSetUp, Except.ok.inj areVectors, ofRun _ _ _ _ _ isSetUp⟩

end Stretched

end Pareto

end Optima
