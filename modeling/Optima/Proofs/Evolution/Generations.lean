import Mathlib.Data.List.Chain
import Optima.Evolution.Genetic
import Optima.Proofs.Lists
import Optima.Proofs.Scalar.Comparison
import Optima.Proofs.Search.Candidates

namespace Optima

/-!
# The generations of a run

A vector is always worth the same.  The elites of a generation, of which there is at
least one, come first in the next generation, so the best member is still there.  A run
leads from generation to generation this way, and its history has a point for each.
-/

/-- As many draws are made as are asked for. -/
theorem RandomSource.length_repeated
    {γ β : Type}
    (draw : γ → β × γ)
    (count : Nat)
    (source : γ) :
    (RandomSource.repeated draw count source).1.length = count := by
  induction count generalizing source with
  | zero => rfl
  | succ count inductionHypothesis =>
      exact congrArg (· + 1) (inductionHypothesis (draw source).2)

namespace Evolution

variable {α : Type} [Scalar α] {candidates : Candidates α} {parameters : GeneticParameters α}
  {population : List (List α)} {members : List (Member α)}

/-- The member that a vector is. -/
def memberOf (candidates : Candidates α) (parameters : GeneticParameters α) (vector : List α) :
    Except Breakdown (Member α) := do
  let evaluation ← candidates.evaluate vector
  return ⟨vector, evaluation, fitness parameters evaluation⟩

theorem membersOf_eq_mapM :
    membersOf candidates parameters population =
      population.mapM (memberOf candidates parameters) :=
  rfl

theorem vector_of_memberOf_eq_ok
    {vector : List α}
    {member : Member α}
    (isMember : memberOf candidates parameters vector = .ok member) :
    member.vector = vector := by
  obtain ⟨evaluation, -, isMember⟩ := bind_eq_ok isMember
  cases isMember
  rfl

theorem map_vector_of_membersOf_eq_ok
    (areMembers : membersOf candidates parameters population = .ok members) :
    members.map (·.vector) = population := by
  rw [membersOf_eq_mapM, mapM_eq_ok_iff] at areMembers
  induction areMembers with
  | nil =>
      rfl
  | cons isMember _ inductionHypothesis =>
      rw [List.map_cons, vector_of_memberOf_eq_ok isMember, inductionHypothesis]

/-- A member of a generation is what its vector is worth. -/
theorem memberOf_of_mem
    (areMembers : membersOf candidates parameters population = .ok members)
    {member : Member α}
    (inMembers : member ∈ members) :
    member.vector ∈ population ∧
      memberOf candidates parameters member.vector = .ok member := by
  obtain ⟨vector, inPopulation, isMember⟩ :=
    exists_of_mem_results_of_mapM_eq_ok areMembers inMembers
  obtain rfl := vector_of_memberOf_eq_ok isMember
  exact ⟨inPopulation, isMember⟩

/-- A first population has the size that is asked for. -/
theorem length_of_initialPopulation_eq_ok
    {γ : Type}
    [RandomSource γ α]
    {size : Nat}
    {source remaining : γ}
    (populated : initialPopulation candidates size source = .ok (population, remaining)) :
    population.length = size := by
  obtain ⟨vectors, -, populated⟩ := bind_eq_ok populated
  obtain ⟨intervals, -, populated⟩ := bind_eq_ok populated
  cases populated
  rw [List.length_map, List.length_append, List.length_take, RandomSource.length_repeated]
  omega

/-- At least one member of a population is taken over, whatever the rate. -/
theorem eliteCount_pos
    (rate : α)
    {size : Nat}
    (isInhabited : 0 < size) :
    0 < eliteCount rate size :=
  lt_min isInhabited (lt_max_of_lt_left Nat.one_pos)

/-- The next population has the vector at the first position of the current ranking. -/
theorem getD_mem_nextPopulation
    {γ : Type}
    [RandomSource γ α]
    {scores : List α}
    {position : Nat}
    (isFirst : (Scalar.descending scores).head? = some position)
    (sameLength : scores.length = population.length)
    (generation : Nat)
    (source : γ) :
    population.getD position [] ∈
      (nextPopulation candidates parameters generation population scores source).1 := by
  have inRange : position < scores.length :=
    Scalar.mem_descending_iff.mp (List.mem_of_mem_head? isFirst)
  have someElite : 0 < eliteCount parameters.elitismRate population.length :=
    eliteCount_pos _ (by omega)
  have isElite :
      position ∈
        (Scalar.descending scores).take (eliteCount parameters.elitismRate population.length) := by
    apply List.mem_of_mem_head?
    rw [List.head?_take, if_neg someElite.ne']
    exact isFirst
  exact List.mem_append_left _ (List.mem_map_of_mem isElite)

/-- What a solution says of the member that it is made of and of the end of its run. -/
structure Shows (candidates : Candidates α) (algorithm : Algorithm) (primary : Member α)
    (trace : Trace α) (stop : StopReason) (details : List (String × Document α))
    (outcome : Solution α) : Prop where
  isStatus :
    outcome.status = if primary.evaluation.isFeasible then stop.status else .infeasible
  isAccount :
    outcome.account =
      ⟨label algorithm, trace.generations, trace.watch.lookAtClock.1, trace.history.reverse,
        Table.ofList details⟩
  areValues : candidates.decode primary.vector = .ok outcome.variableValues
  areObjectives : outcome.objectiveValues = primary.evaluation.objectiveValues
  areViolations : candidates.violations primary.vector = .ok outcome.violations

theorem of_solution_eq_ok
    {algorithm : Algorithm}
    {primary : Member α}
    {others : List (Alternative α)}
    {trace : Trace α}
    {stop : StopReason}
    {details : List (String × Document α)}
    {outcome : Solution α}
    (told :
      solution candidates parameters algorithm primary others trace stop details = .ok outcome) :
    outcome.alternatives = others ∧
      Shows candidates algorithm primary trace stop details outcome := by
  unfold solution at told
  dsimp only at told
  -- Prices around the member are told only where it has a score.
  split at told
  all_goals
    obtain ⟨sensitivity, -, told⟩ := bind_eq_ok told
    obtain ⟨values, areValues, told⟩ := bind_eq_ok told
    obtain ⟨violations, areViolations, told⟩ := bind_eq_ok told
    cases told
    exact ⟨rfl, rfl, rfl, mapError_eq_ok areValues, rfl, mapError_eq_ok areViolations⟩

end Evolution

namespace Genetic

open Evolution

variable {α γ : Type} [Scalar α] [RandomSource γ α]

/-- A member of a generation that no other one surpasses. -/
structure IsBest (members : List (Member α)) (best : Member α) : Prop where
  mem : best ∈ members
  fitness_le : ∀ member ∈ members, member.fitness ≤ best.fitness

/-- The best of a later generation is at least as fit as that of an earlier one. -/
def KeepsUp (earlier later : List (Member α)) : Prop :=
  ∀ best, IsBest earlier best → ∃ better, IsBest later better ∧ best.fitness ≤ better.fitness

/-- What a run goes on with after a generation, unless it ends there. -/
def successor? (candidates : Candidates α) (parameters : GeneticParameters α)
    (population : List (List α)) (members : List (Member α)) (trace : Trace α) (source : γ) :
    Option (List (List α) × Trace α × γ) :=
  match best? members with
  | none => none
  | some best =>
    match trace.record candidates best best.evaluation.violation with
    | .error _ => none
    | .ok recorded =>
      let (stop?, looked) := recorded.stop? parameters
      let current := { recorded with watch := looked }
      let (next, rest) := nextPopulation candidates parameters current.generations population
        (members.map (·.fitness)) source
      if stop?.isSome then none else some (next, current, rest)

/-- The generations of a run, also of one that breaks down later. -/
def generations (candidates : Candidates α) (parameters : GeneticParameters α) :
    Nat → List (List α) → Trace α → γ → List (List (Member α))
  | remaining, population, trace, source =>
    match membersOf candidates parameters population with
    | .error _ => []
    | .ok members =>
      match successor? candidates parameters population members trace source with
      | none => [members]
      | some (next, current, rest) =>
        match remaining with
        | 0 => [members]
        | further + 1 => members :: generations candidates parameters further next current rest

variable {candidates : Candidates α} {parameters : GeneticParameters α}
  {population next : List (List α)} {members : List (Member α)} {trace current : Trace α}
  {source rest : γ} {best : Member α}

section Best

omit [RandomSource γ α]

theorem exists_best?_eq_some
    (isInhabited : members ≠ []) :
    ∃ best, best? members = some best := by
  have someRank : ranking members ≠ [] := by
    rw [← List.length_pos_iff, ranking, Scalar.length_descending, List.length_map]
    exact List.length_pos_iff.mpr isInhabited
  obtain ⟨position, others, isRanking⟩ := List.exists_cons_of_ne_nil someRank
  have inRange : position < members.length := by
    have isRanked : position ∈ ranking members := by
      simp [isRanking]
    simpa using Scalar.mem_descending_iff.mp isRanked
  exact ⟨members[position], by simp [best?, isRanking, inRange]⟩

theorem exists_position_of_best?_eq_some
    (isChosen : best? members = some best) :
    ∃ position,
      (ranking members).head? = some position ∧ members[position]? = some best :=
  Option.bind_eq_some_iff.mp isChosen

/-- The member that is chosen as the best one is not surpassed. -/
theorem isBest_of_best?_eq_some
    [SignedScalar α]
    (isChosen : best? members = some best) :
    IsBest members best := by
  obtain ⟨position, isFirst, isMember⟩ := exists_position_of_best?_eq_some isChosen
  obtain ⟨largest, isLargest, noneLarger⟩ := Scalar.exists_largest_of_head?_descending isFirst
  rw [List.getElem?_map, isMember] at isLargest
  obtain rfl := Option.some.inj isLargest
  exact ⟨List.mem_of_getElem? isMember, fun member inMembers =>
    noneLarger member.fitness (List.mem_map_of_mem inMembers)⟩

/-- A generation keeps up with one whose best member it still has. -/
theorem KeepsUp.of_mem
    [SignedScalar α]
    {earlier later : List (Member α)}
    (kept : ∀ best, best? earlier = some best → best ∈ later) :
    KeepsUp earlier later := by
  intro best isBest
  obtain ⟨chosen, isChosen⟩ := exists_best?_eq_some (List.ne_nil_of_mem isBest.mem)
  have stillThere := kept chosen isChosen
  obtain ⟨better, isBetter⟩ := exists_best?_eq_some (List.ne_nil_of_mem stillThere)
  have isBetter := isBest_of_best?_eq_some isBetter
  refine ⟨better, isBetter, ?_⟩
  calc best.fitness
      ≤ chosen.fitness := (isBest_of_best?_eq_some isChosen).fitness_le best isBest.mem
    _ ≤ better.fitness := isBetter.fitness_le chosen stillThere

theorem KeepsUp.trans
    [OrderedScalar α]
    {first second third : List (Member α)}
    (early : KeepsUp first second)
    (late : KeepsUp second third) :
    KeepsUp first third := by
  intro best isBest
  obtain ⟨better, isBetter, rises⟩ := early best isBest
  obtain ⟨yetBetter, isYetBetter, risesAgain⟩ := late better isBetter
  exact ⟨yetBetter, isYetBetter, rises.trans risesAgain⟩

end Best

/-- The vector of the best member of a generation is in the next population. -/
theorem vector_mem_nextPopulation
    (areMembers : membersOf candidates parameters population = .ok members)
    (isChosen : best? members = some best)
    (generation : Nat)
    (source : γ) :
    best.vector ∈
      (nextPopulation candidates parameters generation population (members.map (·.fitness))
        source).1 := by
  obtain ⟨position, isFirst, isMember⟩ := exists_position_of_best?_eq_some isChosen
  have areVectors := map_vector_of_membersOf_eq_ok areMembers
  have isVector : population.getD position [] = best.vector := by
    rw [← areVectors, List.getD_eq_getElem?_getD, List.getElem?_map, isMember]
    rfl
  have sameLength : (members.map (·.fitness)).length = population.length := by
    rw [← areVectors, List.length_map, List.length_map]
  rw [← isVector]
  exact getD_mem_nextPopulation isFirst sameLength generation source

/-- The best member of a generation is a member of the next one. -/
theorem mem_of_best?_eq_some
    {generation : Nat}
    {nextMembers : List (Member α)}
    (areMembers : membersOf candidates parameters population = .ok members)
    (isChosen : best? members = some best)
    (areNext :
      membersOf candidates parameters
          (nextPopulation candidates parameters generation population
            (members.map (·.fitness)) source).1 =
        .ok nextMembers) :
    best ∈ nextMembers := by
  obtain ⟨again, inNext, isAgain⟩ :=
    exists_of_mem_of_mapM_eq_ok areNext
      (vector_mem_nextPopulation areMembers isChosen generation source)
  obtain ⟨position, -, isMember⟩ := exists_position_of_best?_eq_some isChosen
  have isWorth := (memberOf_of_mem areMembers (List.mem_of_getElem? isMember)).2
  obtain rfl := Except.ok.inj (isWorth.symm.trans isAgain)
  exact inNext

section Course

/-- A run goes on with the next population of a generation that has a best member. -/
theorem of_successor?_eq_some
    (goesOn :
      successor? candidates parameters population members trace source =
        some (next, current, rest)) :
    ∃ generation,
      next =
        (nextPopulation candidates parameters generation population (members.map (·.fitness))
          source).1 := by
  unfold successor? at goesOn
  split at goesOn
  · cases goesOn
  · split at goesOn
    · cases goesOn
    · dsimp only at goesOn
      split at goesOn
      · cases goesOn
      · cases goesOn
        exact ⟨_, rfl⟩

/-- A run starts with the members of its population. -/
theorem membersOf_of_head?_generations
    {remaining : Nat}
    (isFirst :
      (generations candidates parameters remaining population trace source).head? =
        some members) :
    membersOf candidates parameters population = .ok members := by
  unfold generations at isFirst
  split at isFirst
  · cases isFirst
  · rename_i first areMembers
    have isSame : first = members := by
      split at isFirst
      · exact Option.some.inj isFirst
      · split at isFirst <;> exact Option.some.inj isFirst
    exact isSame ▸ areMembers

/-- Every generation of a run consists of vectors and what they are worth. -/
theorem memberOf_of_mem_generations
    {remaining : Nat}
    {generation : List (Member α)}
    (inCourse : generation ∈ generations candidates parameters remaining population trace source)
    {member : Member α}
    (inGeneration : member ∈ generation) :
    memberOf candidates parameters member.vector = .ok member := by
  fun_induction generations with
  | case1 remaining population trace source breakdown isBroken =>
      simp at inCourse
  | case2 remaining population trace source members areMembers isLast =>
      obtain rfl := List.mem_singleton.mp inCourse
      exact (memberOf_of_mem areMembers inGeneration).2
  | case3 population trace source members areMembers next current rest goesOn =>
      obtain rfl := List.mem_singleton.mp inCourse
      exact (memberOf_of_mem areMembers inGeneration).2
  | case4 population trace source members areMembers next current rest goesOn further
      inductionHypothesis =>
      rcases List.mem_cons.mp inCourse with isFirst | isLater
      · subst generation
        exact (memberOf_of_mem areMembers inGeneration).2
      · exact inductionHypothesis isLater

/-- Each generation of a run keeps up with the one before it. -/
theorem isChain_generations
    [SignedScalar α]
    (remaining : Nat)
    (population : List (List α))
    (trace : Trace α)
    (source : γ) :
    (generations candidates parameters remaining population trace source).IsChain KeepsUp := by
  fun_induction generations with
  | case1 => exact .nil
  | case2 => exact .singleton _
  | case3 => exact .singleton _
  | case4 population trace source members areMembers next current rest goesOn further
      inductionHypothesis =>
      refine List.isChain_cons.mpr ⟨?_, inductionHypothesis⟩
      intro nextMembers isNext
      obtain ⟨generation, rfl⟩ := of_successor?_eq_some goesOn
      have areNext := membersOf_of_head?_generations isNext
      exact KeepsUp.of_mem fun best isChosen => mem_of_best?_eq_some areMembers isChosen areNext

/-- Each generation of a run keeps up with all generations before it. -/
theorem pairwise_generations
    [SignedScalar α]
    (remaining : Nat)
    (population : List (List α))
    (trace : Trace α)
    (source : γ) :
    (generations candidates parameters remaining population trace source).Pairwise KeepsUp :=
  have : Trans (KeepsUp (α := α)) KeepsUp KeepsUp := ⟨KeepsUp.trans⟩
  List.isChain_iff_pairwise.mp (isChain_generations remaining population trace source)

/-- A point of the history tells what the best member of a generation is worth. -/
def Tells (candidates : Candidates α) (members : List (Member α)) (point : ConvergencePoint α) :
    Prop :=
  ∃ best,
    IsBest members best ∧
      candidates.traceValue best.fitness = .ok point.objectiveValue ∧
      point.constraintViolation = best.evaluation.violation

/-- A point of the history tells what the member that is chosen as the best one is worth. -/
def TellsChosen (candidates : Candidates α) (members : List (Member α))
    (point : ConvergencePoint α) : Prop :=
  ∃ best,
    best? members = some best ∧
      candidates.traceValue best.fitness = .ok point.objectiveValue ∧
      point.constraintViolation = best.evaluation.violation

theorem TellsChosen.tells
    [SignedScalar α]
    {point : ConvergencePoint α}
    (tells : TellsChosen candidates members point) :
    Tells candidates members point := by
  obtain ⟨best, isChosen, isTold⟩ := tells
  exact ⟨best, isBest_of_best?_eq_some isChosen, isTold⟩

/-- What the end of a run is to its generations, whatever comparing their members means. -/
structure ClosesChosen (candidates : Candidates α) (course : List (List (Member α)))
    (earlier : List (ConvergencePoint α)) (ending : Ending α) : Prop where
  told :
    ∃ points,
      ending.trace.history = points.reverse ++ earlier ∧
        List.Forall₂ (TellsChosen candidates) course points
  last : course.getLast? = some ending.members
  isChosen : best? ending.members = some ending.best

/-- What the end of a run is to its generations. -/
structure Closes (candidates : Candidates α) (course : List (List (Member α)))
    (earlier : List (ConvergencePoint α)) (ending : Ending α) : Prop where
  told :
    ∃ points,
      ending.trace.history = points.reverse ++ earlier ∧
        List.Forall₂ (Tells candidates) course points
  last : course.getLast? = some ending.members
  isBest : IsBest ending.members ending.best

/-- A run that returns tells of its first generation, and then it ends or goes on. -/
theorem of_evolve_eq_ok
    {remaining : Nat}
    {ending : Ending α}
    (areMembers : membersOf candidates parameters population = .ok members)
    (returned : evolve candidates parameters remaining population trace source = .ok ending) :
    ∃ best point,
      best? members = some best ∧
        TellsChosen candidates members point ∧
        ((ending.members = members ∧ ending.best = best ∧
            ending.trace.history = point :: trace.history ∧
            (successor? candidates parameters population members trace source = none ∨
              remaining = 0)) ∨
          ∃ further next current, ∃ rest : γ,
            remaining = further + 1 ∧
              successor? candidates parameters population members trace source =
                some (next, current, rest) ∧
              current.history = point :: trace.history ∧
              evolve candidates parameters further next current rest = .ok ending) := by
  unfold evolve at returned
  obtain ⟨others, areOthers, returned⟩ := bind_eq_ok returned
  obtain rfl := Except.ok.inj (areMembers.symm.trans areOthers)
  split at returned
  · cases returned
  · rename_i best isChosen
    obtain ⟨recorded, isRecorded, returned⟩ := bind_eq_ok returned
    obtain ⟨value, isValue, isPoint⟩ := bind_eq_ok isRecorded
    have tells :
        TellsChosen candidates members
          ⟨trace.generations, value, best.evaluation.violation, trace.watch.lookAtClock.1⟩ :=
      ⟨best, isChosen, isValue, rfl⟩
    cases isPoint
    refine ⟨best, _, isChosen, tells, ?_⟩
    simp only [successor?, isChosen, isRecorded]
    dsimp only at returned
    split at returned
    · rename_i stop isStop
      cases returned
      exact .inl ⟨rfl, rfl, rfl, .inl (by simp [isStop])⟩
    · rename_i goesOn
      split at returned
      · cases returned
        exact .inl ⟨rfl, rfl, rfl, .inr rfl⟩
      · exact .inr ⟨_, _, _, _, rfl, by simp [goesOn], rfl, returned⟩

/-- A run that returns ends with what is chosen of its last generation and has told of all. -/
theorem closesChosen_of_evolve_eq_ok
    {remaining : Nat}
    {ending : Ending α}
    (returned : evolve candidates parameters remaining population trace source = .ok ending) :
    ClosesChosen candidates (generations candidates parameters remaining population trace source)
      trace.history ending := by
  fun_induction generations with
  | case1 remaining population trace source breakdown isBroken =>
      simp [evolve, isBroken, bind, Except.bind] at returned
  | case2 remaining population trace source members areMembers isLast =>
      obtain ⟨best, point, isChosen, tells,
          ⟨rfl, rfl, isHistory, -⟩ | ⟨_, _, _, _, _, goesOn, -⟩⟩ :=
        of_evolve_eq_ok areMembers returned
      · exact ⟨⟨[point], isHistory, .cons tells .nil⟩, rfl, isChosen⟩
      · cases isLast.symm.trans goesOn
  | case3 population trace source members areMembers next current rest goesOn =>
      obtain ⟨best, point, isChosen, tells,
          ⟨rfl, rfl, isHistory, -⟩ | ⟨_, _, _, _, isSucc, -⟩⟩ :=
        of_evolve_eq_ok areMembers returned
      · exact ⟨⟨[point], isHistory, .cons tells .nil⟩, rfl, isChosen⟩
      · cases isSucc
  | case4 population trace source members areMembers next current rest goesOn further
      inductionHypothesis =>
      obtain ⟨best, point, isChosen, tells, ⟨-, -, -, isLast | isSucc⟩ |
          ⟨_, _, _, _, isSucc, isSuccessor, isHistory, returnedLater⟩⟩ :=
        of_evolve_eq_ok areMembers returned
      · cases goesOn.symm.trans isLast
      · cases isSucc
      · cases isSucc
        cases goesOn.symm.trans isSuccessor
        obtain ⟨⟨points, areTold, areAll⟩, isLast, isChosenOfLast⟩ :=
          inductionHypothesis returnedLater
        refine ⟨⟨point :: points, ?_, .cons tells areAll⟩, ?_, isChosenOfLast⟩
        · rw [areTold, isHistory, List.reverse_cons, List.append_assoc, List.singleton_append]
        · rw [List.getLast?_cons, isLast, Option.getD_some]

/-- A run that returns ends with the best member of its last generation and has told of all. -/
theorem closes_of_evolve_eq_ok
    [SignedScalar α]
    {remaining : Nat}
    {ending : Ending α}
    (returned : evolve candidates parameters remaining population trace source = .ok ending) :
    Closes candidates (generations candidates parameters remaining population trace source)
      trace.history ending := by
  obtain ⟨⟨points, arePoints, areTold⟩, isLast, isChosen⟩ := closesChosen_of_evolve_eq_ok returned
  exact ⟨⟨points, arePoints, areTold.imp fun _ _ => TellsChosen.tells⟩, isLast,
    isBest_of_best?_eq_some isChosen⟩

section Returning

variable (isTame : candidates.problem.IsTame)

include isTame

/-- Over tame rules a generation has members, and its best one is told of. -/
theorem exists_record_eq_ok
    (someObjective : candidates.problem.objectives ≠ [])
    (parameters : GeneticParameters α)
    (isInhabited : population ≠ [])
    (trace : Trace α) :
    ∃ members best recorded,
      membersOf candidates parameters population = .ok members ∧
        best? members = some best ∧
        trace.record candidates best best.evaluation.violation = .ok recorded := by
  have each :
      ∀ vector ∈ population, ∃ member, memberOf candidates parameters vector = .ok member := by
    intro vector _
    obtain ⟨evaluation, isEvaluation, -⟩ := Candidates.exists_evaluate_eq_ok isTame vector
    rw [memberOf, isEvaluation]
    exact ⟨_, rfl⟩
  obtain ⟨members, areMembers⟩ := exists_mapM_eq_ok each
  have someMember : members ≠ [] := by
    rintro rfl
    exact isInhabited (map_vector_of_membersOf_eq_ok areMembers).symm
  obtain ⟨best, isChosen⟩ := exists_best?_eq_some someMember
  obtain ⟨value, isValue⟩ := Candidates.exists_traceValue_eq_ok someObjective best.fitness
  refine ⟨members, best, ?_⟩
  rw [Trace.record, isValue]
  exact ⟨_, areMembers, isChosen, rfl⟩

/-- A run over tame rules that starts with some vector comes to an end. -/
theorem exists_evolve_eq_ok
    (someObjective : candidates.problem.objectives ≠ [])
    (remaining : Nat)
    (isInhabited : population ≠ [])
    (trace : Trace α)
    (source : γ) :
    ∃ ending, evolve candidates parameters remaining population trace source = .ok ending := by
  induction remaining generalizing population trace source with
  | zero =>
      obtain ⟨members, best, recorded, areMembers, isChosen, isRecorded⟩ :=
        exists_record_eq_ok isTame someObjective parameters isInhabited trace
      unfold evolve
      simp only [areMembers, isChosen, isRecorded, bind, Except.bind, pure, Except.pure]
      split <;> exact ⟨_, rfl⟩
  | succ further inductionHypothesis =>
      obtain ⟨members, best, recorded, areMembers, isChosen, isRecorded⟩ :=
        exists_record_eq_ok isTame someObjective parameters isInhabited trace
      unfold evolve
      simp only [areMembers, isChosen, isRecorded, bind, Except.bind, pure, Except.pure]
      split
      · exact ⟨_, rfl⟩
      · exact inductionHypothesis
          (List.ne_nil_of_mem (vector_mem_nextPopulation areMembers isChosen _ source)) _ _

end Returning

end Course

end Genetic

end Optima
