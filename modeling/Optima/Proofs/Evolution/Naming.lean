import Optima.Proofs.Evolution.Breeding
import Optima.Proofs.Search.Naming

namespace Optima

/-!
# Evolutionary runs find their names

What a run compares its members by is worth something whatever names they have values for.
Prices are taken around the member that a run tells.  It is a vector of all components, for a
first population consists of such vectors and breeding keeps their number.
-/

namespace Evolution

variable {α γ : Type} [Scalar α] [RandomSource γ α] {candidates : Candidates α}
  {parameters : GeneticParameters α} {population : List (List α)} {members : List (Member α)}

section Sizes

/-- Whatever the parents are, a child has as many components as they have. -/
theorem isHeritable_length :
    IsHeritable γ candidates parameters fun vector => vector.length = candidates.size := by
  have isMutated
      (vector : List α)
      (isSize : vector.length = candidates.size)
      (generation : Nat)
      (source : γ) :
      (mutate candidates parameters generation vector source).1.length = candidates.size := by
    unfold mutate
    refine Candidates.length_repair (length_mutateAll_decisions isSize ?_)
    rw [List.length_zip, length_mutationMask, RandomSource.length_repeated, min_self]
  intro first second isSize isSizeToo generation before after
  obtain ⟨isLeft, isRight⟩ := length_crossover isSize isSizeToo before
  exact ⟨isMutated _ isLeft _ _, isMutated _ isRight _ _⟩

theorem length_of_mem_initialPopulation
    {size : Nat}
    {source remaining : γ}
    (populated : initialPopulation candidates size source = .ok (population, remaining)) :
    ∀ vector ∈ population, vector.length = candidates.size := by
  intro vector member
  obtain ⟨raw, isSize, rfl⟩ := exists_raw_of_mem_initialPopulation populated vector member
  exact Candidates.length_repair isSize

theorem length_pos_of_leader?_eq_some
    {positions : List Nat}
    {leader : Member α}
    (isLeader : Pareto.leader? members positions = some leader) :
    0 < members.length := by
  cases members with
  | cons first rest => exact Nat.succ_pos rest.length
  | nil =>
      have nothing : positions.filterMap (fun position => ([] : List (Member α))[position]?) = [] :=
        List.filterMap_eq_nil_iff.mpr fun _ _ => rfl
      rw [Pareto.leader?, nothing] at isLeader
      cases isLeader

/-- A run goes on after a generation only where it has members. -/
theorem length_pos_of_successor?_eq_some
    {trace current : Trace α}
    {source rest : γ}
    {next : List (Member α)}
    (goesOn :
      Pareto.successor? candidates parameters members trace source = some (next, current, rest)) :
    0 < members.length := by
  unfold Pareto.successor? at goesOn
  dsimp only at goesOn
  split at goesOn
  · cases goesOn
  · rename_i leader isLeader
    exact length_pos_of_leader?_eq_some isLeader

/-- In every generation of a Pareto run the members are vectors of all components. -/
theorem length_of_mem_pareto
    [LimitedSource γ α]
    {remaining : Nat}
    {trace : Trace α}
    {source : γ}
    (areSizes : ∀ member ∈ members, member.vector.length = candidates.size) :
    ∀ generation ∈ Pareto.generations candidates parameters remaining members trace source,
      ∀ member ∈ generation, member.vector.length = candidates.size := by
  intro generation inCourse
  fun_induction Pareto.generations with
  | case1 =>
      obtain rfl := List.mem_singleton.mp inCourse
      exact areSizes
  | case2 =>
      obtain rfl := List.mem_singleton.mp inCourse
      exact areSizes
  | case3 members trace source next current rest goesOn further inductionHypothesis =>
      rcases List.mem_cons.mp inCourse with isFirst | isLater
      · subst generation
        exact areSizes
      · have isInhabited := length_pos_of_successor?_eq_some goesOn
        exact inductionHypothesis
          (of_mem_of_succeeds isHeritable_length (Pareto.succeeds_of_successor?_eq_some goesOn)
            (fun _ => isInhabited) areSizes) isLater

end Sizes

section Sampling

theorem findsNames_initialPopulation
    (candidates : Candidates α)
    (size : Nat)
    (source : γ) :
    FindsNames (initialPopulation candidates size source) := by
  have findsVectors : FindsNames candidates.thresholdVectors :=
    Candidates.failsOnly_thresholdVectors candidates.findsNames_thresholds
  have findsIntervals : FindsNames (samplingIntervals candidates) := by
    unfold samplingIntervals
    dsimp only
    repeat' split
    all_goals first | exact findsNames_ok _ | exact findsNames_error id
  refine failsOnly_initialPopulation ?_ ?_ ?_ size source
  · exact candidates.findsNames_initial?
  · exact fun failure failed =>
      mt NamingFailure.missesName_of_toSolveFailure (findsVectors failure failed)
  · exact findsIntervals

end Sampling

section Telling

theorem findsNames_record
    (candidates : Candidates α)
    (best : Member α)
    (violation : α)
    (trace : Trace α) :
    FindsNames (trace.record candidates best violation) :=
  (candidates.findsNames_traceValue _).bind fun _ _ => findsNames_ok _

theorem findsNames_alternativesAt
    (candidates : Candidates α)
    (members : List (Member α))
    (dominated : List Nat)
    (crowding : List α)
    (positions : List Nat) :
    FindsNames (alternativesAt candidates members dominated crowding positions) :=
  findsNames_mapM fun _ _ => (candidates.findsNames_decode _).bind fun _ _ => findsNames_ok _

variable {names : List String}

theorem findsNames_membersOf
    (readsOnly : candidates.problem.ReadsOnly names)
    (population : List (List α)) :
    FindsNames (membersOf candidates parameters population) :=
  findsNames_mapM fun vector _ =>
    (Candidates.findsNames_evaluate readsOnly vector).bind fun _ _ => findsNames_ok _

/-- What is told of a member of all components misses no name. -/
theorem findsNames_solution
    {algorithm : Algorithm}
    {primary : Member α}
    {others : List (Alternative α)}
    {trace : Trace α}
    {stop : StopReason}
    {details : List (String × Document α)}
    (readsOnly : candidates.problem.ReadsOnly candidates.names)
    (isSize : primary.vector.length = candidates.size) :
    FindsNames
      (solution candidates parameters algorithm primary others trace stop details) := by
  have covers := candidates.covers_assignment isSize
  have findsTold (tell : Table (Datum α) → List (Violation α) → Solution α) :
      FindsNames (do
        let values ← (candidates.decode primary.vector).mapError .broken
        let violations ← (candidates.violations primary.vector).mapError .broken
        return tell values violations : Except (SolveFailure α) (Solution α)) :=
    (candidates.findsNames_decode primary.vector).breakDown.bind fun _ _ =>
      (Candidates.findsNames_violations readsOnly covers).breakDown.bind fun _ _ =>
        findsNames_ok _
  unfold solution
  dsimp only
  split
  · exact (Sensitivity.findsNames_around_assignment readsOnly isSize _).settled.bind fun _ _ =>
      findsTold _
  · exact findsTold _

end Telling

section Running

variable {names : List String} (readsOnly : candidates.problem.ReadsOnly names)

include readsOnly

/-- A genetic run misses no name. -/
theorem findsNames_genetic
    (remaining : Nat)
    (population : List (List α))
    (trace : Trace α)
    (source : γ) :
    FindsNames (Genetic.evolve candidates parameters remaining population trace source) := by
  induction remaining generalizing population trace source with
  | zero =>
      unfold Genetic.evolve
      refine (findsNames_membersOf readsOnly population).bind fun members _ => ?_
      split
      · exact findsNames_error id
      · refine (findsNames_record candidates _ _ trace).bind fun recorded _ => ?_
        dsimp only
        split <;> exact findsNames_ok _
  | succ remaining inductionHypothesis =>
      unfold Genetic.evolve
      refine (findsNames_membersOf readsOnly population).bind fun members _ => ?_
      split
      · exact findsNames_error id
      · refine (findsNames_record candidates _ _ trace).bind fun recorded _ => ?_
        dsimp only
        split
        · exact findsNames_ok _
        · exact inductionHypothesis _ _ _

/-- A Pareto run misses no name. -/
theorem findsNames_pareto
    (remaining : Nat)
    (members : List (Member α))
    (trace : Trace α)
    (source : γ) :
    FindsNames (Pareto.evolve candidates parameters remaining members trace source) := by
  induction remaining generalizing members trace source with
  | zero =>
      unfold Pareto.evolve
      dsimp only
      split
      · exact findsNames_error id
      · refine (findsNames_record candidates _ _ trace).bind fun recorded _ => ?_
        split <;> exact findsNames_ok _
  | succ remaining inductionHypothesis =>
      unfold Pareto.evolve
      dsimp only
      split
      · exact findsNames_error id
      · refine (findsNames_record candidates _ _ trace).bind fun recorded _ => ?_
        split
        · exact findsNames_ok _
        · exact (findsNames_membersOf readsOnly _).bind fun _ _ => inductionHypothesis _ _ _

end Running

section Solving

variable {δ : Type} [SeededSource δ α] [LimitedSource δ α] {problem : Problem α}
  {watch : Watch α}
  (findsSeed : ∀ seed, FindsNames (SeededSource.ofSeed α seed : Except Breakdown δ))
  (readsOnly : problem.ReadsOnly problem.variableNames)

include findsSeed readsOnly

/-- The genetic strategy finds its names where the rules of a problem read those of its
variables. -/
theorem findsNames_genetic_solve :
    FindsNames (Genetic.solve δ problem parameters watch) := by
  unfold Genetic.solve
  dsimp only
  split
  · exact findsNames_ok _
  · refine (Candidates.findsNames_ofProblem _ _ _).settled.bind fun candidates prepared => ?_
    obtain rfl := Candidates.problem_eq_of_ofProblem_eq_ok (settled_eq_ok prepared)
    refine (findsSeed _).breakDown.bind fun source _ => ?_
    refine (findsNames_initialPopulation candidates _ source).bind fun populated isPopulated => ?_
    obtain ⟨population, remaining⟩ := populated
    refine (findsNames_genetic readsOnly _ _ _ _).breakDown.bind fun ending evolved => ?_
    refine (findsNames_alternativesAt _ _ _ _ _).breakDown.bind fun _ _ => ?_
    obtain ⟨-, isLast, isChosen⟩ := Genetic.closesChosen_of_evolve_eq_ok (mapError_eq_ok evolved)
    obtain ⟨position, -, isBest⟩ := Genetic.exists_position_of_best?_eq_some isChosen
    have areSizes := of_mem_genetic isHeritable_length
      (length_of_mem_initialPopulation isPopulated) _ (List.mem_of_getLast? isLast)
    exact findsNames_solution readsOnly (areSizes.2 _ (List.mem_of_getElem? isBest))

/-- The Pareto strategy finds its names where the rules of a problem read those of its
variables. -/
theorem findsNames_pareto_solve
    [Elementary α] :
    FindsNames (Pareto.solve δ problem parameters watch) := by
  unfold Pareto.solve
  dsimp only
  split
  · exact findsNames_ok _
  · refine (Candidates.findsNames_ofProblem _ _ _).settled.bind fun candidates prepared => ?_
    obtain rfl := Candidates.problem_eq_of_ofProblem_eq_ok (settled_eq_ok prepared)
    refine (findsSeed _).breakDown.bind fun source _ => ?_
    refine (findsNames_initialPopulation candidates _ source).bind fun populated isPopulated => ?_
    obtain ⟨population, remaining⟩ := populated
    refine (findsNames_membersOf readsOnly _).breakDown.bind fun members areMembers => ?_
    refine (findsNames_pareto readsOnly _ _ _ _).breakDown.bind fun ending evolved => ?_
    split
    · exact findsNames_error id
    · rename_i primary isPrimary
      refine (findsNames_alternativesAt _ _ _ _ _).breakDown.bind fun _ _ => ?_
      obtain ⟨-, isLast, -⟩ := Pareto.closes_of_evolve_eq_ok (mapError_eq_ok evolved)
      have areSizes := of_membersOf_eq_ok (length_of_mem_initialPopulation isPopulated)
        (mapError_eq_ok areMembers)
      exact findsNames_solution readsOnly
        (length_of_mem_pareto areSizes.2 _ (List.mem_of_getLast? isLast) _
          (List.mem_of_getElem? isPrimary))

end Solving

end Evolution

end Optima
