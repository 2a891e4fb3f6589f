import Optima.Proofs.Evolution.Elitism
import Optima.Proofs.Evolution.Survival

namespace Optima

/-!
# From generation to generation

A run of the Pareto strategy replaces each generation by the survivors among its members
and their children.  Its history has a point for each generation, which tells of the
fittest member of the first front and of the least violation in it, and what is given
back are members of the last generation.
-/

namespace Pareto

open Evolution

variable {α γ : Type} [Scalar α] [RandomSource γ α]

/-- The fronts of the members of a generation. -/
def layeringOf (candidates : Candidates α) (members : List (Member α)) : Layering α :=
  .ofStandings (standingsOf candidates members)

/-- What a run goes on with after a generation, unless it ends there. -/
def successor? (candidates : Candidates α) (parameters : GeneticParameters α)
    (members : List (Member α)) (trace : Trace α) (source : γ) :
    Option (List (Member α) × Trace α × γ) :=
  let layering := layeringOf candidates members
  match leader? members layering.first with
  | none => none
  | some leader =>
    match trace.record candidates leader (leastViolation members layering.first) with
    | .error _ => none
    | .ok recorded =>
      let (stop?, looked) := recorded.stop? parameters
      let current := { recorded with watch := looked }
      let (children, rest) := offspring candidates parameters current.generations
        (members.map (·.vector)) layering.selectionScores parameters.populationSize source
      match stop?, membersOf candidates parameters children with
      | none, .ok added =>
        some (replacement candidates parameters.populationSize (members ++ added), current, rest)
      | _, _ => none

/-- The generations of a run, also of one that breaks down later. -/
def generations (candidates : Candidates α) (parameters : GeneticParameters α) :
    Nat → List (Member α) → Trace α → γ → List (List (Member α))
  | remaining, members, trace, source =>
    match successor? candidates parameters members trace source with
    | none => [members]
    | some (next, current, rest) =>
      match remaining with
      | 0 => [members]
      | further + 1 => members :: generations candidates parameters further next current rest

/-- One generation is made of another: of its members and their children the survivors. -/
def Succeeds (γ : Type) [RandomSource γ α] (candidates : Candidates α)
    (parameters : GeneticParameters α) (members next : List (Member α)) : Prop :=
  ∃ generation added, ∃ source : γ,
    membersOf candidates parameters
        (offspring candidates parameters generation (members.map (·.vector))
          (layeringOf candidates members).selectionScores parameters.populationSize source).1 =
      .ok added ∧
    next = replacement candidates parameters.populationSize (members ++ added)

variable {candidates : Candidates α} {parameters : GeneticParameters α}
  {members next : List (Member α)} {trace current : Trace α} {source rest : γ}

theorem succeeds_of_successor?_eq_some
    (goesOn :
      successor? candidates parameters members trace source = some (next, current, rest)) :
    Succeeds γ candidates parameters members next := by
  unfold successor? at goesOn
  dsimp only at goesOn
  split at goesOn
  · cases goesOn
  · split at goesOn
    · cases goesOn
    · split at goesOn
      · rename_i added _ areAdded
        cases goesOn
        exact ⟨_, added, source, areAdded, rfl⟩
      · cases goesOn

theorem head?_generations
    (candidates : Candidates α)
    (parameters : GeneticParameters α)
    (remaining : Nat)
    (members : List (Member α))
    (trace : Trace α)
    (source : γ) :
    (generations candidates parameters remaining members trace source).head? = some members := by
  unfold generations
  split
  · rfl
  · split <;> rfl

/-- Each generation of a run is made of the one before it. -/
theorem isChain_generations
    (remaining : Nat)
    (members : List (Member α))
    (trace : Trace α)
    (source : γ) :
    (generations candidates parameters remaining members trace source).IsChain
      (Succeeds γ candidates parameters) := by
  fun_induction generations with
  | case1 => exact .singleton _
  | case2 => exact .singleton _
  | case3 members trace source next current rest goesOn further inductionHypothesis =>
      refine List.isChain_cons.mpr ⟨?_, inductionHypothesis⟩
      intro later isNext
      rw [head?_generations] at isNext
      cases isNext
      exact succeeds_of_successor?_eq_some goesOn

/-- What holds of the first generation and is handed on holds of all of them. -/
theorem of_mem_generations
    {holds : List (Member α) → Prop}
    {remaining : Nat}
    (atStart : holds members)
    (handedOn :
      ∀ earlier later, Succeeds γ candidates parameters earlier later →
        holds earlier → holds later) :
    ∀ generation ∈ generations candidates parameters remaining members trace source,
      holds generation := by
  refine List.IsChain.induction holds _ (isChain_generations remaining members trace source)
    handedOn fun notEmpty => ?_
  have isFirst := head?_generations candidates parameters remaining members trace source
  rw [List.head?_eq_some_head notEmpty] at isFirst
  rwa [Option.some.inj isFirst]

/-- A point of the history tells of the fittest member and of the least violation of the first
front. -/
def Tells (candidates : Candidates α) (members : List (Member α)) (point : ConvergencePoint α) :
    Prop :=
  ∃ leader,
    leader? members (layeringOf candidates members).first = some leader ∧
      candidates.traceValue leader.fitness = .ok point.objectiveValue ∧
      point.constraintViolation = leastViolation members (layeringOf candidates members).first

/-- What the end of a run is to its generations. -/
structure Closes (candidates : Candidates α) (course : List (List (Member α)))
    (earlier : List (ConvergencePoint α)) (ending : Ending α) : Prop where
  told :
    ∃ points,
      ending.trace.history = points.reverse ++ earlier ∧
        List.Forall₂ (Tells candidates) course points
  last : course.getLast? = some ending.members
  isLayering : ending.layering = layeringOf candidates ending.members

/-- A run that returns tells of its first generation, and then it ends or goes on. -/
theorem of_evolve_eq_ok
    {remaining : Nat}
    {ending : Ending α}
    (returned : evolve candidates parameters remaining members trace source = .ok ending) :
    ∃ point,
      Tells candidates members point ∧
        ((ending.members = members ∧ ending.layering = layeringOf candidates members ∧
            ending.trace.history = point :: trace.history ∧
            (successor? candidates parameters members trace source = none ∨ remaining = 0)) ∨
          ∃ further next current, ∃ rest : γ,
            remaining = further + 1 ∧
              successor? candidates parameters members trace source =
                some (next, current, rest) ∧
              current.history = point :: trace.history ∧
              evolve candidates parameters further next current rest = .ok ending) := by
  unfold evolve at returned
  dsimp only at returned
  split at returned
  · cases returned
  · rename_i leader isLeader
    obtain ⟨recorded, isRecorded, returned⟩ := bind_eq_ok returned
    obtain ⟨value, isValue, isPoint⟩ := bind_eq_ok isRecorded
    have tells :
        Tells candidates members
          ⟨trace.generations, value,
            leastViolation members (layeringOf candidates members).first,
            trace.watch.lookAtClock.1⟩ :=
      ⟨leader, isLeader, isValue, rfl⟩
    cases isPoint
    refine ⟨_, tells, ?_⟩
    simp only [successor?, layeringOf, isLeader, isRecorded]
    split at returned
    · rename_i stop isStop
      cases returned
      exact .inl ⟨rfl, rfl, rfl, .inl (by simp [isStop])⟩
    · rename_i goesOn
      split at returned
      · cases returned
        exact .inl ⟨rfl, rfl, rfl, .inr rfl⟩
      · obtain ⟨added, areAdded, returned⟩ := bind_eq_ok returned
        exact .inr ⟨_, _, _, _, rfl, by simp [goesOn, areAdded], rfl, returned⟩

/-- A run that returns has told of all its generations and ends with the last one. -/
theorem closes_of_evolve_eq_ok
    {remaining : Nat}
    {ending : Ending α}
    (returned : evolve candidates parameters remaining members trace source = .ok ending) :
    Closes candidates (generations candidates parameters remaining members trace source)
      trace.history ending := by
  fun_induction generations with
  | case1 remaining members trace source isLast =>
      obtain ⟨point, tells, ⟨areMembers, isLayering, isHistory, -⟩ | ⟨_, _, _, _, _, goesOn, -⟩⟩ :=
        of_evolve_eq_ok returned
      · rw [← areMembers] at tells isLayering ⊢
        exact ⟨⟨[point], isHistory, .cons tells .nil⟩, rfl, isLayering⟩
      · cases isLast.symm.trans goesOn
  | case2 members trace source next current rest goesOn =>
      obtain ⟨point, tells, ⟨areMembers, isLayering, isHistory, -⟩ | ⟨_, _, _, _, isSucc, -⟩⟩ :=
        of_evolve_eq_ok returned
      · rw [← areMembers] at tells isLayering ⊢
        exact ⟨⟨[point], isHistory, .cons tells .nil⟩, rfl, isLayering⟩
      · cases isSucc
  | case3 members trace source next current rest goesOn further inductionHypothesis =>
      obtain ⟨point, tells, ⟨-, -, -, isLast | isSucc⟩ |
          ⟨_, _, _, _, isSucc, isSuccessor, isHistory, returnedLater⟩⟩ :=
        of_evolve_eq_ok returned
      · cases goesOn.symm.trans isLast
      · cases isSucc
      · cases isSucc
        cases goesOn.symm.trans isSuccessor
        obtain ⟨⟨points, areTold, areAll⟩, isLast, isLayering⟩ := inductionHypothesis returnedLater
        refine ⟨⟨point :: points, ?_, .cons tells areAll⟩, ?_, isLayering⟩
        · rw [areTold, isHistory, List.reverse_cons, List.append_assoc, List.singleton_append]
        · rw [List.getLast?_cons, isLast, Option.getD_some]

/-- The generations of a solve that starts with some members. -/
def course (candidates : Candidates α) (parameters : GeneticParameters α) (watch : Watch α)
    (members : List (Member α)) (remaining : γ) : List (List (Member α)) :=
  generations candidates parameters parameters.maxIterations members
    (.start watch.lookAtFlag.2) remaining

section Solving

variable {δ : Type} [SeededSource δ α] {problem : Problem α} {watch : Watch α}
  {outcome : Solution α}

/-- Everything that a run needs before its first generation is there, and its members are. -/
structure IsSetUp (problem : Problem α) (parameters : GeneticParameters α)
    (candidates : Candidates α) (source : δ) (population : List (List α)) (remaining : δ)
    (members : List (Member α)) : Prop
    extends Genetic.IsSetUp problem parameters candidates source population remaining where
  evaluated : membersOf candidates parameters population = .ok members

/-- A solve that returns, and was not cancelled before it began, shows a member of the first front
of the last generation of a run, and the members of that front as alternatives. -/
theorem exists_shows_of_solve_eq_ok
    [Elementary α]
    (started : watch.lookAtFlag.1 = false)
    (solved : solve δ problem parameters watch = .ok outcome) :
    ∃ candidates population members ending primary details, ∃ source remaining : δ,
      IsSetUp problem parameters candidates source population remaining members ∧
        evolve candidates parameters parameters.maxIterations members
            (.start watch.lookAtFlag.2) remaining = .ok ending ∧
        primary? candidates ending = some primary ∧
        alternatives candidates ending = .ok outcome.alternatives ∧
        Shows candidates .pareto primary ending.trace ending.stop
          (details ++ endDetails parameters ending.trace ending.stop) outcome := by
  unfold solve at solved
  simp only [started, Bool.false_eq_true, ↓reduceIte] at solved
  obtain ⟨candidates, isPrepared, solved⟩ := bind_eq_ok solved
  obtain ⟨source, isSource, solved⟩ := bind_eq_ok solved
  obtain ⟨⟨population, remaining⟩, isPopulated, solved⟩ := bind_eq_ok solved
  obtain ⟨members, areMembers, solved⟩ := bind_eq_ok solved
  obtain ⟨ending, evolved, solved⟩ := bind_eq_ok solved
  split at solved
  · cases solved
  · rename_i primary isPrimary
    obtain ⟨others, areOthers, solved⟩ := bind_eq_ok solved
    obtain ⟨rfl, isShown⟩ := of_solution_eq_ok solved
    exact ⟨candidates, population, members, ending, primary, _, source, remaining,
      ⟨⟨settled_eq_ok isPrepared, mapError_eq_ok isSource, isPopulated⟩,
        mapError_eq_ok areMembers⟩, mapError_eq_ok evolved, isPrimary, mapError_eq_ok areOthers,
      isShown⟩

/-- The history of a solve that returns has a point for each generation of its run. -/
theorem exists_told_of_solve_eq_ok
    [Elementary α]
    (started : watch.lookAtFlag.1 = false)
    (solved : solve δ problem parameters watch = .ok outcome) :
    ∃ candidates population members, ∃ source remaining : δ,
      IsSetUp problem parameters candidates source population remaining members ∧
        List.Forall₂ (Tells candidates) (course candidates parameters watch members remaining)
          outcome.account.history := by
  obtain ⟨candidates, population, members, ending, primary, details, source, remaining, isSetUp,
    evolved, -, -, isShown⟩ := exists_shows_of_solve_eq_ok started solved
  obtain ⟨⟨points, arePoints, areTold⟩, -, -⟩ := closes_of_evolve_eq_ok evolved
  have isHistory : outcome.account.history = points := by
    rw [isShown.isAccount, arePoints, Trace.start, List.append_nil, List.reverse_reverse]
  exact ⟨candidates, population, members, source, remaining, isSetUp, isHistory ▸ areTold⟩

/-- A solve whose run ends with a member that can be told of gives that member back. -/
theorem exists_solve_eq_ok
    [Elementary α]
    {population : List (List α)}
    {members : List (Member α)}
    {source remaining : δ}
    {ending : Ending α}
    {primary : Member α}
    {others : List (Alternative α)}
    (isSetUp : IsSetUp problem parameters candidates source population remaining members)
    (started : watch.lookAtFlag.1 = false)
    (evolved :
      evolve candidates parameters parameters.maxIterations members
          (.start watch.lookAtFlag.2) remaining = .ok ending)
    (isPrimary : primary? candidates ending = some primary)
    (areOthers : alternatives candidates ending = .ok others)
    (haveSensitivity :
      ∃ sensitivity,
        Sensitivity.around candidates.problem
            ⟨parameters.tolerance, parameters.defaultBounds, Sensitivity.usualStep⟩
            (candidates.assignment primary.vector) = .ok sensitivity)
    (haveViolations : ∃ missed, candidates.violations primary.vector = .ok missed)
    (haveValues : ∃ values, candidates.decode primary.vector = .ok values) :
    ∃ outcome,
      solve δ problem parameters watch = .ok outcome ∧
        outcome.account.history = ending.trace.history.reverse := by
  obtain ⟨sensitivity, isSensitivity⟩ := haveSensitivity
  obtain ⟨missed, areMissed⟩ := haveViolations
  obtain ⟨values, areValues⟩ := haveValues
  unfold solve solution
  simp only [started, isSetUp.prepared, isSetUp.seeded, isSetUp.populated, isSetUp.evaluated,
    evolved, isPrimary, areOthers, isSensitivity, areMissed, areValues, settled,
    Except.mapError, bind, Except.bind, pure, Except.pure, Bool.false_eq_true, ↓reduceIte]
  split
  all_goals exact ⟨_, rfl, rfl⟩

end Solving

end Pareto

end Optima
