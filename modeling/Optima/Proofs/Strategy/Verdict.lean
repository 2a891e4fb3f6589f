import Mathlib
import Optima.Proofs.Backtracking.Budget
import Optima.Proofs.Backtracking.Exhaustive
import Optima.Proofs.Backtracking.Verdict
import Optima.Proofs.Evolution.Budget
import Optima.Proofs.Evolution.Containment
import Optima.Proofs.Evolution.Verdict
import Optima.Proofs.Routing.Verdict
import Optima.Proofs.Scheduling.Budget
import Optima.Proofs.Scheduling.Verdict
import Optima.Strategy.Solve

namespace Optima

/-!
# What every search keeps to

Whichever of five strategies is used, its limits hold, and so does what it claims.
-/

/-!
## Every search honours its limits

Five strategies search under a limit on iterations, a limit on time and a flag.  However the
clock and the flag behave, a search takes no more iterations than it may, names a limit only
where it was reached, and has nothing to tell where it says that it was cancelled.
-/

namespace Strategy

variable {α : Type} [Scalar α]

/-- The loops of a strategy come to their end by themselves: running them with a larger bound on
their turns than the limit on iterations changes nothing. -/
def EndsByItself (γ : Type) [SeededSource γ α] : Parameters α → Prop
  | .genetic given =>
    ∀ (candidates : Candidates α) (population : List (List α)) (watch : Watch α) (source : γ)
        (extra : Nat),
      Genetic.evolve candidates given (given.maxIterations + extra) population (.start watch)
          source =
        Genetic.evolve candidates given given.maxIterations population (.start watch) source
  | .pareto given =>
    ∀ (candidates : Candidates α) (members : List (Evolution.Member α)) (watch : Watch α)
        (source : γ) (extra : Nat),
      Pareto.evolve candidates given (given.maxIterations + extra) members (.start watch) source =
        Pareto.evolve candidates given given.maxIterations members (.start watch) source
  | .routing given =>
    ∀ (fleet : Fleet α) (progress : Routing.Progress α) (extra : Nat),
      Routing.improve fleet ⟨given.maxIterations, given.timeLimit⟩ (given.maxIterations + extra)
          progress =
        Routing.improve fleet ⟨given.maxIterations, given.timeLimit⟩ given.maxIterations progress
  | .backtracking _ | .scheduling _ | .linearProgramming _ => True

variable (γ : Type) [SeededSource γ α]

theorem endsByItself
    (parameters : Parameters α) :
    EndsByItself γ parameters := by
  cases parameters with
  | genetic given =>
      exact fun _ _ _ _ extra => Genetic.evolve_add (Nat.le_add_left _ _) extra
  | pareto given =>
      exact fun _ _ _ _ extra => Pareto.evolve_add (Nat.le_add_left _ _) extra
  | routing given =>
      exact fun _ _ extra => Routing.improve_add (Nat.le_add_left _ _) extra
  | backtracking given => trivial
  | scheduling given => trivial
  | linearProgramming given => trivial

/--
The loops of a search come to their end by themselves.  A solution takes no more iterations
than it may; it names the limit on iterations only where they are used up or the flag was
up, and then says so, and the limit on time only where the clock had shown it; and it has
neither values nor violations nor alternatives where it says that it was cancelled.
-/
theorem run_honours_limits
    [Elementary α]
    (parameters : Parameters α)
    (isSearch : parameters.algorithm ≠ .linearProgramming)
    (someIteration : 0 < parameters.shared.maxIterations) :
    EndsByItself γ parameters ∧
      ∀ (problem : AnyProblem α) (watch : Watch α) (outcome : Solution α),
        run γ parameters problem watch = .ok outcome →
          outcome.Honours parameters.shared watch := by
  refine ⟨endsByItself γ parameters, fun problem watch outcome solved => ?_⟩
  cases parameters with
  | backtracking given => exact Backtracking.solve_honours solved
  | genetic given => exact Genetic.solve_honours someIteration solved
  | pareto given => exact Pareto.solve_honours someIteration solved
  | linearProgramming given => exact absurd rfl isSearch
  | routing given =>
      cases problem with
      | routing problem => exact Routing.solve_honours solved
      | generic problem => cases solved
      | scheduling problem => cases solved
  | scheduling given =>
      cases problem with
      | scheduling problem => exact Scheduling.solve_honours solved
      | generic problem => cases solved
      | routing problem => cases solved

section Hurried

/-- A search through all assignments that may take one unit of time. -/
def hurriedParameters : Parameters Extended :=
  .backtracking { Backtracking.randomParameters true with timeLimit := some 1 }

/-- A watch whose clock moves on by a quarter at each look. -/
def quarterWatch : Watch Extended :=
  .start (fun look => .finite (look / 4)) fun _ => false

/-- The time is up after three values, one of which had made a solution. -/
theorem hurriedParameters_honour_limits :
    hurriedParameters.algorithm ≠ .linearProgramming ∧
      0 < hurriedParameters.shared.maxIterations ∧
      ∃ outcome,
        run MixingGenerator hurriedParameters (.generic Backtracking.reciprocalProblem)
            quarterWatch = .ok outcome ∧
          outcome.status = .timeLimit ∧
          outcome.Honours hurriedParameters.shared quarterWatch := by
  have told :
      (run MixingGenerator hurriedParameters (.generic Backtracking.reciprocalProblem)
        quarterWatch).toOption.map (·.status) = some .timeLimit := by
    decide +kernel
  obtain ⟨outcome, solved, isStatus⟩ := exists_eq_ok_of_map_toOption told
  have honours :=
    (run_honours_limits MixingGenerator hurriedParameters nofun (by decide)).2 _ _ outcome solved
  exact ⟨nofun, by decide, outcome, solved, isStatus, honours⟩

end Hurried

end Strategy

/-!
## A positive status is never wrong

Five strategies claim an assignment, routes or a schedule by a positive status.  On whichever way
a search ends, what is claimed has then been judged as a whole: nothing is missing, nothing is
reported as violated, and nothing is violated.
-/

namespace Strategy

variable {α : Type} [Scalar α]

/-- What a strategy relies on in a problem.  Where a search goes through vectors, their components
stand for values of sound variables.  Backtracking also checks constraints by the names of variables
before all of these have values, and enters them in another order than they are told in. -/
def ReliesOn : Parameters α → Problem α → Prop
  | .backtracking _, problem =>
    (∀ decision ∈ problem.decisions, decision.fault? = none) ∧ problem.variableNames.Nodup ∧
      ∀ constraint ∈ problem.constraints, constraint.rule.IsExtensional
  | .genetic _, problem | .pareto _, problem =>
    ∀ decision ∈ problem.decisions, decision.fault? = none
  | .routing _, _ | .scheduling _, _ | .linearProgramming _, _ => True

/-- An outcome is complete and violates nothing, as far as the strategy has something to tell. -/
def IsSolvedBy [Elementary α] : Parameters α → AnyProblem α → Solution α → Prop
  | .backtracking given, problem, outcome =>
    problem.base.IsSolvedBy given.defaultBounds given.tolerance outcome
  | .genetic given, problem, outcome | .pareto given, problem, outcome =>
    problem.base.IsSolvedBy given.defaultBounds given.tolerance outcome
  | .routing given, .routing problem, outcome =>
    problem.IsSolvedBy given.averageSpeed given.tolerance outcome
  | .scheduling given, .scheduling problem, outcome => problem.IsSolvedBy given.tolerance outcome
  | _, _, _ => False

/-- Whatever stops a search, an outcome with a positive status has no violations and lacks nothing,
and no constraint is violated by what the outcome tells. -/
theorem run_is_never_wrong
    (γ : Type)
    [SeededSource γ α]
    [LawfulSource γ α]
    [CountingScalar α]
    [SummingScalar α]
    [Elementary α]
    (parameters : Parameters α)
    (isSearch : parameters.algorithm ≠ .linearProgramming)
    (problem : AnyProblem α)
    (isReliable : ReliesOn parameters problem.base)
    (watch : Watch α)
    (outcome : Solution α)
    (solved : run γ parameters problem watch = .ok outcome)
    (isPositive : outcome.status.IsPositive) :
    IsSolvedBy parameters problem outcome := by
  cases parameters with
  | backtracking given =>
      obtain ⟨faultless, distinct, areExtensional⟩ := isReliable
      exact Backtracking.isSolvedBy_of_solve_eq_ok distinct faultless areExtensional solved
        isPositive
  | genetic given =>
      exact Evolution.isSolvedBy_of_genetic_solve_eq_ok isReliable solved isPositive
  | pareto given =>
      exact Evolution.isSolvedBy_of_pareto_solve_eq_ok isReliable solved isPositive
  | linearProgramming given => exact absurd rfl isSearch
  | routing given =>
      cases problem with
      | routing problem => exact Routing.isSolvedBy_of_solve_eq_ok solved isPositive
      | generic problem => cases solved
      | scheduling problem => cases solved
  | scheduling given =>
      cases problem with
      | scheduling problem => exact Scheduling.isSolvedBy_of_solve_eq_ok solved isPositive
      | generic problem => cases solved
      | routing problem => cases solved

/-- The assignment that is known when the time is up violates nothing. -/
theorem hurriedParameters_are_never_wrong :
    hurriedParameters.algorithm ≠ .linearProgramming ∧
      ReliesOn hurriedParameters Backtracking.reciprocalProblem ∧
      ∃ outcome,
        run MixingGenerator hurriedParameters (.generic Backtracking.reciprocalProblem)
            quarterWatch = .ok outcome ∧
          outcome.status.IsPositive ∧
          IsSolvedBy hurriedParameters (.generic Backtracking.reciprocalProblem) outcome := by
  have told :
      (run MixingGenerator hurriedParameters (.generic Backtracking.reciprocalProblem)
        quarterWatch).toOption.map (·.status) = some .timeLimit := by
    decide +kernel
  obtain ⟨outcome, solved, isStatus⟩ := exists_eq_ok_of_map_toOption told
  have wellPosed := Backtracking.reciprocalProblem_wellPosed
  have isReliable : ReliesOn hurriedParameters Backtracking.reciprocalProblem :=
    ⟨wellPosed.faultless, wellPosed.distinct, fun constraint member =>
      (Backtracking.reciprocalProblem_isTame.constraints constraint member).isExtensional⟩
  have isPositive : outcome.status.IsPositive := by
    rw [isStatus]
    trivial
  exact ⟨nofun, isReliable, outcome, solved, isPositive,
    run_is_never_wrong MixingGenerator hurriedParameters nofun (.generic _) isReliable quarterWatch
      outcome solved isPositive⟩

section Misread

/-- A search for the first assignment that tries large values first. -/
def descendingParameters : Parameters Extended :=
  .backtracking { Backtracking.randomParameters false with valueOrdering := .descending }

/-- Two numbers of one name, whose square is to be zero. -/
def twinProblem : Problem Extended where
  identifier := "twins"
  name := ""
  kind := .constraintSatisfaction
  description := ""
  objectives := [⟨.expression (.variable "x"), "o", "f", .minimize, 1, 1, ""⟩]
  constraints :=
    [⟨.expression (.power (.variable "x") (.finite 2)), "c", "zero", .inequality, .atMost, 0, some 0,
      ""⟩]
  decisions := [Backtracking.wholeVariable "x" 0 1, Backtracking.wholeVariable "x" 0 1]
  parameters := none
  status := .pending

/-- Zero if a name is entered first, and one if another name is. -/
def readsFirst (name : String) : Closure Extended :=
  fun assignment => .ok (.number (if assignment.names.head? = some name then 0 else 1))

/-- A number and a fixed one, of which the fixed one is to be entered first. -/
def entryOrderProblem : Problem Extended :=
  { twinProblem with
    constraints :=
      [⟨.closure (readsFirst "y"), "c", "first", .inequality, .atMost, 0, some 0, ""⟩]
    decisions := [Backtracking.wholeVariable "x" 0 1, Backtracking.wholeVariable "y" 1 1] }

/-- Where variables share a name, or a closure reads the order of the entries, a constraint that is
found to hold on the way is violated by the assignment that is told. -/
theorem twinProblem_violates_with_positive_status :
    (∃ outcome,
        run MixingGenerator descendingParameters (.generic twinProblem) quarterWatch =
            .ok outcome ∧
          outcome.status = .feasible ∧
          outcome.violations.map (·.magnitude) = [1]) ∧
      ∃ outcome,
        run MixingGenerator descendingParameters (.generic entryOrderProblem) quarterWatch =
            .ok outcome ∧
          outcome.status = .feasible ∧
          outcome.violations.map (·.magnitude) = [1] := by
  have told (problem : Problem Extended)
      (isTold :
        (run MixingGenerator descendingParameters (.generic problem) quarterWatch).toOption.map
          (fun outcome => (outcome.status, outcome.violations.map (·.magnitude))) =
          some (.feasible, [1])) :
      ∃ outcome,
        run MixingGenerator descendingParameters (.generic problem) quarterWatch = .ok outcome ∧
          outcome.status = .feasible ∧
          outcome.violations.map (·.magnitude) = [1] := by
    obtain ⟨outcome, solved, isOutcome⟩ := exists_eq_ok_of_map_toOption isTold
    obtain ⟨isStatus, areMagnitudes⟩ := Prod.mk.inj isOutcome
    exact ⟨outcome, solved, isStatus, areMagnitudes⟩
  exact ⟨told _ (by decide +kernel), told _ (by decide +kernel)⟩

end Misread

end Strategy

end Optima
