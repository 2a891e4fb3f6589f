import Optima.Proofs.Problem.Feasibility
import Optima.Proofs.Scalar.Double

namespace Optima

/-!
# Tests of feasibility

Whether an assignment is feasible can be asked in four ways: of each constraint, of all of them at
once, of the sum of their violations, and of the list of these.  All four go by the magnitudes of
the violations, and a magnitude is never negative and never NaN, whatever the values are.  So they
give the same answer.
-/

/-- Numbers of which two that are zero add up to zero, and two that are not negative only then. -/
class TallyingScalar (α : Type) [Scalar α] : Prop extends SummingScalar α where
  add_beq_zero (first second : α) :
    (first == 0) = true → (second == 0) = true → (first + second == 0) = true

instance : TallyingScalar Extended where
  add_beq_zero first second isZero isZeroToo := by
    rw [of_decide_eq_true isZero, of_decide_eq_true isZeroToo]
    decide +kernel

instance : TallyingScalar Float where
  isNaN_zero := by
    decide +kernel
  zero_le_infinity := by
    decide +kernel
  zero_le_strictStep := by
    decide +kernel
  add_nonneg _ _ := Double.add_nonneg
  infinity_beq_zero := by
    decide +kernel
  beq_zero_of_add _ _ := Double.beq_zero_of_add
  add_beq_zero _ _ := Double.add_beq_zero

variable {α : Type} [Scalar α]

/-- Numbers that are not negative add up to zero exactly where each of them is zero. -/
theorem TallyingScalar.foldl_add_beq_zero_iff
    [TallyingScalar α]
    {numbers : List α}
    {start : α}
    (isStart : 0 ≤ start)
    (notNegative : ∀ number ∈ numbers, 0 ≤ number) :
    (numbers.foldl (· + ·) start == 0) = true ↔
      (start == 0) = true ∧ ∀ number ∈ numbers, (number == 0) = true := by
  induction numbers generalizing start with
  | nil =>
      simp
  | cons number rest inductionHypothesis =>
      rw [List.forall_mem_cons] at notNegative
      have notNegativeSum := MeasuringScalar.add_nonneg _ _ isStart notNegative.1
      rw [List.foldl_cons, inductionHypothesis notNegativeSum notNegative.2, List.forall_mem_cons,
        ← and_assoc]
      refine and_congr_left' ⟨?_, fun areZero => ?_⟩
      · exact SummingScalar.beq_zero_of_add _ _ isStart notNegative.1
      · exact TallyingScalar.add_beq_zero _ _ areZero.1 areZero.2

namespace Constraints

variable {tolerance : α} {assignment : Assignment α} {constraints : List (Constraint α)}
  {magnitudes : List α}

/-- The magnitudes by which an assignment violates constraints, one for each of them. -/
def AreMagnitudes
    (tolerance : α)
    (assignment : Assignment α)
    (constraints : List (Constraint α))
    (magnitudes : List α) : Prop :=
  List.Forall₂ (fun constraint magnitude =>
    constraint.violation tolerance assignment = .ok magnitude) constraints magnitudes

/-- The violations of constraints by magnitudes, without those that are zero. -/
def listed (constraints : List (Constraint α)) (magnitudes : List α) : List (Violation α) :=
  ((constraints.zip magnitudes).filter fun pair => !(pair.2 == 0)).map fun pair =>
    reported pair.1 pair.2

/-- Constraints that have values are violated by magnitudes. -/
theorem exists_areMagnitudes
    (tolerance : α)
    (areValued : ∀ constraint ∈ constraints, ∃ value, constraint.evaluate assignment = .ok value) :
    ∃ magnitudes, AreMagnitudes tolerance assignment constraints magnitudes := by
  induction constraints with
  | nil =>
      exact ⟨[], .nil⟩
  | cons constraint rest inductionHypothesis =>
      rw [List.forall_mem_cons] at areValued
      obtain ⟨magnitude, isMagnitude⟩ := Constraint.exists_violation_eq_ok tolerance areValued.1
      obtain ⟨magnitudes, areMagnitudes⟩ := inductionHypothesis areValued.2
      exact ⟨magnitude :: magnitudes, .cons isMagnitude areMagnitudes⟩

namespace AreMagnitudes

/-- No magnitude is negative. -/
theorem notNegative
    [MeasuringScalar α]
    (areMagnitudes : AreMagnitudes tolerance assignment constraints magnitudes) :
    ∀ magnitude ∈ magnitudes, 0 ≤ magnitude := by
  induction areMagnitudes with
  | nil =>
      exact nofun
  | cons isMagnitude _ inductionHypothesis =>
      exact List.forall_mem_cons.mpr
        ⟨Constraint.violation_nonneg isMagnitude, inductionHypothesis⟩

/-- Each constraint is found to be satisfied where its magnitude is zero. -/
theorem allHold_iff
    (areMagnitudes : AreMagnitudes tolerance assignment constraints magnitudes) :
    AllHold tolerance assignment constraints ↔
      ∀ magnitude ∈ magnitudes, (magnitude == 0) = true := by
  induction areMagnitudes with
  | nil =>
      simp [AllHold]
  | cons isMagnitude _ inductionHypothesis =>
      rw [AllHold, List.forall_mem_cons, List.forall_mem_cons, Constraint.HoldsOn, isMagnitude]
      exact and_congr (by simp) inductionHypothesis

/-- The total is the sum of the magnitudes. -/
theorem totalFrom_eq_ok
    (areMagnitudes : AreMagnitudes tolerance assignment constraints magnitudes)
    (start : α) :
    totalFrom tolerance assignment start constraints = .ok (magnitudes.foldl (· + ·) start) := by
  induction areMagnitudes generalizing start with
  | nil =>
      rfl
  | cons isMagnitude _ inductionHypothesis =>
      rw [totalFrom, isMagnitude]
      exact inductionHypothesis _

/-- What is listed is what has a magnitude other than zero, in order. -/
theorem violations_eq_ok
    [MeasuringScalar α]
    (areMagnitudes : AreMagnitudes tolerance assignment constraints magnitudes) :
    violations tolerance assignment constraints = .ok (listed constraints magnitudes) := by
  induction areMagnitudes with
  | nil =>
      rfl
  | @cons constraint magnitude rest others isMagnitude _ inductionHypothesis =>
      have isZero := NumericScalar.beq_iff_not_lt (Constraint.violation_nonneg isMagnitude)
      rw [violations, isMagnitude, inductionHypothesis]
      by_cases isPositive : 0 < magnitude
      · have notZero : (magnitude == 0) = false :=
          Bool.eq_false_iff.mpr fun is => isZero.mp is isPositive
        simp [listed, bind, Except.bind, pure, Except.pure, isPositive, notZero]
      · simp [listed, bind, Except.bind, pure, Except.pure, isPositive, isZero.mpr isPositive]

/-- Nothing is listed exactly where every magnitude is zero. -/
theorem listed_eq_nil_iff
    (areMagnitudes : AreMagnitudes tolerance assignment constraints magnitudes) :
    listed constraints magnitudes = [] ↔ ∀ magnitude ∈ magnitudes, (magnitude == 0) = true := by
  induction areMagnitudes with
  | nil =>
      simp [listed]
  | @cons constraint magnitude rest others _ _ inductionHypothesis =>
      rw [List.forall_mem_cons, ← inductionHypothesis]
      cases isZero : magnitude == 0 <;> simp [listed, isZero]

end AreMagnitudes

/--
The four tests of feasibility agree.  Constraints that have values are violated by magnitudes, none
of which is negative or NaN.  Listed are exactly those that are not zero, in order.  That all
constraints are found to be satisfied, that the total is zero, that nothing is listed, and that each
constraint is found to be satisfied by itself are one and the same.
-/
theorem feasibility_tests_agree
    [TallyingScalar α]
    (areValued : ∀ constraint ∈ constraints, ∃ value, constraint.evaluate assignment = .ok value) :
    ∃ magnitudes isFeasible total,
      AreMagnitudes tolerance assignment constraints magnitudes ∧
        (∀ magnitude ∈ magnitudes, 0 ≤ magnitude ∧ Scalar.isNaN magnitude = false) ∧
          feasible tolerance assignment constraints = .ok isFeasible ∧
            totalViolation tolerance assignment constraints = .ok total ∧
              violations tolerance assignment constraints = .ok (listed constraints magnitudes) ∧
                [isFeasible = true, (total == 0) = true, listed constraints magnitudes = [],
                  ∀ constraint ∈ constraints,
                    constraint.isSatisfied tolerance assignment = .ok true].TFAE := by
  obtain ⟨magnitudes, areMagnitudes⟩ := exists_areMagnitudes tolerance areValued
  obtain ⟨isFeasible, isVerdict⟩ := exists_feasible_eq_ok tolerance areValued
  have notNegative := areMagnitudes.notNegative
  refine ⟨magnitudes, isFeasible, magnitudes.foldl (· + ·) 0, areMagnitudes,
    fun magnitude member => ⟨notNegative magnitude member,
      NumericScalar.isNaN_right (notNegative magnitude member)⟩,
    isVerdict, areMagnitudes.totalFrom_eq_ok 0, areMagnitudes.violations_eq_ok, ?_⟩
  -- Each test says that every magnitude is zero.
  have feasible_iff : isFeasible = true ↔ ∀ magnitude ∈ magnitudes, (magnitude == 0) = true := by
    rw [← areMagnitudes.allHold_iff, ← feasible_eq_ok_true_iff, isVerdict, Except.ok.injEq]
  have total_iff :
      (magnitudes.foldl (· + ·) 0 == 0) = true ↔
        ∀ magnitude ∈ magnitudes, (magnitude == 0) = true := by
    rw [TallyingScalar.foldl_add_beq_zero_iff MeasuringScalar.zero_le_zero notNegative]
    exact and_iff_right ((NumericScalar.beq_iff_le _ _).mpr
      ⟨MeasuringScalar.zero_le_zero, MeasuringScalar.zero_le_zero⟩)
  have satisfied_iff :
      (∀ constraint ∈ constraints, constraint.isSatisfied tolerance assignment = .ok true) ↔
        ∀ magnitude ∈ magnitudes, (magnitude == 0) = true := by
    simp only [Constraint.isSatisfied_eq_ok_true_iff]
    exact areMagnitudes.allHold_iff
  rw [feasible_iff, total_iff, areMagnitudes.listed_eq_nil_iff, satisfied_iff]
  tfae_finish

section Samples

/-- A comparison of two doubles, without a tolerance of its own. -/
def demand (comparison : Comparison) (value target : Float) : Constraint Float where
  rule := .expression (.constant value)
  identifier := "demand"
  name := "demand"
  kind := .inequality
  comparison := comparison
  target := target
  tolerance := none
  description := ""

/-- NaN at most one, an infinity at its target, two below two, and an infinity that equals three. -/
def extremes : List (Constraint Float) :=
  [demand .atMost (0 / 0) 1, demand .atLeast Scalar.infinity Scalar.infinity, demand .below 2 2,
    demand .equal Scalar.infinity 3]

/-- The tests agree on doubles that are NaN or infinite, or lie on a target that is excluded. -/
theorem tests_agree_on_extremes :
    (∀ constraint ∈ extremes, ∃ value, constraint.evaluate {} = .ok value) ∧
      ∃ magnitudes isFeasible total,
        AreMagnitudes 0 {} extremes magnitudes ∧
          (∀ magnitude ∈ magnitudes, 0 ≤ magnitude ∧ Scalar.isNaN magnitude = false) ∧
            feasible 0 {} extremes = .ok isFeasible ∧
              totalViolation 0 {} extremes = .ok total ∧
                violations 0 {} extremes = .ok (listed extremes magnitudes) ∧
                  [isFeasible = true, (total == 0) = true, listed extremes magnitudes = [],
                    ∀ constraint ∈ extremes,
                      constraint.isSatisfied 0 {} = .ok true].TFAE := by
  have areValued : ∀ constraint ∈ extremes, ∃ value, constraint.evaluate {} = .ok value := by
    simp only [extremes, List.forall_mem_cons]
    exact ⟨⟨_, rfl⟩, ⟨_, rfl⟩, ⟨_, rfl⟩, ⟨_, rfl⟩, nofun⟩
  exact ⟨areValued, feasibility_tests_agree areValued⟩

example : ((demand .atMost (0 / 0) 1).magnitudeOf 0 (0 / 0) == 0) = true := by
  decide +kernel

end Samples

end Constraints

end Optima
