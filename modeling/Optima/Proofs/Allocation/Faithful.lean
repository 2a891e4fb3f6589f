import Mathlib.Algebra.Order.BigOperators.Group.Finset
import Optima.Proofs.Allocation.Plans

namespace Optima

/-!
# The program of an allocation is faithful

The program that an allocation is solved by allows the plans that serve all demands and no
others, and its total cost is what a plan costs.  Where all capacity together falls short
the allocation is told to be infeasible, and no plan serves all demands.
-/

/-- The terms of a linear expression are added to what is before them. -/
theorem Expr.evaluateTerms_eq_ok
    {α : Type}
    [Scalar α]
    [ExactScalar α]
    {assignment : Assignment α}
    {numbers : String → α}
    {terms : List (String × α)}
    (areRead : ∀ term ∈ terms, assignment.read term.1 = .ok (numbers term.1))
    (total : α) :
    evaluateTerms assignment total terms =
      .ok (total + (terms.map fun term => term.2 * numbers term.1).sum) := by
  induction terms generalizing total with
  | nil =>
      rw [List.map_nil, List.sum_nil, add_zero]
      rfl
  | cons term rest inductionHypothesis =>
      obtain ⟨isRead, restRead⟩ := List.forall_mem_cons.mp areRead
      have restSum := inductionHypothesis restRead (total + term.2 * numbers term.1)
      rw [List.map_cons, List.sum_cons, ← add_assoc]
      simpa only [evaluateTerms, isRead, bind, Except.bind] using restSum

namespace Allocation

variable {α : Type} [Scalar α] [ArithmeticScalar α] {allocation : Allocation α}

/-- A sum over all suppliers with all demands is taken supplier by supplier. -/
theorem sum_combinations
    (term : Supplier α → Requisition α → α) :
    (allocation.combinations.map fun (supplier, requisition) => term supplier requisition).sum =
      ∑ supplier : Fin allocation.suppliers.length,
        ∑ requisition : Fin allocation.requisitions.length,
          term (allocation.suppliers.get supplier) (allocation.requisitions.get requisition) := by
  have inner (supplier : Supplier α) :
      ∑ requisition : Fin allocation.requisitions.length,
          term supplier (allocation.requisitions.get requisition) =
        (allocation.requisitions.map (term supplier)).sum :=
    Fin.sum_univ_fun_getElem allocation.requisitions (term supplier)
  simp only [inner]
  have outer :=
    Fin.sum_univ_fun_getElem allocation.suppliers fun supplier =>
      (allocation.requisitions.map (term supplier)).sum
  refine Eq.trans ?_ outer.symm
  rw [combinations, List.map_flatMap, List.flatMap_def, List.sum_flatten, List.map_map]
  simp only [Function.comp_def, List.map_map]

/-- The costs of all quantities add up to the cost of the plan that they tell. -/
theorem sum_costs
    (wellNamed : allocation.IsWellNamed)
    (numbers : String → α) :
    (allocation.costs.entries.map fun term => term.2 * numbers term.1).sum =
      (allocation.planOf numbers).cost := by
  rw [entries_costs wellNamed, List.map_append, List.sum_append, List.map_map]
  refine congrArg₂ (· + ·) (sum_combinations fun supplier requisition =>
    supplier.unitCost * numbers (quantityName supplier.identifier requisition.identifier)) ?_
  cases isPenalty : allocation.penalty with
  | none =>
      rfl
  | some penalty =>
      have leftSum :=
        Fin.sum_univ_fun_getElem allocation.requisitions fun requisition =>
          penalty * numbers (unmetName requisition.identifier)
      rw [List.map_map]
      refine leftSum.symm.trans (Finset.sum_congr rfl fun requisition _ => ?_)
      rw [unmet_planOf numbers requisition (by rw [isPenalty]; rfl)]
      rfl

/-- On numbers that an assignment gives to all variables, the total cost is that of the plan
that they tell. -/
theorem evaluate_totalCost
    (wellNamed : allocation.IsWellNamed)
    (identifier : String)
    {assignment : Assignment α}
    {numbers : String → α}
    (areRead : ∀ place : allocation.Place,
      place.IsOpen → assignment.read place.name = .ok (numbers place.name)) :
    (allocation.totalCost identifier).evaluate assignment =
      .ok (allocation.planOf numbers).cost := by
  have termsRead :
      ∀ term ∈ allocation.costs.entries, assignment.read term.1 = .ok (numbers term.1) := by
    intro term member
    obtain ⟨place, isOpen, isName, -⟩ := exists_place_of_mem_costs wellNamed member
    rw [← isName]
    exact areRead place isOpen
  have isTotal := Expr.evaluateTerms_eq_ok termsRead 0
  rw [sum_costs wellNamed, zero_add] at isTotal
  exact isTotal

/-- Where all capacity together falls short, no plan serves all demands. -/
theorem not_serves_of_isShort
    (isShort : allocation.isShort = true)
    (plan : allocation.Plan) :
    ¬ plan.Serves := by
  intro serves
  rw [Allocation.isShort, Bool.and_eq_true, decide_eq_true_iff, Option.isNone_iff_eq_none] at isShort
  obtain ⟨noPenalty, isBelow⟩ := isShort
  apply not_le_of_gt isBelow
  calc
    allocation.totalDemand
      = ∑ requisition : Fin allocation.requisitions.length,
          allocation.requisitions[requisition].quantity := by
        rw [totalDemand, Scalar.total_eq_sum]
        exact (Fin.sum_univ_fun_getElem allocation.requisitions _).symm
    _ = ∑ requisition, ∑ supplier, plan.given supplier requisition := by
        apply Finset.sum_congr rfl
        intro requisition _
        rw [← serves.meets_quantity requisition, serves.unmet_eq_zero noPenalty requisition,
          add_zero]
    _ = ∑ supplier, ∑ requisition, plan.given supplier requisition := Finset.sum_comm
    _ ≤ ∑ supplier : Fin allocation.suppliers.length, allocation.suppliers[supplier].capacity :=
        Finset.sum_le_sum fun supplier _ => serves.within_capacity supplier
    _ = allocation.totalCapacity := by
        rw [totalCapacity, Scalar.total_eq_sum]
        exact Fin.sum_univ_fun_getElem allocation.suppliers _

section Built

variable {fresh : Nat → String} {base : Problem α} {tolerance : α} {program : LinearProgram α}

/-- Where a problem brings no variables and constraints of its own, what is built is the program
of the allocation. -/
theorem isProgram_of_ofProblem_eq_ok
    (wellNamed : allocation.IsWellNamed)
    (noDecisions : base.decisions = [])
    (noConstraints : base.constraints = [])
    (built :
      LinearProgram.ofProblem (allocation.problem fresh base) tolerance = .ok program) :
    allocation.IsProgram program := by
  obtain ⟨areColumns, -, areRows⟩ := LinearProgram.of_ofProblem_eq_ok built
  simp only [problem, noDecisions, noConstraints, List.append_nil] at areColumns areRows
  refine ⟨?_, ?_⟩
  · rw [areColumns]
    exact entries_columnsOf_decisions wellNamed fresh
  · exact Except.ok.inj (areRows.symm.trans (rowsOf_rows wellNamed fresh tolerance))

/-- The unit costs and the penalty are finite. -/
structure IsPayable (allocation : Allocation α) : Prop where
  unitCost : ∀ supplier ∈ allocation.suppliers, Scalar.isFinite supplier.unitCost = true
  penalty : ∀ penalty, allocation.penalty = some penalty → Scalar.isFinite penalty = true

/-- The total cost is linear over the open places. -/
theorem isLinearOver_totalCost
    (wellNamed : allocation.IsWellNamed)
    (isPayable : allocation.IsPayable)
    (identifier : String) :
    (allocation.totalCost identifier).rule.IsLinearOver (allocation.limits.map (·.1)) := by
  refine ⟨_, rfl, ⟨?_, Scalar.isFinite_zero⟩, ?_⟩
  · intro value isValue
    obtain ⟨term, member, rfl⟩ := List.mem_map.mp isValue
    obtain ⟨place, -, -, isCost⟩ := exists_place_of_mem_costs wellNamed member
    rcases isCost with ⟨supplier, isSupplier, isCost⟩ | isPenalty
    · rw [← isCost]
      exact isPayable.unitCost supplier isSupplier
    · exact isPayable.penalty _ isPenalty
  · intro name isName
    obtain ⟨term, member, rfl⟩ := List.mem_map.mp (List.mem_eraseDups.mp isName)
    obtain ⟨place, isOpen, isPlace, -⟩ := exists_place_of_mem_costs wellNamed member
    exact List.mem_map.mpr ⟨_, mem_limits_iff.mpr ⟨place, isOpen, rfl⟩, isPlace⟩

/-- Where costs are finite and the other objectives linear, the program can be built. -/
theorem exists_ofProblem_eq_ok
    (wellNamed : allocation.IsWellNamed)
    (isPayable : allocation.IsPayable)
    (noDecisions : base.decisions = [])
    (noConstraints : base.constraints = [])
    (areLinear : ∀ objective ∈ base.objectives,
      objective.rule.IsLinearOver (allocation.limits.map (·.1)))
    (areFinite : ∀ objective ∈ base.objectives, Scalar.isFinite objective.weight = true) :
    ∃ program,
      LinearProgram.ofProblem (allocation.problem fresh base) tolerance = .ok program := by
  have noCategorical :
      ((allocation.decisions fresh).filter fun decision => decision.kind = .categorical) = [] := by
    rw [List.filter_eq_nil_iff]
    intro decision member
    obtain ⟨limit, -, rfl⟩ := List.mem_map.mp member
    simp [quantity]
  have allLinear :
      ∀ objective ∈ allocation.totalCost (fresh allocation.limits.length) :: base.objectives,
        objective.rule.IsLinearOver (allocation.limits.map (·.1)) :=
    List.forall_mem_cons.mpr ⟨isLinearOver_totalCost wellNamed isPayable _, areLinear⟩
  obtain ⟨objective, isObjective, -⟩ :=
    LinearProgram.exists_objectiveOf_means (contains_of_mem_limits wellNamed fresh) allLinear
      (List.forall_mem_cons.mpr ⟨Scalar.isFinite_one, areFinite⟩)
      (LinearForm.isFinite_ofConstant Scalar.isFinite_zero) nofun
  have areRows := rowsOf_rows wellNamed fresh tolerance
  refine ⟨⟨LinearProgram.columnsOf (allocation.decisions fresh), objective,
    allocation.suppliers.map allocation.cap ++ allocation.requisitions.map allocation.ask⟩, ?_⟩
  simp [LinearProgram.ofProblem, problem, noDecisions, noConstraints, noCategorical,
    isObjective, areRows, bind, Except.bind, pure, Except.pure]

/-- Where nothing else is asked for, what the program minimizes is the cost of a plan. -/
theorem valueOn_objective
    (wellNamed : allocation.IsWellNamed)
    (isPayable : allocation.IsPayable)
    (noObjectives : base.objectives = [])
    (noDecisions : base.decisions = [])
    (built :
      LinearProgram.ofProblem (allocation.problem fresh base) tolerance = .ok program)
    {numbers : String → α}
    (areFinite : ∀ place : allocation.Place,
      place.IsOpen → Scalar.isFinite (numbers place.name) = true) :
    program.objective.valueOn numbers = (allocation.planOf numbers).cost := by
  obtain ⟨-, isObjective, -⟩ := LinearProgram.of_ofProblem_eq_ok built
  simp only [problem, noDecisions, noObjectives, List.append_nil] at isObjective
  obtain ⟨assignment, binds⟩ := exists_assignment_binds areFinite
  have isLinear :
      ∀ objective ∈ [allocation.totalCost (fresh allocation.limits.length)],
        objective.rule.IsLinearOver (allocation.limits.map (·.1)) :=
    List.forall_mem_singleton.mpr (isLinearOver_totalCost wellNamed isPayable _)
  obtain ⟨form, isForm, isFinite, reads, means⟩ :=
    LinearProgram.exists_objectiveOf_means (contains_of_mem_limits wellNamed fresh) isLinear
      (List.forall_mem_singleton.mpr Scalar.isFinite_one)
      (LinearForm.isFinite_ofConstant Scalar.isFinite_zero) nofun
  obtain rfl := Except.ok.inj (isForm.symm.trans isObjective)
  have areRead (place : allocation.Place) (isOpen : place.IsOpen) :
      assignment.read place.name = .ok (numbers place.name) := by
    have isBound := (binds place.name
      (List.mem_map.mpr ⟨_, mem_limits_iff.mpr ⟨place, isOpen, rfl⟩, rfl⟩)).1
    simp [Assignment.read, isBound]
  have isCost := evaluate_totalCost wellNamed (fresh allocation.limits.length) areRead
  obtain ⟨costForm, -, costMeans⟩ :=
    LinearProgram.exists_formOf_means (contains_of_mem_limits wellNamed fresh)
      (isLinearOver_totalCost wellNamed isPayable (fresh allocation.limits.length)) "" ""
  obtain ⟨value, isValue, isFiniteCost, -⟩ := costMeans.gives assignment numbers binds
  obtain rfl := Except.ok.inj (isValue.symm.trans isCost)
  obtain ⟨-, isSum⟩ :=
    (means assignment numbers binds).2 (fun _ => (allocation.planOf numbers).cost)
      (List.forall_mem_singleton.mpr isCost)
  obtain ⟨isFiniteSign, isSign⟩ := Scalar.fraction_neg (Scalar.isFinite_one (α := α))
  obtain ⟨isFiniteFactor, isFactor⟩ := Scalar.fraction_mul Scalar.isFinite_one isFiniteSign
  obtain ⟨-, isTerm⟩ := Scalar.fraction_mul isFiniteFactor isFiniteCost
  obtain ⟨isFiniteValue, isFraction⟩ :=
    LinearForm.fraction_valueOn isFinite fun name member => (binds name (reads name member)).2
  apply Scalar.eq_of_fraction_eq isFiniteValue isFiniteCost
  rw [isFraction, isSum]
  change _ - [Scalar.fraction (1 * -1 * (allocation.planOf numbers).cost)].sum = _
  rw [List.sum_singleton, isTerm, isFactor, isSign, LinearForm.fractionOn_ofConstant,
    Scalar.fraction_zero, Scalar.fraction_one]
  ring

end Built

/-- The program of an allocation is faithful: where no two quantities share a name, the numbers
that it allows are the plans that serve all demands, and the total cost is what a plan costs.
Where all capacity together falls short, the allocation is told to be infeasible and no plan
serves all demands. -/
theorem solve_is_faithful
    (allocation : Allocation α)
    (fresh : Nat → String)
    (base : Problem α)
    (noDecisions : base.decisions = [])
    (noConstraints : base.constraints = [])
    (parameters : LinearProgrammingParameters α)
    (watch : Watch α) :
    (allocation.IsWellNamed →
      (allocation.IsPayable →
        (∀ objective ∈ base.objectives,
          objective.rule.IsLinearOver (allocation.limits.map (·.1)) ∧
            Scalar.isFinite objective.weight = true) →
        ∃ program,
          LinearProgram.ofProblem (allocation.problem fresh base) parameters.tolerance =
            .ok program) ∧
      ∀ program,
        LinearProgram.ofProblem (allocation.problem fresh base) parameters.tolerance =
            .ok program →
          Set.BijOn allocation.planOf {numbers | program.IsFeasible numbers}
              {plan | plan.Serves} ∧
            ∀ numbers, program.IsFeasible numbers →
              (∀ identifier (assignment : Assignment α),
                assignment.Binds numbers program.columns.names →
                  (allocation.totalCost identifier).evaluate assignment =
                    .ok (allocation.planOf numbers).cost) ∧
              (allocation.IsPayable → base.objectives = [] →
                program.objective.valueOn numbers = (allocation.planOf numbers).cost)) ∧
    (allocation.isShort = true →
      allocation.solve base parameters fresh watch =
          .ok (LinearProgramming.withoutValues base .infeasible 0 [allocation.shortfall]
            allocation.totals) ∧
        ∀ plan : allocation.Plan, ¬ plan.Serves) := by
  refine ⟨fun wellNamed => ⟨fun isPayable areTame => ?_, fun program built => ?_⟩,
    fun isShort => ⟨?_, fun plan => not_serves_of_isShort isShort plan⟩⟩
  · exact exists_ofProblem_eq_ok wellNamed isPayable noDecisions noConstraints
      (fun objective member => (areTame objective member).1)
      (fun objective member => (areTame objective member).2)
  · have isProgram := isProgram_of_ofProblem_eq_ok wellNamed noDecisions noConstraints built
    refine ⟨isProgram.bijOn_planOf wellNamed, fun numbers isFeasible => ⟨?_, ?_⟩⟩
    · intro identifier assignment binds
      apply evaluate_totalCost wellNamed
      intro place isOpen
      have isBound := (binds _ (isProgram.mem_names_iff.mpr ⟨place, isOpen, rfl⟩)).1
      simp [Assignment.read, isBound]
    · intro isPayable noObjectives
      apply valueOn_objective wellNamed isPayable noObjectives noDecisions built
      intro place isOpen
      exact (isFeasible.columns _ (isProgram.mem_columns_iff.mpr ⟨place, isOpen, rfl⟩)).isFinite
  · rw [solve, if_pos isShort]
    rfl

section Stores

/-- A problem without variables, objectives and constraints. -/
def bareProblem : Problem Extended where
  identifier := "bare"
  name := ""
  kind := .resourceAllocation
  description := ""
  objectives := []
  constraints := []
  decisions := []
  parameters := none
  status := .pending

/-- Parameters under which all demand has to be met. -/
def strictParameters : LinearProgrammingParameters Extended where
  maxIterations := 1
  tolerance := 0
  timeLimit := none
  seed := none
  convergence := ⟨.objectiveChange, 0, 1⟩
  parallelization := ⟨false, 1, .masterSlave⟩
  defaultBounds := (0, 1)
  allowPartial := false
  unmetPenalty := 0

/-- Two stores, one of them cold, for two orders, the first of which has to be cooled. -/
def storeAllocation : Allocation Extended where
  suppliers := [⟨"r1", "", .finite 10, 1, ["cold"]⟩, ⟨"r2", "", .finite 5, .finite 2, []⟩]
  requisitions := [⟨"d1", "", .finite 8, ["cold"], 1⟩, ⟨"d2", "", .finite 4, [], 1⟩]
  penalty := none

/-- The cold store covers the first order, and each store half of the second. -/
def storePlan : storeAllocation.Plan where
  given supplier requisition :=
    if requisition.val = 0 then if supplier.val = 0 then .finite 8 else 0 else .finite 2
  unmet _ := 0

theorem storePlan_serves :
    storePlan.Serves where
  finite_given := by decide +kernel
  finite_unmet := by decide +kernel
  given_nonneg := by decide +kernel
  unmet_nonneg := by decide +kernel
  given_eq_zero := by decide +kernel
  unmet_eq_zero := fun _ _ => rfl
  within_capacity := by decide +kernel
  meets_quantity := by decide +kernel

/-- One store that holds less than what is ordered. -/
def smallAllocation : Allocation Extended where
  suppliers := [⟨"r1", "", .finite 3, 1, []⟩]
  requisitions := [⟨"d1", "", .finite 5, [], 1⟩]
  penalty := none

/-- The plan of the stores is told by numbers that their program allows, and costs what the
program minimizes; the small store is told to be infeasible, and no plan serves its order. -/
theorem storeAllocation_is_faithful :
    storeAllocation.IsWellNamed ∧
      (∃ program numbers,
        LinearProgram.ofProblem (storeAllocation.problem (fun _ => "") bareProblem) 0 =
            .ok program ∧
          program.IsFeasible numbers ∧ storeAllocation.planOf numbers = storePlan ∧
            program.objective.valueOn numbers = .finite 14) ∧
      smallAllocation.isShort = true ∧ ∀ plan : smallAllocation.Plan, ¬ plan.Serves := by
  have wellNamed : storeAllocation.IsWellNamed :=
    ⟨by decide +kernel, by decide +kernel, by decide +kernel⟩
  have isPayable : storeAllocation.IsPayable := ⟨by decide +kernel, nofun⟩
  have watch : Watch Extended := .start (fun _ => 0) fun _ => false
  obtain ⟨isFaithful, -⟩ :=
    solve_is_faithful storeAllocation (fun _ => "") bareProblem rfl rfl strictParameters watch
  obtain ⟨build, areFaithful⟩ := isFaithful wellNamed
  obtain ⟨program, built⟩ := build isPayable nofun
  obtain ⟨⟨-, -, areTold⟩, costs⟩ := areFaithful program built
  obtain ⟨numbers, isFeasible, isPlan⟩ := areTold storePlan_serves
  refine ⟨wellNamed, ⟨program, numbers, built, isFeasible, isPlan, ?_⟩, by decide +kernel, ?_⟩
  · rw [(costs numbers isFeasible).2 isPayable rfl, isPlan]
    decide +kernel
  · exact ((solve_is_faithful smallAllocation (fun _ => "") bareProblem rfl rfl strictParameters
      watch).2 (by decide +kernel)).2

/-- Two suppliers and two demands with distinct identifiers, of which two pairs share a name. -/
def crossedAllocation : Allocation Extended where
  suppliers := [⟨"a", "", .finite 10, 1, []⟩, ⟨"a_b", "", 1, .finite 2, []⟩]
  requisitions := [⟨"b_c", "", .finite 5, [], 1⟩, ⟨"c", "", 1, [], 1⟩]
  penalty := none

/-- Its program, in which one column stands for two quantities. -/
def crossedProgram : LinearProgram Extended where
  columns :=
    ⟨[("allocation_a_b_c", ⟨some 0, none, false⟩), ("allocation_a_c", ⟨some 0, none, false⟩),
      ("allocation_a_b_b_c", ⟨some 0, none, false⟩)]⟩
  objective :=
    ⟨⟨[("allocation_a_b_c", .finite 2), ("allocation_a_c", 1),
      ("allocation_a_b_b_c", .finite 2)]⟩, 0⟩
  rows :=
    [⟨sumForm ["allocation_a_c"], .atMost, .finite 10⟩,
      ⟨sumForm ["allocation_a_b_c", "allocation_a_b_b_c"], .atMost, 1⟩,
      ⟨sumForm ["allocation_a_b_b_c"], .equal, .finite 5⟩,
      ⟨sumForm ["allocation_a_b_c", "allocation_a_c"], .equal, 1⟩]

/-- The first supplier covers all demand. -/
def crossedPlan : crossedAllocation.Plan where
  given supplier requisition :=
    if supplier.val = 0 then if requisition.val = 0 then .finite 5 else 1 else 0
  unmet _ := 0

/-- Where two quantities share a name, the program may allow nothing although a plan serves all
demands. -/
theorem crossedAllocation_allows_nothing :
    (crossedAllocation.suppliers.map (·.identifier)).Nodup ∧
      (crossedAllocation.requisitions.map (·.identifier)).Nodup ∧
      crossedPlan.Serves ∧
      ∃ program,
        LinearProgram.ofProblem (crossedAllocation.problem (fun _ => "") bareProblem) 0 =
            .ok program ∧
          ∀ numbers, ¬ program.IsFeasible numbers := by
  have told :
      (LinearProgram.ofProblem (crossedAllocation.problem (fun _ => "") bareProblem)
        0).toOption.map id = some crossedProgram := by
    decide +kernel
  have serves : crossedPlan.Serves :=
    ⟨by decide +kernel, by decide +kernel, by decide +kernel, by decide +kernel,
      by decide +kernel, fun _ _ => rfl, by decide +kernel, by decide +kernel⟩
  obtain ⟨_, built, rfl⟩ := exists_eq_ok_of_map_toOption told
  refine ⟨by decide, by decide, serves, crossedProgram, built, fun numbers isFeasible => ?_⟩
  have isShared := isFeasible.columns ("allocation_a_b_c", ⟨some 0, none, false⟩) (by decide)
  have isOwn := isFeasible.columns ("allocation_a_b_b_c", ⟨some 0, none, false⟩) (by decide)
  have meets :
      (sumForm ["allocation_a_b_b_c"]).valueOn numbers = .finite 5 :=
    isFeasible.rows ⟨sumForm ["allocation_a_b_b_c"], .equal, .finite 5⟩ (by decide +kernel)
  have isWithin :
      (sumForm ["allocation_a_b_c", "allocation_a_b_b_c"]).valueOn numbers ≤ 1 :=
    isFeasible.rows ⟨sumForm ["allocation_a_b_c", "allocation_a_b_b_c"], .atMost, 1⟩
      (by decide +kernel)
  rw [valueOn_sumForm (List.forall_mem_singleton.mpr isOwn.isFinite)] at meets
  rw [valueOn_sumForm (List.forall_mem_cons.mpr ⟨isShared.isFinite,
    List.forall_mem_singleton.mpr isOwn.isFinite⟩), List.map_cons, List.sum_cons, meets] at isWithin
  have isTooMuch : Extended.finite 5 ≤ 1 :=
    (le_add_of_nonneg_left (isShared.lower 0 rfl)).trans isWithin
  exact absurd isTooMuch (by decide +kernel)

end Stores

end Allocation

end Optima
