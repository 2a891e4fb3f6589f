import Mathlib
import Optima.Proofs.Backtracking.Levels
import Optima.Proofs.Problem.Retention
import Optima.Proofs.Problem.Satisfaction
import Optima.Proofs.Search.Space

namespace Optima

/-!
# Grids that have a solution

However fine a grid is, its even steps may miss what constraints leave of an interval.  But a grid
also has the thresholds at which constraints on its variable alone switch, and the lower end of the
interval.  So the latest point that is not above a number of the interval stands for this number: it
is on the same side of each threshold, or on it.  If all constraints are on single variables, then
the points that stand for a solution are one.
-/

/-- A constraint compares a multiple of one of several names, with something added, with a target
that the comparison does not exclude. -/
structure Constraint.IsAffine {α : Type} [Scalar α] (constraint : Constraint α)
    (names : List String) : Prop where
  isExpression :
    ∃ expression, constraint.rule = .expression expression ∧ expression.IsFinite ∧
      expression.IsAffine names
  notStrict : constraint.isStrict = false

variable {α : Type} [Scalar α]

/-- A value stands for a number: it is not above it, and below no threshold that the number is not
below. -/
structure StandsForNumber (thresholds : List α) (number value : α) : Prop where
  atMost : value ≤ number
  atLeast : ∀ threshold ∈ thresholds, threshold ≤ number → threshold ≤ value

/-- What a comparison with a threshold allows it also allows of the value that stands for it. -/
theorem StandsForNumber.allows
    [ExactScalar α]
    {thresholds : List α}
    {number value threshold margin : α}
    {comparison : Comparison}
    (standsFor : StandsForNumber thresholds number value)
    (isThreshold : threshold ∈ thresholds)
    (notStrict : comparison ≠ .below ∧ comparison ≠ .above)
    (allows : comparison.Allows threshold margin number) :
    comparison.Allows threshold margin value := by
  cases comparison with
  | equal =>
      have isNumber : number = threshold := allows
      exact ExactScalar.le_antisymm _ _ (standsFor.atMost.trans isNumber.le)
        (standsFor.atLeast threshold isThreshold isNumber.ge)
  | atMost => exact standsFor.atMost.trans allows
  | atLeast => exact standsFor.atLeast threshold isThreshold allows
  | below => exact absurd rfl notStrict.1
  | above => exact absurd rfl notStrict.2

theorem Comparison.ne_of_dividedBy
    {comparison : Comparison}
    (notStrict : comparison ≠ .below ∧ comparison ≠ .above)
    (factor : α) :
    comparison.dividedBy factor ≠ .below ∧ comparison.dividedBy factor ≠ .above := by
  unfold dividedBy
  split
  · cases comparison <;> simp_all [mirrored]
  · exact notStrict

/-- What a comparison with a target allows is as the comparison asks for, whatever the tolerance. -/
theorem Comparison.Allows.isMet
    [SolvingScalar α]
    {comparison : Comparison}
    {value target margin own : α}
    (allows : comparison.Allows target margin value)
    (notStrict : comparison ≠ .below ∧ comparison ≠ .above)
    (isFinite : Scalar.isFinite value = true)
    (notNegative : 0 ≤ own) :
    comparison.IsMet value target own := by
  cases comparison with
  | equal =>
      obtain rfl : value = target := allows
      exact (ArithmeticScalar.magnitude_sub_self value isFinite).le.trans notNegative
  | atMost => exact le_trans allows (le_add_of_nonneg_right notNegative)
  | atLeast => exact (ArithmeticScalar.sub_le_self _ _ notNegative).trans allows
  | below => exact absurd rfl notStrict.1
  | above => exact absurd rfl notStrict.2

namespace Constraint

variable {constraint : Constraint α} {names : List String} {tolerance : α}
  {assignment : Assignment α}

omit [Scalar α] in
theorem ne_of_isStrict_eq_false
    (notStrict : constraint.isStrict = false) :
    constraint.comparison ≠ .below ∧ constraint.comparison ≠ .above := by
  rwa [← Bool.not_eq_true, isStrict_iff, not_or] at notStrict

theorem IsAffine.isFinite
    (isAffine : constraint.IsAffine names)
    (tolerance : α) :
    constraint.IsFinite tolerance := by
  obtain ⟨expression, isRule, isFinite, -⟩ := isAffine.isExpression
  refine ⟨fun other isOther => ?_, fun isStrict => ?_⟩
  · obtain rfl : expression = other := by
      simpa using isRule.symm.trans isOther
    exact isFinite
  · rw [isAffine.notStrict] at isStrict
    cases isStrict

/-- The only variable of a constraint is found.  Where names are bound to finite numbers, the value
of the constraint is the multiple of it that is found. -/
theorem IsAffine.exists_singleTerm?_eq_ok
    [SolvingScalar α]
    (isAffine : constraint.IsAffine names) :
    ∃ term,
      constraint.singleTerm? = .ok (some term) ∧ term.name ∈ names ∧
        ∀ assignment : Assignment α, assignment.Binds assignment.numberOf names →
          Scalar.isFinite term.coefficient = true ∧ Scalar.fraction term.coefficient ≠ 0 ∧
            Scalar.isFinite term.constant = true ∧
            constraint.evaluate assignment =
              .ok (term.coefficient * assignment.numberOf term.name + term.constant) := by
  obtain ⟨expression, isRule, -, isAffine⟩ := isAffine.isExpression
  obtain ⟨form, name, coefficient, isForm, means, isName, isSingle⟩ := isAffine.exists_form
  have isNamed := isAffine.areNames name isName
  refine ⟨⟨name, coefficient, form.constant⟩, ?_, isNamed, fun assignment binds => ?_⟩
  · simp [singleTerm?, isRule, Rule.linearForm?, isForm, isSingle, bind, Except.bind, pure,
      Except.pure]
  obtain ⟨value, isValue, isFiniteValue, isFraction⟩ :=
    means.gives assignment _ (binds.mono isAffine.areNames)
  obtain ⟨isBound, isFiniteNumber⟩ := binds name isNamed
  rw [← Assignment.place_eq_fraction_numberOf] at isFraction
  obtain ⟨isFiniteCoefficient, notZero, isEqual⟩ :=
    affine_of_single means.isFinite isSingle isBound isFiniteNumber isFiniteValue isFraction.symm
  refine ⟨isFiniteCoefficient, notZero, means.isFinite.constant, ?_⟩
  rw [evaluate, isRule, isEqual]
  exact isValue

theorem IsAffine.isSingle
    [SolvingScalar α]
    (isAffine : constraint.IsAffine names) :
    ∃ term, constraint.singleTerm? = .ok (some term) := by
  obtain ⟨term, isTerm, -⟩ := isAffine.exists_singleTerm?_eq_ok
  exact ⟨term, isTerm⟩

end Constraint

namespace Grid

variable [SolvingScalar α]

theorem mem_pointsWithin_iff
    {lower upper value : α}
    {points : List α} :
    value ∈ pointsWithin lower upper points ↔ value ∈ points ∧ lower ≤ value ∧ value ≤ upper := by
  simp [pointsWithin, (Scalar.distinct_spec _).1, Scalar.within]

/-- Even steps start at the lower end. -/
theorem lower_mem_evenly
    {lower upper : α}
    (finiteEnds : HasFiniteEnds (lower, upper))
    {count : Nat}
    (isMany : 2 ≤ count) :
    lower ∈ evenly lower upper count := by
  obtain ⟨isFiniteSpan, -⟩ := Scalar.fraction_sub finiteEnds.2 finiteEnds.1
  obtain ⟨isFiniteSteps, areSteps⟩ := Scalar.fraction_ofInt (α := α) (count - 1 : Int)
  have notZero : ((count - 1 : Int) : Rat) ≠ 0 := by
    exact_mod_cast (by omega : (count - 1 : Int) ≠ 0)
  obtain ⟨isFiniteStep, -⟩ :=
    Scalar.fraction_div isFiniteSpan isFiniteSteps (areSteps.trans_ne notZero)
  obtain ⟨isFiniteZero, isZero⟩ := Scalar.fraction_ofInt (α := α) 0
  obtain ⟨isFiniteFirst, isFirst⟩ :=
    Scalar.fraction_affine isFiniteZero finiteEnds.1 isFiniteStep
  refine List.mem_append_left _ (List.mem_map.mpr ⟨0, List.mem_range.mpr (by omega), ?_⟩)
  apply Scalar.eq_of_fraction_eq isFiniteFirst finiteEnds.1
  simp [isFirst, isZero]

/-- A number of the interval of a real variable has a point of its grid that stands for it. -/
theorem exists_standsForNumber
    {candidates : Candidates α}
    {steps : Nat}
    {decision : Variable α}
    {interval : α × α}
    {thresholds : List α}
    {number : α}
    (isContinuous : decision.kind = .continuous)
    (areThresholds : candidates.thresholds decision.name = .ok thresholds)
    (finiteEnds : HasFiniteEnds interval)
    (isMany : 2 ≤ steps)
    (isAbove : interval.1 ≤ number)
    (isBelow : number ≤ interval.2) :
    ∃ grid,
      domain candidates steps decision interval = .ok grid ∧
        ∃ value ∈ grid, interval.1 ≤ value ∧ StandsForNumber thresholds number value := by
  obtain ⟨lower, upper⟩ := interval
  unfold domain
  dsimp only at *
  by_cases isPoint : (lower == upper) = true
  · obtain rfl := Scalar.eq_of_beq isPoint
    obtain rfl := ExactScalar.le_antisymm _ _ isAbove isBelow
    rw [if_pos isPoint]
    exact ⟨[lower], rfl, lower, List.mem_singleton_self _, le_rfl, le_rfl, fun _ _ => id⟩
  · rw [if_neg isPoint, if_pos isContinuous, areThresholds]
    refine ⟨_, rfl, ?_⟩
    have inOrder : lower ≤ upper := isAbove.trans isBelow
    have isFirst :
        lower ∈ pointsWithin lower upper (evenly lower upper steps ++ thresholds) :=
      mem_pointsWithin_iff.mpr
        ⟨List.mem_append_left _ (lower_mem_evenly finiteEnds isMany), le_rfl, inOrder⟩
    obtain ⟨value, isPoint, atMost, isLatest⟩ := Scalar.exists_latest isFirst isAbove
    have isWithin := (mem_pointsWithin_iff.mp isPoint).2.1
    refine ⟨value, isPoint, isWithin, atMost, fun threshold isThreshold isReached => ?_⟩
    by_cases isInside : lower ≤ threshold
    · exact isLatest threshold (mem_pointsWithin_iff.mpr
        ⟨List.mem_append_right _ isThreshold, isInside, isReached.trans isBelow⟩) isReached
    · exact (not_le.mp isInside).le.trans isWithin

end Grid

namespace Candidates

variable {candidates : Candidates α} {assignment : Assignment α} {vector : List α}

/-- Constraints of single variables have thresholds, and the list for a name has those of all
constraints on it that do not exclude their target. -/
theorem exists_thresholdsOf_eq_ok
    {constraints : List (Constraint α)}
    (areSingle : ∀ constraint ∈ constraints, ∃ term, constraint.singleTerm? = .ok (some term))
    (tolerance : α)
    (name : String) :
    ∃ thresholds,
      thresholdsOf tolerance name constraints = .ok thresholds ∧
        ∀ constraint ∈ constraints, constraint.isStrict = false →
          ∀ term, constraint.singleTerm? = .ok (some term) → term.name = name →
            constraint.threshold term ∈ thresholds := by
  induction constraints with
  | nil => exact ⟨[], rfl, nofun⟩
  | cons constraint rest inductionHypothesis =>
      obtain ⟨⟨term, isTerm⟩, restSingle⟩ := List.forall_mem_cons.mp areSingle
      obtain ⟨others, areOthers, areListed⟩ := inductionHypothesis restSingle
      have isOnly (found : SingleTerm α) (isFound : constraint.singleTerm? = .ok (some found)) :
          found = term := by
        simpa using isFound.symm.trans isTerm
      by_cases sameName : term.name = name
      · refine ⟨switches tolerance constraint term ++ others, ?_, List.forall_mem_cons.mpr ⟨?_, ?_⟩⟩
        · simp [thresholdsOf, isTerm, areOthers, sameName, bind, Except.bind, pure, Except.pure]
        · intro notStrict found isFound _
          obtain rfl := isOnly found isFound
          simp [switches, notStrict]
        · intro other isOther notStrict found isFound isName
          exact List.mem_append_right _ (areListed other isOther notStrict found isFound isName)
      · refine ⟨others, ?_, List.forall_mem_cons.mpr ⟨?_, areListed⟩⟩
        · simp [thresholdsOf, isTerm, areOthers, sameName, bind, Except.bind, pure, Except.pure]
        · intro _ found isFound isName
          obtain rfl := isOnly found isFound
          exact absurd isName sameName

/-- A finite number stands for what an assignment gives to a variable, as far as the constraints on
this variable alone can tell. -/
def StandsForNumberOf (candidates : Candidates α) (assignment : Assignment α)
    (decision : Variable α) (value : α) : Prop :=
  Scalar.isFinite value = true ∧
    ∃ thresholds,
      candidates.thresholds decision.name = .ok thresholds ∧
        StandsForNumber thresholds (assignment.numberOf decision.name) value

/-- The components of a vector stand for the numbers of its variables. -/
def StandsForNumbers (candidates : Candidates α) (assignment : Assignment α) (vector : List α) :
    Prop :=
  List.Forall₂ (candidates.StandsForNumberOf assignment) candidates.problem.decisions vector

/-- A vector that stands for an assignment has a number for each variable. -/
theorem StandsForNumbers.exists_numberOf
    (standsFor : candidates.StandsForNumbers assignment vector)
    (distinct : candidates.names.Nodup)
    {name : String}
    (isName : name ∈ candidates.names) :
    ∃ value,
      (candidates.assignment vector).get? name = some (.number value) ∧
        (candidates.assignment vector).numberOf name = value ∧
        Scalar.isFinite value = true ∧
        ∃ thresholds,
          candidates.thresholds name = .ok thresholds ∧
            StandsForNumber thresholds (assignment.numberOf name) value := by
  obtain ⟨decision, member, rfl⟩ := List.mem_map.mp isName
  obtain ⟨value, ⟨isFinite, standsThere⟩, isValue⟩ :=
    exists_get?_assignment distinct standsFor member
  exact ⟨value, isValue, by simp [Assignment.numberOf, isValue], isFinite, standsThere⟩

/-- What a constraint on one variable says of a solution it says, within its tolerance, of a vector
that stands for it. -/
theorem StandsForNumbers.holdsOn
    [SolvingScalar α]
    [SignedScalar α]
    [JudgingScalar α]
    (standsFor : candidates.StandsForNumbers assignment vector)
    (distinct : candidates.names.Nodup)
    (areAffine :
      ∀ constraint ∈ candidates.problem.constraints, constraint.IsAffine candidates.names)
    {constraint : Constraint α}
    (member : constraint ∈ candidates.problem.constraints)
    {tolerance : α}
    (notNegative : 0 ≤ constraint.toleranceOr tolerance)
    (numbersFinite : assignment.IsFinite)
    (areBound :
      ∀ name ∈ candidates.names, assignment.get? name = some (.number (assignment.numberOf name)))
    (holds : constraint.exact.HoldsOn tolerance assignment) :
    constraint.HoldsOn tolerance (candidates.assignment vector) := by
  have isAffine := areAffine constraint member
  have notStrict := Constraint.ne_of_isStrict_eq_false isAffine.notStrict
  obtain ⟨term, isTerm, isName, affine⟩ := isAffine.exists_singleTerm?_eq_ok
  -- Solved for its variable, the constraint allows the number of the assignment.
  obtain ⟨_, isFound, allows⟩ :=
    Constraint.exists_singleTerm?_allows numbersFinite (isAffine.isFinite tolerance) holds
  obtain rfl := Except.ok.inj (isTerm.symm.trans isFound)
  have allowsNumber := allows term rfl _ (areBound term.name isName)
  -- Its threshold is listed, so it also allows the component of the vector.
  obtain ⟨value, -, isNumber, isFiniteValue, thresholds, areThresholds, standsThere⟩ :=
    standsFor.exists_numberOf distinct isName
  obtain ⟨_, areListed, isListed⟩ :=
    exists_thresholdsOf_eq_ok (fun other isOther => (areAffine other isOther).isSingle)
      candidates.tolerance term.name
  obtain rfl := Except.ok.inj (areThresholds.symm.trans areListed)
  have allowsValue :=
    standsThere.allows (isListed constraint member isAffine.notStrict term isTerm rfl)
      (Comparison.ne_of_dividedBy notStrict term.coefficient) allowsNumber
  -- Solved back, the constraint allows its value on the vector.
  obtain ⟨isFiniteCoefficient, notZero, isFiniteConstant, isValue⟩ :=
    affine (candidates.assignment vector) fun name isName => by
      obtain ⟨value, isBound, isNumber, isFinite, -⟩ := standsFor.exists_numberOf distinct isName
      rw [isNumber]
      exact ⟨isBound, isFinite⟩
  rw [isNumber] at isValue
  have allowsAffine :=
    (Comparison.allows_threshold_iff isFiniteCoefficient notZero isFiniteConstant isFiniteValue
      notStrict 0 _).mp allowsValue
  have isFinite :=
    (Scalar.fraction_affine isFiniteCoefficient isFiniteConstant isFiniteValue).1
  refine ⟨_, by rw [Constraint.violation, isValue]; rfl, ?_⟩
  exact (Constraint.magnitudeOf_beq_zero_iff_isMet isAffine.notStrict).mpr
    (allowsAffine.isMet notStrict isFinite notNegative)

end Candidates

namespace Grid

variable [SolvingScalar α] {candidates : Candidates α} {defaultBounds : α × α}
  {assignment : Assignment α} {steps : Nat}

/-- The number of a real variable in its interval has a point of its grid that stands for it. -/
theorem exists_point
    (areSingle :
      ∀ constraint ∈ candidates.problem.constraints,
        ∃ term, constraint.singleTerm? = .ok (some term))
    (isMany : 2 ≤ steps)
    (numbersFinite : assignment.IsFinite)
    (liesIn : assignment.LiesIn candidates.problem.decisions candidates.reduction.bounds)
    {decision : Variable α}
    (member : decision ∈ candidates.problem.decisions)
    (isContinuous : decision.kind = .continuous)
    (finiteEnds : HasFiniteEnds (decision.openBounds defaultBounds))
    (isTightened : decision.IsTightened defaultBounds (candidates.intervalOf decision)) :
    ∃ point : List α × α,
      domain candidates steps decision (candidates.intervalOf decision) = .ok point.1 ∧
        point.2 ∈ point.1 ∧
        candidates.StandsForNumberOf assignment decision point.2 := by
  obtain ⟨interval, number, isInterval, isNumber, isAbove, isBelow, -⟩ := liesIn decision member
  have isFiniteNumber := numbersFinite decision.name number isNumber
  have isOwn : candidates.intervalOf decision = interval := by
    simp [Candidates.intervalOf, Reduction.boundsOf?, isInterval]
  rw [isOwn] at isTightened ⊢
  have finiteEnds :=
    isTightened.hasFiniteEnds isContinuous finiteEnds isFiniteNumber isAbove isBelow
  obtain ⟨thresholds, areThresholds, -⟩ :=
    Candidates.exists_thresholdsOf_eq_ok areSingle candidates.tolerance decision.name
  obtain ⟨grid, isGrid, value, inGrid, isWithin, standsFor⟩ :=
    exists_standsForNumber isContinuous areThresholds finiteEnds isMany isAbove isBelow
  have isFinite :=
    BoundedScalar.isFinite_between _ _ _ isWithin standsFor.atMost finiteEnds.1 isFiniteNumber
  refine ⟨(grid, value), isGrid, inGrid, isFinite, thresholds, areThresholds, ?_⟩
  simpa [Assignment.numberOf, isNumber] using standsFor

omit [SolvingScalar α] in
/-- Where each variable has a point of its grid that stands for its number, the points are a vector
of the product. -/
theorem exists_inProduct
    (havePoints :
      ∀ decision ∈ candidates.problem.decisions, ∃ point : List α × α,
        domain candidates steps decision (candidates.intervalOf decision) = .ok point.1 ∧
          point.2 ∈ point.1 ∧ candidates.StandsForNumberOf assignment decision point.2) :
    ∃ grids vector,
      Grid.grids candidates steps = .ok grids ∧ InProduct grids vector ∧
        candidates.StandsForNumbers assignment vector := by
  obtain ⟨points, arePoints⟩ := exists_forall₂_of_forall_exists havePoints
  refine ⟨points.map (·.1), points.map (·.2), ?_, ?_, ?_⟩
  · rw [grids, Candidates.bounds_eq_map, mapM_eq_ok_iff, ← List.map_prod_left_eq_zip]
    exact List.forall₂_map_left_iff.mpr
      (List.forall₂_map_right_iff.mpr (arePoints.imp fun _ _ isPoint => isPoint.1))
  · rw [InProduct, List.forall₂_map_left_iff, List.forall₂_map_right_iff, List.forall₂_same]
    intro point member
    obtain ⟨decision, -, -, isPoint, -⟩ := exists_left_of_forall₂ arePoints member
    exact isPoint
  · exact List.forall₂_map_right_iff.mpr (arePoints.imp fun _ _ isPoint => isPoint.2.2)

/--
If constraints on single variables have a solution between the bounds of the variables, then
propagation finds no conflict and some point of the grids violates none of them, however few steps
the grids have.
-/
theorem grids_contain_solution
    [SignedScalar α]
    [JudgingScalar α]
    {problem : Problem α}
    {tolerance : α}
    (distinct : problem.variableNames.Nodup)
    (faultless : ∀ decision ∈ problem.decisions, decision.fault? = none)
    (areContinuous :
      ∀ decision ∈ problem.decisions,
        decision.kind = .continuous ∧ HasFiniteEnds (decision.openBounds defaultBounds))
    (areAffine :
      ∀ constraint ∈ problem.constraints,
        constraint.IsAffine problem.variableNames ∧ 0 ≤ constraint.toleranceOr tolerance)
    (isMany : 2 ≤ steps)
    (numbersFinite : assignment.IsFinite)
    (liesIn : assignment.LiesInDomains problem.decisions defaultBounds)
    (allHold :
      ∀ constraint ∈ problem.constraints, constraint.exact.HoldsOn tolerance assignment) :
    ∃ candidates,
      Candidates.ofProblem problem defaultBounds tolerance = .ok candidates ∧
        candidates.reduction.isConsistent = true ∧
        ∃ grids vector,
          Grid.grids candidates steps = .ok grids ∧ InProduct grids vector ∧
            candidates.IsFeasible vector := by
  obtain ⟨reduction, isReduction, isConsistent, liesInReduced⟩ :=
    Propagation.reduce_keeps_solutions faultless numbersFinite
      (fun constraint member _ => (areAffine constraint member).1.isFinite tolerance) liesIn
      fun constraint member _ => allHold constraint member
  have prepared :
      Candidates.ofProblem problem defaultBounds tolerance =
        .ok ⟨problem, tolerance, reduction⟩ := by
    rw [Candidates.ofProblem, isReduction]
    rfl
  have areTightened := Candidates.isTightened_intervalOf distinct faultless prepared
  obtain ⟨grids, vector, areGrids, inProduct, standsFor⟩ :=
    exists_inProduct fun decision member =>
      exists_point (fun constraint member => (areAffine constraint member).1.isSingle) isMany
        numbersFinite liesInReduced member (areContinuous decision member).1
        (areContinuous decision member).2 (areTightened decision member)
  refine ⟨_, prepared, isConsistent, grids, vector, areGrids, inProduct, ?_⟩
  intro constraint member
  refine standsFor.holdsOn distinct (fun other isOther => (areAffine other isOther).1) member
    (areAffine constraint member).2 numbersFinite ?_ (allHold constraint member)
  intro name isName
  obtain ⟨decision, isDecision, rfl⟩ := List.mem_map.mp isName
  obtain ⟨_, number, -, isNumber, -⟩ := liesIn decision isDecision
  simp [Assignment.numberOf, isNumber]

section Samples

open Extended Propagation

/-- A constraint on a multiple of `x` with something added. -/
def affineOn (factor addend : Rat) (comparison : Comparison) (target : Rat) :
    Constraint Extended :=
  { boundOn "affine" factor comparison target with
    rule := .expression
      (.sum [.product [.constant (finite factor), .variable "x"], .constant (finite addend)])
    kind := .inequality }

theorem isAffine_affineOn
    {factor : Rat}
    (notZero : factor ≠ 0)
    {comparison : Comparison}
    {addend target : Rat}
    (notStrict : (affineOn factor addend comparison target).isStrict = false) :
    (affineOn factor addend comparison target).IsAffine ["x"] :=
  ⟨⟨_, rfl, ⟨⟨rfl, trivial, trivial⟩, rfl, trivial⟩,
    Expr.isAffine_product_add rfl notZero rfl (List.mem_singleton_self "x")⟩, notStrict⟩

/-- A third solves two constraints and nothing else does, so a grid of two steps has it. -/
theorem grids_contain_third :
    ∃ candidates,
      Candidates.ofProblem
          (boundedProblem .continuous
            [affineOn 3 1 .equal 2, affineOn (-6) (1 / 2) .atMost (-3 / 2)])
          (0, finite 100) 0 = .ok candidates ∧
        candidates.reduction.isConsistent = true ∧
        ∃ grids vector,
          Grid.grids candidates 2 = .ok grids ∧ InProduct grids vector ∧
            candidates.IsFeasible vector := by
  refine grids_contain_solution (by decide) ?_ ?_ ?_ le_rfl (isFinite_assigned (1 / 3)) ?_ ?_
  · intro decision member
    obtain rfl := List.mem_singleton.mp member
    rfl
  · intro decision member
    obtain rfl := List.mem_singleton.mp member
    exact ⟨rfl, rfl, rfl⟩
  · intro constraint member
    rcases List.mem_pair.mp member with rfl | rfl
    · exact ⟨isAffine_affineOn (by decide) rfl, le_rfl⟩
    · exact ⟨isAffine_affineOn (by decide) rfl, le_rfl⟩
  · exact liesInDomains_assigned (by decide +kernel) (by decide +kernel)
  · intro constraint member
    have told :
        (constraint.exact.isSatisfied 0 (assigned (1 / 3))).toOption.map id = some true := by
      rcases List.mem_pair.mp member with rfl | rfl
      · decide +kernel
      · decide +kernel
    obtain ⟨_, satisfied, rfl⟩ := exists_eq_ok_of_map_toOption told
    exact Constraint.isSatisfied_eq_ok_true_iff.mp satisfied

end Samples

end Grid

end Optima
