import Optima.Proofs.Problem.Slopes

namespace Optima

/-!
# Prices on linear problems

On a linear problem the gradients of the cost and of the constraints are their coefficients.
Where one constraint alone is binding, the reduced costs are what is left of the gradient of the
cost when its projection on that of the constraint is taken away, so they are orthogonal to it.
-/

namespace Sensitivity

variable {α : Type} [Scalar α]

/-- The tolerance within which a constraint is binding. -/
def marginOf (probing : Probing α) (constraint : Constraint α) : α :=
  Scalar.larger (constraint.toleranceOr probing.tolerance) (Scalar.decimal 1 9)

/-- An equation is binding, and an inequality is where it has next to no slack. -/
def IsBinding (probing : Probing α) (assignment : Assignment α) (constraint : Constraint α) :
    Prop :=
  constraint.comparison = .equal ∨
    ∃ value, constraint.evaluate assignment = .ok value ∧
      Scalar.magnitude (constraint.slackOf value (marginOf probing constraint)) ≤
        marginOf probing constraint

/-- The reduced cost of a name: what bindings leave of its slope in the cost. -/
def reducedCost (costGradient : Table α) (bindings : List (Binding α)) (name : String) : α :=
  slopeAt costGradient name -
    Scalar.total (bindings.map fun binding => binding.price * slopeAt binding.gradient name)

/-- The reduced costs that are told of the variables, by name. -/
def reducedCosts (problem : Problem α) (sensitivity : Sensitivity α) : Table α :=
  Table.ofList ((problem.decisions.zip sensitivity.decisions).map fun entry =>
    (entry.1.name, entry.2.reducedCost))

/-- The price of a constraint, with its gradient. -/
def priced (costGradient gradient : Table α) : Binding α :=
  ⟨innerProduct costGradient gradient / normSquared gradient, gradient⟩

section Projection

/-- Taking away the projection on a gradient leaves what is orthogonal to the gradient. -/
theorem sum_sub_projection
    {β : Type}
    {entries : List β}
    (costs slopes : β → Rat)
    (price : Rat) :
    (entries.map fun entry => (costs entry - price * slopes entry) * slopes entry).sum =
      (entries.map fun entry => costs entry * slopes entry).sum
        - price * (entries.map fun entry => slopes entry * slopes entry).sum := by
  induction entries with
  | nil => simp
  | cons entry rest inductionHypothesis =>
      simp only [List.map_cons, List.sum_cons]
      linear_combination inductionHypothesis

variable [SolvingScalar α] {costGradient gradient : Table α}

/-- The fraction of the inner product of finite gradients. -/
theorem fraction_innerProduct
    {first second : Table α}
    (areFinite : ∀ name ∈ second.names, Scalar.isFinite (slopeAt first name) = true)
    (areFiniteToo : Scalar.AreFinite second.values) :
    Scalar.isFinite (innerProduct first second) = true ∧
      Scalar.fraction (innerProduct first second) =
        (second.entries.map fun entry =>
          Scalar.fraction (slopeAt first entry.1) * Scalar.fraction entry.2).sum := by
  have termFinite (entry : String × α) (isEntry : entry ∈ second.entries) :=
    Scalar.fraction_mul (areFinite _ (List.mem_map_of_mem isEntry))
      (areFiniteToo _ (List.mem_map_of_mem isEntry))
  have termsFinite :
      Scalar.AreFinite (second.entries.map fun entry => slopeAt first entry.1 * entry.2) :=
    List.forall_mem_map.mpr fun entry isEntry => (termFinite entry isEntry).1
  obtain ⟨isFinite, isProduct⟩ := Scalar.fraction_total termsFinite
  refine ⟨isFinite, isProduct.trans ?_⟩
  rw [List.map_map]
  congr 1
  exact List.map_congr_left fun entry isEntry => (termFinite entry isEntry).2

omit [SolvingScalar α] in
theorem slopeAt_of_mem
    (distinct : gradient.names.Nodup)
    {entry : String × α}
    (isEntry : entry ∈ gradient.entries) :
    slopeAt gradient entry.1 = entry.2 := by
  rw [slopeAt, Table.get?, lookup_eq_some_of_mem distinct isEntry, Option.getD_some]

theorem isFinite_slopeAt
    (areFinite : Scalar.AreFinite gradient.values)
    (name : String) :
    Scalar.isFinite (slopeAt gradient name) = true := by
  unfold slopeAt
  cases isFound : gradient.get? name with
  | none => exact Scalar.isFinite_zero
  | some slope => exact areFinite slope (List.mem_map_of_mem (mem_of_lookup_eq_some isFound))

omit [SolvingScalar α] in
/-- The square of the length of a gradient is its inner product with itself. -/
theorem innerProduct_self
    (distinct : gradient.names.Nodup) :
    innerProduct gradient gradient = normSquared gradient := by
  rw [innerProduct, normSquared, Table.values, List.map_map]
  congr 1
  exact List.map_congr_left fun entry isEntry => by
    rw [slopeAt_of_mem distinct isEntry, Function.comp_apply]

/-- The fraction of the square of the length of a finite gradient. -/
theorem fraction_normSquared
    (distinct : gradient.names.Nodup)
    (areFinite : Scalar.AreFinite gradient.values) :
    Scalar.isFinite (normSquared gradient) = true ∧
      Scalar.fraction (normSquared gradient) =
        (gradient.entries.map fun entry =>
          Scalar.fraction entry.2 * Scalar.fraction entry.2).sum := by
  obtain ⟨isFinite, isProduct⟩ :=
    fraction_innerProduct (fun name _ => isFinite_slopeAt areFinite name) areFinite
  rw [innerProduct_self distinct] at isFinite isProduct
  refine ⟨isFinite, isProduct.trans ?_⟩
  congr 1
  exact List.map_congr_left fun entry isEntry => by rw [slopeAt_of_mem distinct isEntry]

/-- A gradient that is not zero has a positive length. -/
theorem normSquared_pos
    (distinct : gradient.names.Nodup)
    (areFinite : Scalar.AreFinite gradient.values)
    (notZero : ∃ slope ∈ gradient.values, slope ≠ 0) :
    0 < normSquared gradient := by
  obtain ⟨isFinite, isNorm⟩ := fraction_normSquared distinct areFinite
  rw [Scalar.lt_iff_fraction_lt Scalar.isFinite_zero isFinite, Scalar.fraction_zero, isNorm]
  obtain ⟨slope, isSlope, notZero⟩ := notZero
  have isFiniteSlope := areFinite slope isSlope
  obtain ⟨entry, isEntry, rfl⟩ := List.mem_map.mp isSlope
  have fractionNotZero : Scalar.fraction entry.2 ≠ 0 := by
    intro isZero
    exact notZero (Scalar.eq_of_fraction_eq isFiniteSlope Scalar.isFinite_zero
      (isZero.trans Scalar.fraction_zero.symm))
  calc 0 < Scalar.fraction entry.2 * Scalar.fraction entry.2 := mul_self_pos.mpr fractionNotZero
    _ ≤ _ := List.single_le_sum
        (List.forall_mem_map.mpr fun other _ => mul_self_nonneg (Scalar.fraction other.2)) _
        (List.mem_map_of_mem (f := fun entry : String × α =>
          Scalar.fraction entry.2 * Scalar.fraction entry.2) isEntry)

/-- The reduced costs by one price are orthogonal to the gradient that has the price. -/
theorem innerProduct_reduced_eq_zero
    (distinct : gradient.names.Nodup)
    (costsFinite : Scalar.AreFinite costGradient.values)
    (areFinite : Scalar.AreFinite gradient.values)
    (isPositive : 0 < normSquared gradient)
    {reduced : Table α}
    (areReduced :
      ∀ name ∈ gradient.names,
        slopeAt reduced name = reducedCost costGradient [priced costGradient gradient] name) :
    innerProduct reduced gradient = 0 := by
  obtain ⟨isFiniteNorm, isNorm⟩ := fraction_normSquared distinct areFinite
  obtain ⟨isFiniteProduct, isProduct⟩ :=
    fraction_innerProduct (fun name _ => isFinite_slopeAt costsFinite name) areFinite
  rw [Scalar.lt_iff_fraction_lt Scalar.isFinite_zero isFiniteNorm, Scalar.fraction_zero]
    at isPositive
  obtain ⟨isFinitePrice, isPrice⟩ :=
    Scalar.fraction_div isFiniteProduct isFiniteNorm isPositive.ne'
  unfold priced at areReduced
  generalize innerProduct costGradient gradient / normSquared gradient = price
    at isFinitePrice isPrice areReduced
  have reducedAt (entry : String × α) (isEntry : entry ∈ gradient.entries) :
      Scalar.isFinite (slopeAt reduced entry.1) = true ∧
        Scalar.fraction (slopeAt reduced entry.1) =
          Scalar.fraction (slopeAt costGradient entry.1)
            - Scalar.fraction price * Scalar.fraction entry.2 := by
    have isName : entry.1 ∈ gradient.names := List.mem_map_of_mem isEntry
    obtain ⟨isFiniteShare, isShare⟩ :=
      Scalar.fraction_mul isFinitePrice (areFinite _ (List.mem_map_of_mem isEntry))
    obtain ⟨isFiniteRest, isRest⟩ :=
      Scalar.fraction_sub (isFinite_slopeAt costsFinite entry.1) isFiniteShare
    have isReduced :
        slopeAt reduced entry.1 = slopeAt costGradient entry.1 - price * entry.2 := by
      rw [areReduced _ isName, reducedCost, List.map_singleton, slopeAt_of_mem distinct isEntry,
        Scalar.total, List.foldl_cons, List.foldl_nil, zero_add]
    rw [isReduced]
    exact ⟨isFiniteRest, by rw [isRest, isShare]⟩
  have reducedFinite (name : String) (isName : name ∈ gradient.names) :
      Scalar.isFinite (slopeAt reduced name) = true := by
    obtain ⟨entry, isEntry, rfl⟩ := List.mem_map.mp isName
    exact (reducedAt entry isEntry).1
  obtain ⟨isFinite, isInner⟩ := fraction_innerProduct reducedFinite areFinite
  apply Scalar.eq_of_fraction_eq isFinite Scalar.isFinite_zero
  calc Scalar.fraction (innerProduct reduced gradient)
      = (gradient.entries.map fun entry =>
          (Scalar.fraction (slopeAt costGradient entry.1)
              - Scalar.fraction price * Scalar.fraction entry.2)
            * Scalar.fraction entry.2).sum := by
        rw [isInner]
        congr 1
        exact List.map_congr_left fun entry isEntry => by rw [(reducedAt entry isEntry).2]
    _ = Scalar.fraction (innerProduct costGradient gradient)
          - Scalar.fraction price * Scalar.fraction (normSquared gradient) := by
        rw [isProduct, isNorm]
        exact sum_sub_projection
          (fun entry : String × α => Scalar.fraction (slopeAt costGradient entry.1))
          (fun entry => Scalar.fraction entry.2) _
    _ = Scalar.fraction (0 : α) := by
        rw [isPrice, div_mul_cancel₀ _ isPositive.ne', sub_self, Scalar.fraction_zero]

end Projection

omit [Scalar α] in
theorem zip_map_eq
    {decisions : List (Variable α)}
    {accounts : List (VariableSensitivity α)}
    {reduced : String → α}
    (areTold :
      List.Forall₂ (fun decision account =>
        account.identifier = decision.identifier ∧ account.reducedCost = reduced decision.name)
        decisions accounts) :
    ((decisions.zip accounts).map fun entry => (entry.1.name, entry.2.reducedCost)) =
      decisions.map fun decision => (decision.name, reduced decision.name) := by
  induction areTold with
  | nil => rfl
  | cons isTold _ inductionHypothesis =>
      rw [List.zip_cons_cons, List.map_cons, List.map_cons, inductionHypothesis, isTold.2]

section Accounts

variable {problem : Problem α} {probing : Probing α} {assignment : Assignment α}
  {costGradient : Table α} {constraint : Constraint α} {gradient : Table α}

/-- What is told of a constraint to those who price variables: its gradient and price where it is
binding and can be moved, and nothing where it is not binding. -/
structure Prices (probing : Probing α) (assignment : Assignment α) (costGradient gradient : Table α)
    (constraint : Constraint α) (binding? : Option (Binding α)) : Prop where
  of_binding :
    IsBinding probing assignment constraint → 0 < normSquared gradient →
      binding? = some (priced costGradient gradient)
  of_not_binding : ¬ IsBinding probing assignment constraint → binding? = none

theorem isBinding_iff
    {value : α}
    (isValue : constraint.evaluate assignment = .ok value) :
    IsBinding probing assignment constraint ↔
      (decide (constraint.comparison = .equal) ||
        decide (Scalar.magnitude (constraint.slackOf value (marginOf probing constraint)) ≤
          marginOf probing constraint)) = true := by
  simp [IsBinding, isValue]

/-- A constraint that has a value and a gradient has an account. -/
theorem exists_priced_ofConstraint
    (isValued : ∃ value, constraint.evaluate assignment = .ok value)
    (isGradient :
      gradientInto (fun other => constraint.evaluate other) assignment probing.defaultBounds
        probing.step {} problem.decisions = .ok gradient)
    (costGradient : Table α) :
    ∃ account binding?,
      ofConstraint problem probing assignment costGradient constraint = .ok (account, binding?) ∧
        Prices probing assignment costGradient gradient constraint binding? := by
  obtain ⟨value, isValue⟩ := isValued
  unfold ofConstraint
  rw [isValue, isGradient]
  simp only [bind, Except.bind, Except.mapError, pure, Except.pure]
  by_cases isBinding : IsBinding probing assignment constraint
  · have isTested := (isBinding_iff isValue).mp isBinding
    unfold marginOf at isTested
    rw [isTested]
    by_cases isLong : 0 < normSquared gradient
    · exact ⟨_, _, (if_neg (by simp)).trans (if_pos isLong), fun _ _ => rfl,
        fun notBinding => absurd isBinding notBinding⟩
    · exact ⟨_, _, (if_neg (by simp)).trans (if_neg isLong),
        fun _ isLongToo => absurd isLongToo isLong,
        fun notBinding => absurd isBinding notBinding⟩
  · have notTested := mt (isBinding_iff isValue).mpr isBinding
    unfold marginOf at notTested
    rw [Bool.not_eq_true] at notTested
    rw [notTested]
    exact ⟨_, _, if_pos rfl, fun isBindingToo => absurd isBindingToo isBinding, fun _ => rfl⟩

/-- Constraints that have values and gradients have accounts, in their order. -/
theorem exists_priced_ofConstraints
    {gradientOf : Constraint α → Table α}
    {constraints : List (Constraint α)}
    (areValued : ∀ constraint ∈ constraints, ∃ value, constraint.evaluate assignment = .ok value)
    (areGradients :
      ∀ constraint ∈ constraints,
        gradientInto (fun other => constraint.evaluate other) assignment probing.defaultBounds
          probing.step {} problem.decisions = .ok (gradientOf constraint))
    (costGradient : Table α) :
    ∃ accounts bindings?,
      ofConstraints problem probing assignment costGradient constraints =
          .ok (accounts, bindings?.filterMap id) ∧
        List.Forall₂ (fun constraint binding? =>
          Prices probing assignment costGradient (gradientOf constraint) constraint binding?)
          constraints bindings? := by
  induction constraints with
  | nil => exact ⟨[], [], rfl, .nil⟩
  | cons constraint rest inductionHypothesis =>
      obtain ⟨isValued, restValued⟩ := List.forall_mem_cons.mp areValued
      obtain ⟨isGradient, restGradients⟩ := List.forall_mem_cons.mp areGradients
      obtain ⟨account, binding?, isAccount, prices⟩ :=
        exists_priced_ofConstraint isValued isGradient costGradient
      obtain ⟨accounts, bindings?, areAccounts, restPrices⟩ :=
        inductionHypothesis restValued restGradients
      refine ⟨account :: accounts, binding? :: bindings?, ?_, .cons prices restPrices⟩
      simp only [ofConstraints, isAccount, areAccounts, bind, Except.bind, pure, Except.pure]
      cases binding? <;> rfl

/-- Constraints that are not binding have no prices. -/
theorem filterMap_eq_nil
    {gradientOf : Constraint α → Table α}
    {constraints : List (Constraint α)}
    {bindings? : List (Option (Binding α))}
    (prices :
      List.Forall₂ (fun constraint binding? =>
        Prices probing assignment costGradient (gradientOf constraint) constraint binding?)
        constraints bindings?)
    (areFree : ∀ other ∈ constraints, ¬ IsBinding probing assignment other) :
    bindings?.filterMap id = [] := by
  rw [List.filterMap_eq_nil_iff]
  intro binding? isTold
  obtain ⟨other, isOther, isPrice⟩ := exists_left_of_forall₂ prices isTold
  exact isPrice.of_not_binding (areFree other isOther)

/-- Where one constraint alone is binding, it is the only one that has a price. -/
theorem filterMap_eq_singleton
    {gradientOf : Constraint α → Table α}
    {before after : List (Constraint α)}
    {bindings? : List (Option (Binding α))}
    (prices :
      List.Forall₂ (fun constraint binding? =>
        Prices probing assignment costGradient (gradientOf constraint) constraint binding?)
        (before ++ constraint :: after) bindings?)
    (isBinding : IsBinding probing assignment constraint)
    (othersFree : ∀ other ∈ before ++ after, ¬ IsBinding probing assignment other)
    (isLong : 0 < normSquared (gradientOf constraint)) :
    bindings?.filterMap id = [priced costGradient (gradientOf constraint)] := by
  induction before generalizing bindings? with
  | nil =>
      obtain ⟨binding?, later, isPrice, laterPrices, rfl⟩ := List.forall₂_cons_left_iff.mp prices
      rw [isPrice.of_binding isBinding isLong, List.filterMap_cons,
        filterMap_eq_nil laterPrices othersFree]
      rfl
  | cons other before inductionHypothesis =>
      obtain ⟨binding?, rest, isPrice, restPrices, rfl⟩ := List.forall₂_cons_left_iff.mp prices
      obtain ⟨isFree, restFree⟩ := List.forall_mem_cons.mp othersFree
      rw [isPrice.of_not_binding isFree, List.filterMap_cons,
        inductionHypothesis restPrices restFree]
      rfl

/-- Variables that are assigned have accounts, in their order. -/
theorem exists_told_ofVariables
    {decisions : List (Variable α)}
    (arePlaced :
      ∀ decision ∈ decisions, ∃ interval value,
        IsPlaced probing.defaultBounds assignment decision interval value)
    (costGradient : Table α)
    (bindings : List (Binding α)) :
    ∃ accounts,
      ofVariables probing assignment costGradient bindings decisions = .ok accounts ∧
        List.Forall₂ (fun decision account =>
          account.identifier = decision.identifier ∧
            account.reducedCost = reducedCost costGradient bindings decision.name)
          decisions accounts := by
  induction decisions with
  | nil => exact ⟨[], rfl, .nil⟩
  | cons decision rest inductionHypothesis =>
      obtain ⟨⟨interval, value, isPlaced⟩, restPlaced⟩ := List.forall_mem_cons.mp arePlaced
      obtain ⟨accounts, areAccounts, areTold⟩ := inductionHypothesis restPlaced
      have isNumber : numberAt assignment decision.name = .ok value := by
        simp [numberAt, isPlaced.isBound]
      refine ⟨⟨decision.identifier, reducedCost costGradient bindings decision.name,
        some (Scalar.larger (interval.2 - value) 0),
        some (Scalar.larger (value - interval.1) 0)⟩ :: accounts, ?_, .cons ⟨rfl, rfl⟩ areTold⟩
      simp only [ofVariables, ofVariable, if_neg isPlaced.isNumeric, isPlaced.isInterval, isNumber,
        areAccounts, bind, Except.bind, pure, Except.pure]
      rfl

/-- The reduced costs that are told are found under the names of the variables. -/
theorem slopeAt_reducedCosts
    {sensitivity : Sensitivity α}
    {reduced : String → α}
    (areTold :
      List.Forall₂ (fun decision account =>
        account.identifier = decision.identifier ∧ account.reducedCost = reduced decision.name)
        problem.decisions sensitivity.decisions)
    {name : String}
    (isName : name ∈ problem.variableNames) :
    slopeAt (reducedCosts problem sensitivity) name = reduced name := by
  rw [slopeAt, reducedCosts, zip_map_eq areTold]
  have isThere :
      name ∈ (Table.ofList (problem.decisions.map fun decision =>
        (decision.name, reduced decision.name))).names := by
    rw [← Table.contains_iff_mem_names]
    apply Table.contains_ofList_of_mem
    simpa [Problem.variableNames] using isName
  obtain ⟨value, isValue⟩ := Option.ne_none_iff_exists'.mp ((Table.mem_names_iff _ _).mp isThere)
  obtain ⟨decision, -, isEntry⟩ := List.mem_map.mp (Table.mem_of_get?_ofList_eq_some isValue)
  obtain ⟨rfl, rfl⟩ := Prod.mk.inj isEntry
  rw [isValue, Option.getD_some]

end Accounts

section Linear

variable {problem : Problem α} {probing : Probing α} {assignment : Assignment α}

/-- A gradient has no other names than those of the variables. -/
theorem mem_variableNames_of_mem_slopesOf
    {coefficientOf : String → α}
    {defaultBounds : α × α}
    {name : String}
    (isName : name ∈ (slopesOf coefficientOf defaultBounds problem.decisions).names) :
    name ∈ problem.variableNames := by
  obtain ⟨entry, isEntry, rfl⟩ := List.mem_map.mp isName
  obtain ⟨decision, isDecision, rfl⟩ :=
    List.mem_map.mp (Table.mem_of_mem_entries_ofList isEntry)
  exact List.mem_map_of_mem isDecision

theorem nodup_names_slopesOf
    (coefficientOf : String → α)
    (defaultBounds : α × α)
    (decisions : List (Variable α)) :
    (slopesOf coefficientOf defaultBounds decisions).names.Nodup :=
  Table.nodup_names_ofList _

variable [SolvingScalar α]

/-- On a linear problem finite differences are exact: along each variable that can be moved the
gradients of the cost and of the constraints are the coefficients of their linear forms, and zero
along all others.  So there is an account of the problem, and if one constraint alone is binding
and has a gradient that is not zero, then the reduced costs are orthogonal to it. -/
theorem gradients_are_coefficients
    (isLinear : problem.IsLinearAround probing.defaultBounds assignment)
    (isFiniteStep : Scalar.isFinite probing.step = true)
    (isPositive : 0 < probing.step) :
    gradientInto (Objectives.costOf problem.objectives) assignment probing.defaultBounds
        probing.step {} problem.decisions =
      .ok (slopesOf (Objectives.coefficientOf problem.objectives) probing.defaultBounds
        problem.decisions) ∧
      (∀ constraint ∈ problem.constraints,
        gradientInto (fun other => constraint.evaluate other) assignment probing.defaultBounds
            probing.step {} problem.decisions =
          .ok (slopesOf constraint.rule.coefficientOf probing.defaultBounds
            problem.decisions)) ∧
      ∃ sensitivity,
        around problem probing assignment = .ok sensitivity ∧
          sensitivity.decisions.map (·.identifier) = problem.decisions.map (·.identifier) ∧
          ∀ before constraint after,
            problem.constraints = before ++ constraint :: after →
              IsBinding probing assignment constraint →
                (∀ other ∈ before ++ after, ¬ IsBinding probing assignment other) →
                  (∃ slope ∈ (slopesOf constraint.rule.coefficientOf probing.defaultBounds
                    problem.decisions).values, slope ≠ 0) →
                    innerProduct (reducedCosts problem sensitivity)
                      (slopesOf constraint.rule.coefficientOf probing.defaultBounds
                        problem.decisions) = 0 := by
  have costGradient := isLinear.haveSlopes_costOf
  have gradients (constraint : Constraint α) (isConstraint : constraint ∈ problem.constraints) :=
    isLinear.haveSlopes_evaluate isConstraint
  have isCostGradient := gradientInto_eq_ok isFiniteStep isPositive costGradient {}
  have areGradients (constraint : Constraint α) (isConstraint : constraint ∈ problem.constraints) :=
    gradientInto_eq_ok isFiniteStep isPositive (gradients constraint isConstraint) {}
  refine ⟨isCostGradient, areGradients, ?_⟩
  obtain ⟨values, areValues⟩ := Objectives.exists_values_eq_ok isLinear.isValued.objectives
  obtain ⟨accounts, bindings?, areAccounts, prices⟩ :=
    exists_priced_ofConstraints isLinear.isValued.constraints areGradients
      (slopesOf (Objectives.coefficientOf problem.objectives) probing.defaultBounds
        problem.decisions)
  obtain ⟨decisions, areDecisions, areTold⟩ :=
    exists_told_ofVariables (fun decision isDecision => isLinear.exists_isPlaced isDecision)
      (slopesOf (Objectives.coefficientOf problem.objectives) probing.defaultBounds
        problem.decisions) (bindings?.filterMap id)
  refine ⟨⟨ofObjectives problem.objectives values, accounts, decisions⟩, ?_, ?_, ?_⟩
  · change gradientInto _ _ _ _ _ _ = .ok (slopesOf _ _ _) at isCostGradient
    unfold around
    rw [areValues, isCostGradient]
    simp only [bind, Except.bind, Except.mapError, areAccounts, areDecisions]
    rfl
  · exact (map_eq_map_of_forall₂ areTold fun isTold => isTold.1.symm).symm
  · intro before constraint after isSplit isBinding othersFree notZero
    have isConstraint : constraint ∈ problem.constraints := by
      rw [isSplit]
      simp
    have isDistinct :=
      nodup_names_slopesOf constraint.rule.coefficientOf probing.defaultBounds problem.decisions
    have areFinite := areFinite_slopesOf (gradients constraint isConstraint)
    have isLong := normSquared_pos isDistinct areFinite notZero
    rw [isSplit] at prices
    have isPriced := filterMap_eq_singleton prices isBinding othersFree isLong
    rw [isPriced] at areTold
    exact innerProduct_reduced_eq_zero isDistinct (areFinite_slopesOf costGradient) areFinite isLong
      fun name isName => slopeAt_reducedCosts areTold (mem_variableNames_of_mem_slopesOf isName)

end Linear

section Samples

open Extended

/-- The amount has a limit that is far away. -/
def limit : Constraint Extended :=
  LinearProgram.comparing (.variable "x") .atMost 50 0

/-- The amount and the pieces make up what is needed. -/
def need : Constraint Extended :=
  LinearProgram.comparing
    (.sum [.variable "x", .product [.constant (finite 2), .variable "y"], .variable "z"])
    .atLeast 3 0

/-- An amount to be paid for, a number of pieces and a piece that is fixed. -/
def orderProblem : Problem Extended where
  identifier := "order"
  name := ""
  kind := .resourceAllocation
  description := ""
  objectives :=
    [⟨.expression (.linear ⟨[("x", finite 2), ("y", finite 3), ("z", finite 5)]⟩ 1), "", "cost",
      .minimize, 1, 1, ""⟩,
    ⟨.expression (.product [.constant (finite 4), .variable "y"]), "", "yield", .maximize,
      finite (1 / 2), 1, ""⟩]
  constraints := [limit, need]
  decisions :=
    [⟨"x", "x", .continuous, some 0, none, none, none, ""⟩,
      ⟨"y", "y", .integer, some 0, some (finite (9 / 2)), none, none, ""⟩,
      ⟨"z", "z", .binary, some 1, none, none, none, ""⟩]
  parameters := none
  status := .pending

/-- Nothing of the amount, one piece and the fixed one. -/
def leastOrder : Assignment Extended :=
  ⟨[("x", .number 0), ("y", .number 1), ("z", .number 1)]⟩

theorem orderProblem_isLinearAround :
    orderProblem.IsLinearAround (0, finite 100) leastOrder where
  isNumeric := by decide
  faultless := by decide +kernel
  objectives := by
    refine List.forall_mem_cons.mpr ⟨⟨_, _, rfl, ⟨?_, rfl⟩, rfl⟩,
      List.forall_mem_singleton.mpr ⟨_, _, rfl, ⟨rfl, trivial, trivial⟩, rfl⟩⟩
    simp [Scalar.AreFinite, Table.values, Scalar.isFinite]
  areFinite := List.forall_mem_cons.mpr ⟨rfl, List.forall_mem_singleton.mpr rfl⟩
  constraints :=
    List.forall_mem_cons.mpr ⟨⟨_, _, rfl, trivial, rfl⟩,
      List.forall_mem_singleton.mpr
        ⟨_, _, rfl, ⟨trivial, ⟨rfl, trivial, trivial⟩, trivial, trivial⟩, rfl⟩⟩
  numbersFinite := by
    intro name value isNumber
    have isEntry := mem_of_lookup_eq_some isNumber
    simp only [leastOrder, List.mem_cons, Prod.mk.injEq, Value.number.injEq, List.not_mem_nil,
      or_false] at isEntry
    rcases isEntry with ⟨-, rfl⟩ | ⟨-, rfl⟩ | ⟨-, rfl⟩ <;> rfl
  isWithin := by
    refine List.forall_mem_cons.mpr ⟨⟨_, _, rfl, rfl, ?_⟩, List.forall_mem_cons.mpr
      ⟨⟨_, _, rfl, rfl, ?_⟩, List.forall_mem_singleton.mpr ⟨_, _, rfl, rfl, ?_⟩⟩⟩
    · exact ⟨by decide +kernel, by decide +kernel, nofun⟩
    · exact ⟨by decide +kernel, by decide +kernel, fun _ => Scalar.isWhole_one⟩
    · exact ⟨by decide +kernel, by decide +kernel, fun _ => Scalar.isWhole_one⟩
  isValued := by
    refine ⟨List.forall_mem_cons.mpr ⟨⟨_, rfl⟩, List.forall_mem_singleton.mpr ⟨_, rfl⟩⟩,
      List.forall_mem_cons.mpr ⟨⟨_, rfl⟩, List.forall_mem_singleton.mpr ⟨_, rfl⟩⟩⟩
  isValuedBeside := by
    intro decision isDecision interval value _ _ _
    simp only [orderProblem, List.mem_cons, List.not_mem_nil, or_false] at isDecision
    rcases isDecision with rfl | rfl | rfl
    all_goals
      exact ⟨List.forall_mem_cons.mpr ⟨⟨_, rfl⟩, List.forall_mem_singleton.mpr ⟨_, rfl⟩⟩,
        List.forall_mem_cons.mpr ⟨⟨_, rfl⟩, List.forall_mem_singleton.mpr ⟨_, rfl⟩⟩⟩

/-- At the lower bound of the amount the slopes are the coefficients, and the reduced costs are
orthogonal to those of the only constraint that is binding. -/
theorem orderProblem_gradients :
    orderProblem.IsLinearAround (0, finite 100) leastOrder ∧
      gradientInto (Objectives.costOf orderProblem.objectives) leastOrder (0, finite 100) usualStep
          {} orderProblem.decisions =
        .ok ⟨[("x", finite 2), ("y", finite 1), ("z", 0)]⟩ ∧
      ∃ sensitivity,
        around orderProblem ⟨0, (0, finite 100), usualStep⟩ leastOrder = .ok sensitivity ∧
          innerProduct (reducedCosts orderProblem sensitivity)
            ⟨[("x", finite 1), ("y", finite 2), ("z", 0)]⟩ = 0 := by
  obtain ⟨isCostGradient, -, sensitivity, isTold, -, areOrthogonal⟩ :=
    @gradients_are_coefficients _ _ _ ⟨0, (0, finite 100), usualStep⟩ _ _
      orderProblem_isLinearAround (by decide +kernel) (by decide +kernel)
  have isGradient :
      slopesOf need.rule.coefficientOf (0, finite 100) orderProblem.decisions =
        (⟨[("x", finite 1), ("y", finite 2), ("z", 0)]⟩ : Table Extended) := by
    decide +kernel
  have isNeed : need.evaluate leastOrder = .ok (0 + 0 + 1 * finite 2 * 1 + 1) := rfl
  have isLimit : limit.evaluate leastOrder = .ok 0 := rfl
  have isBinding : IsBinding ⟨0, (0, finite 100), usualStep⟩ leastOrder need :=
    (isBinding_iff isNeed).mpr (by decide +kernel)
  have isFree : ¬ IsBinding ⟨0, (0, finite 100), usualStep⟩ leastOrder limit :=
    mt (isBinding_iff isLimit).mp (by decide +kernel)
  refine ⟨orderProblem_isLinearAround, isCostGradient.trans (by decide +kernel), sensitivity,
    isTold, ?_⟩
  rw [← isGradient]
  apply areOrthogonal [limit] need [] rfl isBinding (List.forall_mem_singleton.mpr isFree)
  rw [isGradient]
  exact ⟨finite 1, List.mem_cons_self, by decide⟩

end Samples

end Sensitivity

end Optima
