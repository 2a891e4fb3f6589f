import Optima.Proofs.Expression.Linearity
import Optima.Proofs.Problem.Evaluation

namespace Optima

/-!
# Linear programs and their problems

A linear program is compared with the problem that it is made of.
-/

section Meaning

/-!
## What a linear program means

The program of a linear problem says the same as the evaluators: on finite numbers its
objective is the weighted cost, and numbers on which its rows hold violate no constraint.
A strict comparison needs a tolerance for this, as its row then asks for that distance.
-/

variable {α : Type} [Scalar α]

/-- A rule is a linear expression over given names. -/
def Rule.IsLinearOver (rule : Rule α) (names : List String) : Prop :=
  ∃ expression,
    rule = .expression expression ∧ expression.IsLinear ∧ ∀ name ∈ expression.names, name ∈ names

/-- Variables take numbers, and objectives and constraints are linear expressions over them. -/
structure Problem.IsLinear (problem : Problem α) : Prop where
  isNumeric : ∀ decision ∈ problem.decisions, decision.kind ≠ .categorical
  objectives :
    ∀ objective ∈ problem.objectives, objective.rule.IsLinearOver problem.variableNames
  isFinite : ∀ objective ∈ problem.objectives, Scalar.isFinite objective.weight = true
  constraints :
    ∀ constraint ∈ problem.constraints, constraint.rule.IsLinearOver problem.variableNames

/-- The tolerance of a constraint is not negative, and a strict comparison has one. -/
structure Constraint.IsTolerant (constraint : Constraint α) (tolerance : α) : Prop where
  isNonneg : 0 ≤ constraint.toleranceOr tolerance
  isPositive : constraint.isStrict = true → 0 < constraint.toleranceOr tolerance

section Values

variable {assignment : Assignment α}

/-- Where objectives have distinct names, each is found under its name with its own value. -/
theorem Objectives.evaluate_eq_ok_valueOf
    {objectives : List (Objective α)}
    (distinct : (objectives.map (·.name)).Nodup)
    {known found : Table α}
    (entered : valuesInto assignment known objectives = .ok found) :
    (∀ objective ∈ objectives,
        objective.evaluate assignment = .ok (valueOf found objective)) ∧
      ∀ name ∉ objectives.map (·.name), found.get? name = known.get? name := by
  induction objectives generalizing known with
  | nil =>
      cases entered
      exact ⟨nofun, fun name _ => rfl⟩
  | cons objective rest inductionHypothesis =>
      obtain ⟨isNew, restDistinct⟩ := List.nodup_cons.mp distinct
      obtain ⟨value, isValue, entered⟩ := bind_eq_ok entered
      obtain ⟨areValues, othersKept⟩ := inductionHypothesis restDistinct entered
      refine ⟨List.forall_mem_cons.mpr ⟨?_, areValues⟩, ?_⟩
      · have isFound : found.get? objective.name = some value := by
          rw [othersKept _ isNew, Table.get?_insert, if_pos rfl]
        rw [valueOf, isFound, isValue, Option.getD_some]
      · intro name isOther
        simp only [List.map_cons, List.mem_cons, not_or] at isOther
        rw [othersKept name isOther.2, Table.get?_insert, if_neg isOther.1]

end Values

variable [ArithmeticScalar α]

/-- The direction of an objective is a sign. -/
theorem Objective.isFinite_sense
    (objective : Objective α) :
    Scalar.isFinite objective.sense = true := by
  unfold sense
  cases objective.direction with
  | maximize => exact Scalar.isFinite_one
  | minimize => exact (Scalar.fraction_neg Scalar.isFinite_one).1

namespace LinearProgram

variable {columns : Table (Column α)} {names : List String}

/-- A linear rule over the columns has a form, which means its value. -/
theorem exists_formOf_means
    (areColumns : ∀ name ∈ names, columns.contains name = true)
    {rule : Rule α}
    (isLinear : rule.IsLinearOver names)
    (noun name : String) :
    ∃ form,
      formOf columns noun name rule = .ok form ∧
        form.Means names fun assignment => rule.evaluate assignment := by
  obtain ⟨expression, rfl, isLinear, areNames⟩ := isLinear
  obtain ⟨form, isForm, isFinite, reads, gives⟩ :=
    expression.exists_linearForm?_means isLinear
  refine ⟨form, ?_, isFinite, fun name member => areNames name (reads name member), ?_⟩
  · have noStray : form.coefficients.names.find? (fun name => !columns.contains name) = none := by
      rw [List.find?_eq_none]
      intro name member
      simp [areColumns name (areNames name (reads name member))]
    have noneInfinite :
        (form.coefficients.values.any fun value => !Scalar.isFinite value) = false := by
      rw [List.any_eq_false]
      intro value member
      simp [isFinite.coefficients value member]
    simp [formOf, Rule.linearForm?, settled, isForm, noStray, noneInfinite, isFinite.constant,
      bind, Except.bind, pure, Except.pure]
  · exact fun assignment numbers binds => gives assignment numbers (binds.mono areNames)

/-- The form of objectives means their weighted sum, turned so that lower is better. -/
theorem exists_objectiveOf_means
    (areColumns : ∀ name ∈ names, columns.contains name = true)
    {objectives : List (Objective α)}
    (areLinear : ∀ objective ∈ objectives, objective.rule.IsLinearOver names)
    (areFinite : ∀ objective ∈ objectives, Scalar.isFinite objective.weight = true)
    {before : LinearForm α}
    (isFiniteBefore : before.IsFinite)
    (readsBefore : ∀ name ∈ before.coefficients.names, name ∈ names) :
    ∃ form,
      objectiveOf columns before objectives = .ok form ∧ form.IsFinite ∧
        (∀ name ∈ form.coefficients.names, name ∈ names) ∧
        ∀ (assignment : Assignment α) (numbers : String → α),
          assignment.Binds numbers names →
            (∀ objective ∈ objectives, ∃ value, objective.evaluate assignment = .ok value) ∧
            ∀ values : Objective α → α,
              (∀ objective ∈ objectives,
                objective.evaluate assignment = .ok (values objective)) →
                Scalar.AreFinite (objectives.map fun objective =>
                    objective.weight * objective.sense * values objective) ∧
                  form.fractionOn (fun name => Scalar.fraction (numbers name)) =
                    before.fractionOn (fun name => Scalar.fraction (numbers name))
                      - (objectives.map fun objective => Scalar.fraction
                          (objective.weight * objective.sense * values objective)).sum := by
  induction objectives generalizing before with
  | nil =>
      refine ⟨before, rfl, isFiniteBefore, readsBefore, fun assignment numbers _ => ⟨nofun, ?_⟩⟩
      exact fun values _ => ⟨nofun, (sub_zero _).symm⟩
  | cons objective rest inductionHypothesis =>
      obtain ⟨isLinear, restLinear⟩ := List.forall_mem_cons.mp areLinear
      obtain ⟨isFiniteWeight, restFinite⟩ := List.forall_mem_cons.mp areFinite
      obtain ⟨form, isForm, means⟩ :=
        exists_formOf_means areColumns isLinear "objective" objective.name
      obtain ⟨isFiniteSign, isSign⟩ := Scalar.fraction_neg objective.isFinite_sense
      obtain ⟨isFiniteFactor, isFactor⟩ := Scalar.fraction_mul isFiniteSign isFiniteWeight
      obtain ⟨isFiniteScaled, isScaled⟩ := LinearForm.fractionOn_scale means.isFinite isFiniteFactor
      obtain ⟨isFiniteNext, isNext⟩ := LinearForm.fractionOn_add isFiniteBefore isFiniteScaled
      obtain ⟨whole, isWhole, isFinite, reads, gives⟩ :=
        inductionHypothesis restLinear restFinite isFiniteNext (by
          intro name member
          rcases LinearForm.mem_names_add member with isBefore | isHere
          · exact readsBefore name isBefore
          · rw [LinearForm.names_scale] at isHere
            exact means.reads name isHere)
      refine ⟨whole, ?_, isFinite, reads, fun assignment numbers binds => ?_⟩
      · simpa [objectiveOf, isForm, isFiniteFactor, bind, Except.bind] using isWhole
      · obtain ⟨value, isValue, isFiniteValue, isFraction⟩ := means.gives assignment numbers binds
        obtain ⟨restValued, restMeans⟩ := gives assignment numbers binds
        refine ⟨List.forall_mem_cons.mpr ⟨⟨value, isValue⟩, restValued⟩, fun values areValues => ?_⟩
        obtain ⟨isFirst, restValues⟩ := List.forall_mem_cons.mp areValues
        obtain rfl : value = values objective := Except.ok.inj (isValue.symm.trans isFirst)
        obtain ⟨restTermsFinite, isSum⟩ := restMeans values restValues
        obtain ⟨isFiniteWeighed, isWeighed⟩ :=
          Scalar.fraction_mul isFiniteWeight objective.isFinite_sense
        obtain ⟨isFiniteTerm, isTerm⟩ := Scalar.fraction_mul isFiniteWeighed isFiniteValue
        refine ⟨List.forall_mem_cons.mpr ⟨isFiniteTerm, restTermsFinite⟩, ?_⟩
        rw [isSum, isNext, isScaled, isFactor, isSign, List.map_cons, List.sum_cons, isTerm,
          isWeighed, isFraction]
        ring

/-- The objective of a program means the weighted cost. -/
theorem costOf_eq_ok_valueOn
    (areColumns : ∀ name ∈ names, columns.contains name = true)
    {objectives : List (Objective α)}
    (areLinear : ∀ objective ∈ objectives, objective.rule.IsLinearOver names)
    (areFinite : ∀ objective ∈ objectives, Scalar.isFinite objective.weight = true) :
    ∃ form,
      objectiveOf columns (.ofConstant 0) objectives = .ok form ∧
        ∀ (assignment : Assignment α) (numbers : String → α),
          assignment.Binds numbers names → (objectives.map (·.name)).Nodup →
            Objectives.costOf objectives assignment = .ok (form.valueOn numbers) := by
  obtain ⟨form, isForm, isFinite, reads, gives⟩ :=
    exists_objectiveOf_means areColumns areLinear areFinite
      (LinearForm.isFinite_ofConstant Scalar.isFinite_zero) nofun
  refine ⟨form, isForm, fun assignment numbers binds distinct => ?_⟩
  obtain ⟨valued, means⟩ := gives assignment numbers binds
  obtain ⟨found, areValues⟩ := Objectives.exists_values_eq_ok valued
  obtain ⟨termsFinite, isSum⟩ :=
    means (Objectives.valueOf found) (Objectives.evaluate_eq_ok_valueOf distinct areValues).1
  obtain ⟨isFiniteScore, isScore⟩ := Scalar.fraction_total termsFinite
  obtain ⟨isFiniteCost, isCost⟩ := Scalar.fraction_neg isFiniteScore
  obtain ⟨isFiniteValue, isValue⟩ :=
    LinearForm.fraction_valueOn isFinite fun name member => (binds name (reads name member)).2
  have sameFraction :
      Scalar.fraction (Objectives.cost objectives found) =
        Scalar.fraction (form.valueOn numbers) := by
    rw [isValue, isSum, LinearForm.fractionOn_ofConstant, Scalar.fraction_zero, zero_sub]
    refine isCost.trans ?_
    rw [isScore, List.map_map]
    rfl
  have isSame := Scalar.eq_of_fraction_eq isFiniteCost isFiniteValue sameFraction
  rw [Objectives.costOf, areValues]
  exact congrArg Except.ok isSame

end LinearProgram

/-- A value that is not beyond what a constraint allows does not violate it. -/
theorem Constraint.magnitudeOf_beq_zero
    {constraint : Constraint α}
    {tolerance value : α}
    (isTolerant : constraint.IsTolerant tolerance)
    (notBeyond : constraint.excess (constraint.toleranceOr tolerance) value ≤ 0) :
    (constraint.magnitudeOf tolerance value == 0) = true := by
  have notStep :
      (constraint.excess (constraint.toleranceOr tolerance) value == 0
        && constraint.toleranceOr tolerance == 0 && constraint.isStrict) = false := by
    cases isStrict : constraint.isStrict with
    | false => simp
    | true =>
        have isPositive := isTolerant.isPositive isStrict
        have notZero : (constraint.toleranceOr tolerance == 0) = false := by
          rw [Bool.eq_false_iff]
          intro isZero
          exact not_le_of_gt isPositive ((OrderedScalar.beq_iff_le _ _).mp isZero).1
        simp [notZero]
  have noLarger :
      Scalar.larger 0 (constraint.excess (constraint.toleranceOr tolerance) value) = 0 :=
    if_neg (not_lt_of_ge notBeyond)
  simp only [magnitudeOf, notStep, Bool.false_eq_true, ↓reduceIte, noLarger]
  exact OrderedScalar.beq_self 0

/-- Finite numbers on which the row of a constraint holds do not violate it. -/
theorem Row.excess_nonpos
    {constraint : Constraint α}
    {tolerance : α}
    (isNonneg : 0 ≤ constraint.toleranceOr tolerance)
    {form : LinearForm α}
    {numbers : String → α}
    (isFinite : Scalar.isFinite (form.valueOn numbers) = true)
    (holds : (Row.ofConstraint constraint tolerance form).Holds numbers) :
    constraint.excess (constraint.toleranceOr tolerance) (form.valueOn numbers) ≤ 0 := by
  unfold Row.ofConstraint Row.Holds at holds
  unfold Constraint.excess
  cases isComparison : constraint.comparison with
  | equal =>
      rw [isComparison] at holds
      have isTarget : form.valueOn numbers = constraint.target := holds
      have noDistance :
          Scalar.magnitude (form.valueOn numbers - constraint.target) = 0 := by
        rw [← isTarget]
        exact ArithmeticScalar.magnitude_sub_self _ isFinite
      simp only [noDistance]
      exact ArithmeticScalar.sub_nonpos _ _ isNonneg (.inl Scalar.isFinite_zero)
  | atMost =>
      rw [isComparison] at holds
      have atMost : form.valueOn numbers ≤ constraint.target := holds
      exact ArithmeticScalar.sub_nonpos _ _ (atMost.trans (le_add_of_nonneg_right isNonneg))
        (.inl isFinite)
  | atLeast =>
      rw [isComparison] at holds
      have atLeast : constraint.target ≤ form.valueOn numbers := holds
      exact ArithmeticScalar.sub_nonpos _ _
        ((ArithmeticScalar.sub_le_self _ _ isNonneg).trans atLeast) (.inr isFinite)
  | below =>
      rw [isComparison] at holds
      exact ArithmeticScalar.sub_nonpos _ _ holds (.inl isFinite)
  | above =>
      rw [isComparison] at holds
      exact ArithmeticScalar.sub_nonpos _ _ holds (.inr isFinite)

namespace LinearProgram

variable {columns : Table (Column α)} {names : List String}

/-- The rows of linear constraints ask for what the constraints do. -/
theorem exists_rowsOf_holdsOn
    (areColumns : ∀ name ∈ names, columns.contains name = true)
    {constraints : List (Constraint α)}
    (areLinear : ∀ constraint ∈ constraints, constraint.rule.IsLinearOver names)
    (tolerance : α) :
    ∃ rows,
      rowsOf columns tolerance constraints = .ok rows ∧
        ∀ (assignment : Assignment α) (numbers : String → α),
          assignment.Binds numbers names → (∀ row ∈ rows, row.Holds numbers) →
            ∀ constraint ∈ constraints, constraint.IsTolerant tolerance →
              constraint.HoldsOn tolerance assignment := by
  induction constraints with
  | nil =>
      exact ⟨[], rfl, fun _ _ _ _ => nofun⟩
  | cons constraint rest inductionHypothesis =>
      obtain ⟨isLinear, restLinear⟩ := List.forall_mem_cons.mp areLinear
      obtain ⟨form, isForm, means⟩ :=
        exists_formOf_means areColumns isLinear "constraint" constraint.name
      obtain ⟨rows, areRows, rowsMean⟩ := inductionHypothesis restLinear
      refine ⟨Row.ofConstraint constraint tolerance form :: rows, ?_, ?_⟩
      · simp [rowsOf, isForm, areRows, bind, Except.bind, pure, Except.pure]
      · intro assignment numbers binds allHold
        obtain ⟨holds, restHold⟩ := List.forall_mem_cons.mp allHold
        refine List.forall_mem_cons.mpr ⟨fun isTolerant => ?_,
          rowsMean assignment numbers binds restHold⟩
        obtain ⟨value, isValue, isFiniteValue, isFraction⟩ := means.gives assignment numbers binds
        obtain ⟨isFiniteForm, isFormValue⟩ :=
          LinearForm.fraction_valueOn means.isFinite fun name member =>
            (binds name (means.reads name member)).2
        have sameValue : value = form.valueOn numbers :=
          Scalar.eq_of_fraction_eq isFiniteValue isFiniteForm (isFraction.trans isFormValue.symm)
        have notBeyond := Row.excess_nonpos isTolerant.isNonneg isFiniteForm holds
        rw [← sameValue] at notBeyond
        have isEvaluated : constraint.evaluate assignment = .ok value := isValue
        refine ⟨constraint.magnitudeOf tolerance value, ?_,
          Constraint.magnitudeOf_beq_zero isTolerant notBeyond⟩
        rw [Constraint.violation, isEvaluated]
        rfl

/-- The linear program of a linear problem means what the evaluators mean: its objective is
the cost, and numbers on which its rows hold violate no constraint. -/
theorem ofProblem_means_evaluators
    (problem : Problem α)
    (tolerance : α)
    (isLinear : problem.IsLinear) :
    ∃ program,
      ofProblem problem tolerance = .ok program ∧
        ∀ (assignment : Assignment α) (numbers : String → α),
          assignment.Binds numbers problem.variableNames →
            ((problem.objectives.map (·.name)).Nodup →
              Objectives.costOf problem.objectives assignment =
                .ok (program.objective.valueOn numbers)) ∧
            ((∀ row ∈ program.rows, row.Holds numbers) →
              ∀ constraint ∈ problem.constraints, constraint.IsTolerant tolerance →
                constraint.HoldsOn tolerance assignment) := by
  have areColumns :
      ∀ name ∈ problem.variableNames, (columnsOf problem.decisions).contains name = true := by
    intro name member
    apply Table.contains_ofList_of_mem
    simpa [Problem.variableNames] using member
  have noCategorical :
      ((problem.decisions.filter fun decision => decision.kind = .categorical).map
        (·.name)).isEmpty = true := by
    rw [List.isEmpty_iff, List.map_eq_nil_iff, List.filter_eq_nil_iff]
    intro decision member
    simpa using isLinear.isNumeric decision member
  obtain ⟨objective, isObjective, isCost⟩ :=
    costOf_eq_ok_valueOn areColumns isLinear.objectives isLinear.isFinite
  obtain ⟨rows, areRows, allHold⟩ :=
    exists_rowsOf_holdsOn areColumns isLinear.constraints tolerance
  refine ⟨⟨columnsOf problem.decisions, objective, rows⟩, ?_, ?_⟩
  · simp [ofProblem, noCategorical, isObjective, areRows, bind, Except.bind, pure, Except.pure]
  · exact fun assignment numbers binds =>
      ⟨isCost assignment numbers binds, allHold assignment numbers binds⟩

end LinearProgram

/-- Whether a row holds is decided by one comparison. -/
instance Row.decidableHolds {α : Type} [Scalar α] [DecidableEq α] (row : Row α)
    (numbers : String → α) : Decidable (row.Holds numbers) :=
  match row with
  | ⟨form, .equal, target⟩ => inferInstanceAs (Decidable (form.valueOn numbers = target))
  | ⟨form, .atMost, target⟩ => inferInstanceAs (Decidable (form.valueOn numbers ≤ target))
  | ⟨form, .atLeast, target⟩ => inferInstanceAs (Decidable (target ≤ form.valueOn numbers))

namespace LinearProgram

section Blends

/-- A number that is not negative. -/
def share (name : String) : Variable Extended :=
  ⟨name, name, .continuous, some 0, none, none, none, ""⟩

/-- A comparison of an expression with a number, under a tolerance. -/
def comparing (expression : Expr Extended) (comparison : Comparison) (target tolerance : Rat) :
    Constraint Extended :=
  ⟨.expression expression, "", "", .inequality, comparison, .finite target,
    some (.finite tolerance), ""⟩

/-- Two ingredients of which a blend is to bring much and to cost little. -/
def blendProblem : Problem Extended where
  identifier := "blend"
  name := ""
  kind := .resourceAllocation
  description := ""
  objectives :=
    [⟨.expression (.product [.constant (.finite 2), .sum [.variable "x", .variable "y"]]), "",
      "yield", .maximize, .finite 3, 1, ""⟩,
    ⟨.expression (.linear ⟨[("x", .finite (1 / 2))]⟩ (.finite 7)), "", "cost", .minimize, 1, 2, ""⟩]
  constraints :=
    [comparing (.sum [.variable "x", .variable "y"]) .atMost 4 0,
      comparing (.power (.variable "x") 1) .above 1 (1 / 10),
      comparing (.linear ⟨[("y", .finite 2)]⟩ (.finite (-2))) .equal 0 0]
  decisions := [share "x", share "y"]
  parameters := none
  status := .pending

theorem blendProblem_isLinear :
    blendProblem.IsLinear where
  isNumeric := by decide
  objectives := by
    refine List.forall_mem_cons.mpr ⟨⟨_, rfl, ?_, by decide +kernel⟩,
      List.forall_mem_singleton.mpr ⟨_, rfl, ?_, by decide +kernel⟩⟩
    · exact .inl ⟨⟨rfl, _, rfl, rfl⟩, .inr ⟨by decide +kernel, ⟨trivial, trivial, trivial⟩, nofun⟩⟩
    · exact ⟨List.forall_mem_singleton.mpr rfl, rfl⟩
  isFinite := List.forall_mem_cons.mpr ⟨rfl, List.forall_mem_singleton.mpr rfl⟩
  constraints := by
    refine List.forall_mem_cons.mpr ⟨⟨_, rfl, ?_, by decide +kernel⟩,
      List.forall_mem_cons.mpr ⟨⟨_, rfl, ?_, by decide +kernel⟩,
        List.forall_mem_singleton.mpr ⟨_, rfl, ?_, by decide +kernel⟩⟩⟩
    · exact ⟨trivial, trivial, trivial⟩
    · exact .inl ⟨by decide +kernel, trivial⟩
    · exact ⟨List.forall_mem_singleton.mpr rfl, rfl⟩

/-- Three of one ingredient and one of the other. -/
def blend (name : String) : Extended :=
  if name = "x" then .finite 3 else 1

/-- A blend that is within all rows has the cost of the program and violates no constraint. -/
theorem blendProblem_means_evaluators :
    blendProblem.IsLinear ∧
      ∃ program,
        ofProblem blendProblem 0 = .ok program ∧
          (∀ row ∈ program.rows, row.Holds blend) ∧
          Objectives.costOf blendProblem.objectives
              ⟨[("x", .number (.finite 3)), ("y", .number 1)]⟩ =
            .ok (program.objective.valueOn blend) ∧
          Constraints.AllHold 0 ⟨[("x", .number (.finite 3)), ("y", .number 1)]⟩
            blendProblem.constraints := by
  obtain ⟨program, isProgram, means⟩ :=
    ofProblem_means_evaluators blendProblem 0 blendProblem_isLinear
  have binds :
      Assignment.Binds (⟨[("x", .number (.finite 3)), ("y", .number 1)]⟩ : Assignment Extended)
        blend blendProblem.variableNames :=
    List.forall_mem_cons.mpr ⟨⟨rfl, rfl⟩, List.forall_mem_singleton.mpr ⟨rfl, rfl⟩⟩
  obtain ⟨isCost, allHold⟩ := means _ _ binds
  have rowsHold : ∀ row ∈ program.rows, row.Holds blend := by
    have told :
        (ofProblem blendProblem 0).toOption.map
          (fun program => decide (∀ row ∈ program.rows, row.Holds blend)) = some true := by
      decide +kernel
    rw [isProgram] at told
    exact of_decide_eq_true (Option.some.inj told)
  refine ⟨blendProblem_isLinear, program, isProgram, rowsHold, isCost (by decide), ?_⟩
  intro constraint member
  have areTolerant : ∀ constraint ∈ blendProblem.constraints, constraint.IsTolerant 0 :=
    List.forall_mem_cons.mpr ⟨⟨by decide +kernel, nofun⟩,
      List.forall_mem_cons.mpr ⟨⟨by decide +kernel, fun _ => by decide +kernel⟩,
        List.forall_mem_singleton.mpr ⟨by decide +kernel, nofun⟩⟩⟩
  exact allHold rowsHold constraint member (areTolerant constraint member)

/-- A number that is to be large and below one, without tolerance. -/
def brinkProblem : Problem Extended where
  identifier := "brink"
  name := ""
  kind := .resourceAllocation
  description := ""
  objectives := [⟨.expression (.variable "x"), "o", "f", .maximize, 1, 1, ""⟩]
  constraints := [comparing (.variable "x") .below 1 0]
  decisions := [share "x"]
  parameters := none
  status := .pending

/-- Without tolerance the row of a strict comparison holds on its target, which violates it. -/
theorem brinkProblem_rows_miss_constraint :
    brinkProblem.IsLinear ∧
      (∀ constraint ∈ brinkProblem.constraints, 0 ≤ constraint.toleranceOr 0) ∧
      ∃ program,
        ofProblem brinkProblem 0 = .ok program ∧
          (∀ row ∈ program.rows, row.Holds fun _ => 1) ∧
          ¬ Constraints.AllHold 0 ⟨[("x", .number 1)]⟩ brinkProblem.constraints := by
  have isLinear : brinkProblem.IsLinear :=
    ⟨by decide, List.forall_mem_singleton.mpr ⟨_, rfl, trivial, by decide +kernel⟩,
      List.forall_mem_singleton.mpr rfl,
      List.forall_mem_singleton.mpr ⟨_, rfl, trivial, by decide +kernel⟩⟩
  have told :
      (ofProblem brinkProblem 0).toOption.map
        (fun program => decide (∀ row ∈ program.rows, row.Holds fun _ => 1)) = some true := by
    decide +kernel
  have notFeasible :
      (Constraints.feasible 0 (⟨[("x", .number 1)]⟩ : Assignment Extended)
        brinkProblem.constraints).toOption = some false := by
    decide +kernel
  obtain ⟨program, isProgram, rowsHold⟩ := exists_eq_ok_of_map_toOption told
  refine ⟨isLinear, List.forall_mem_singleton.mpr (by decide +kernel), program, isProgram,
    of_decide_eq_true rowsHold, fun allHold => ?_⟩
  rw [Constraints.feasible_eq_ok_true_iff.mpr allHold] at notFeasible
  cases notFeasible

end Blends

end LinearProgram

end Meaning

/-!
## What a linear program allows

A linear program allows the finite numbers that lie within the bounds of its columns and on
which its rows hold.  Its columns are those of the variables of its problem, and its rows
those of the constraints, one after the other.
-/

variable {α : Type} [Scalar α]

/-- A column allows finite numbers within its bounds, and whole ones only if it asks for these. -/
structure Column.Admits (column : Column α) (value : α) : Prop where
  isFinite : Scalar.isFinite value = true
  lower : ∀ bound, column.lower = some bound → bound ≤ value
  upper : ∀ bound, column.upper = some bound → value ≤ bound
  whole : column.whole = true → Scalar.IsWhole value

namespace LinearProgram

variable {β : Type} {columns : Table (Column α)} {tolerance : α}

/-- Numbers that the columns allow and on which the rows hold; there are none elsewhere. -/
structure IsFeasible (program : LinearProgram α) (numbers : String → α) : Prop where
  elsewhere : ∀ name ∉ program.columns.names, numbers name = 0
  columns : ∀ entry ∈ program.columns.entries, entry.2.Admits (numbers entry.1)
  rows : ∀ row ∈ program.rows, row.Holds numbers

/-- A program has the columns, the objective and the rows of its problem. -/
theorem of_ofProblem_eq_ok
    {problem : Problem α}
    {program : LinearProgram α}
    (built : ofProblem problem tolerance = .ok program) :
    program.columns = columnsOf problem.decisions ∧
      objectiveOf (columnsOf problem.decisions) (.ofConstant 0) problem.objectives =
        .ok program.objective ∧
      rowsOf (columnsOf problem.decisions) tolerance problem.constraints = .ok program.rows := by
  simp only [ofProblem] at built
  split at built
  · cases built
  · obtain ⟨objective, isObjective, built⟩ := bind_eq_ok built
    obtain ⟨rows, areRows, built⟩ := bind_eq_ok built
    cases built
    exact ⟨rfl, isObjective, areRows⟩

/-- The rows of two lists of constraints are the rows of each. -/
theorem rowsOf_append
    {constraints others : List (Constraint α)}
    {rows otherRows : List (Row α)}
    (areRows : rowsOf columns tolerance constraints = .ok rows)
    (areOthers : rowsOf columns tolerance others = .ok otherRows) :
    rowsOf columns tolerance (constraints ++ others) = .ok (rows ++ otherRows) := by
  induction constraints generalizing rows with
  | nil =>
      cases areRows
      exact areOthers
  | cons constraint rest inductionHypothesis =>
      obtain ⟨form, isForm, areRows⟩ := bind_eq_ok areRows
      obtain ⟨restRows, areRest, areRows⟩ := bind_eq_ok areRows
      cases areRows
      simp [rowsOf, isForm, inductionHypothesis areRest, bind, Except.bind, pure, Except.pure]

/-- Where the forms of constraints are known, so are their rows. -/
theorem rowsOf_map
    {items : List β}
    {constraintOf : β → Constraint α}
    (form : β → LinearForm α)
    (areForms : ∀ item ∈ items,
      formOf columns "constraint" (constraintOf item).name (constraintOf item).rule =
        .ok (form item)) :
    rowsOf columns tolerance (items.map constraintOf) =
      .ok (items.map fun item => .ofConstraint (constraintOf item) tolerance (form item)) := by
  induction items with
  | nil =>
      rfl
  | cons item rest inductionHypothesis =>
      obtain ⟨isForm, restForms⟩ := List.forall_mem_cons.mp areForms
      simp [rowsOf, isForm, inductionHypothesis restForms, bind, Except.bind, pure, Except.pure]

end LinearProgram

end Optima
