import Mathlib.Tactic.Ring
import Optima.Expression.Algebra
import Optima.Proofs.Expression.Form
import Optima.Proofs.Expression.Naming

namespace Optima

/-!
# Arithmetic on expressions keeps its meaning

A term combines expressions and numbers by arithmetic.  Read plainly, it is the same
arithmetic on the values of its leaves.  The expression that a term builds may be
another one, because linear parts are collected, but wherever the plain reading has a
value, the expression is built and has this value.  A term that only adds, subtracts and
multiplies by numbers what has a linear form builds an expression that has one.
-/

section Reading

theorem eq_ok_of_toOption_eq_some
    {ε β : Type}
    {computation : Except ε β}
    {result : β}
    (isResult : computation.toOption = some result) :
    computation = .ok result := by
  cases computation with
  | error cause => cases isResult
  | ok value => exact congrArg Except.ok (Option.some.inj isResult)

variable {α : Type} [Scalar α]

namespace Operand

/-- The numbers of an operand are finite. -/
def IsFinite : Operand α → Prop
  | .expression value => value.IsFinite
  | .number value => Scalar.isFinite value = true
  | .unusable _ => True

/-- The value of an operand, if it has one. -/
def reading (assignment : Assignment α) : Operand α → Option α
  | .expression value => (value.evaluate assignment).toOption
  | .number value => some value
  | .unusable _ => none

end Operand

namespace ArithmeticTerm

/-- The numbers of a term are finite. -/
def IsFinite : ArithmeticTerm α → Prop
  | .leaf operand => operand.IsFinite
  | .negation operand => operand.IsFinite
  | .addition left right | .subtraction left right | .multiplication left right =>
    left.IsFinite ∧ right.IsFinite
  | .exponentiation base exponent => base.IsFinite ∧ Scalar.isFinite exponent = true

/-- The plain reading of a term: its leaves are evaluated and their values combined. -/
def reading (assignment : Assignment α) : ArithmeticTerm α → Option α
  | .leaf operand => operand.reading assignment
  | .negation operand => do
    return -(← operand.reading assignment)
  | .addition left right => do
    return (← left.reading assignment) + (← right.reading assignment)
  | .subtraction left right => do
    return (← left.reading assignment) - (← right.reading assignment)
  | .multiplication left right => do
    return (← left.reading assignment) * (← right.reading assignment)
  | .exponentiation base exponent => do
    (Expr.raise false (← base.reading assignment) exponent).toOption

/-- A term is a number, on its own or as an expression. -/
def IsNumber : ArithmeticTerm α → Prop
  | .leaf operand => ∃ value, operand.toExpr = .ok (.constant value)
  | _ => False

/-- A term adds, subtracts and multiplies by numbers what has a linear form. -/
def IsLinear : ArithmeticTerm α → Prop
  | .leaf operand =>
    ∃ expression form, operand.toExpr = .ok expression ∧ expression.linearForm? = .ok (some form)
  | .negation operand => operand.IsLinear
  | .addition left right | .subtraction left right => left.IsLinear ∧ right.IsLinear
  | .multiplication left right =>
    (left.IsNumber ∧ right.IsLinear) ∨ (left.IsLinear ∧ right.IsNumber)
  | .exponentiation _ _ => False

end ArithmeticTerm

end Reading

namespace Scalar

variable {α : Type} [Scalar α] [SolvingScalar α] {first second : α}

theorem mul_comm_of_isFinite
    (isFinite : isFinite first = true)
    (isFiniteToo : Scalar.isFinite second = true) :
    first * second = second * first := by
  obtain ⟨isFiniteProduct, isProduct⟩ := fraction_mul isFinite isFiniteToo
  obtain ⟨isFiniteTurned, isTurned⟩ := fraction_mul isFiniteToo isFinite
  exact eq_of_fraction_eq isFiniteProduct isFiniteTurned (by rw [isProduct, isTurned, mul_comm])

theorem one_mul_of_isFinite
    (isFinite : isFinite first = true) :
    1 * first = first := by
  obtain ⟨isFiniteProduct, isProduct⟩ := fraction_mul isFinite_one isFinite
  exact eq_of_fraction_eq isFiniteProduct isFinite (by rw [isProduct, fraction_one, one_mul])

theorem mul_neg_one_of_isFinite
    (isFinite : isFinite first = true) :
    first * -1 = -first := by
  obtain ⟨isFiniteMinus, isMinus⟩ := fraction_neg (isFinite_one (α := α))
  obtain ⟨isFiniteProduct, isProduct⟩ := fraction_mul isFinite isFiniteMinus
  obtain ⟨isFiniteOpposite, isOpposite⟩ := fraction_neg isFinite
  apply eq_of_fraction_eq isFiniteProduct isFiniteOpposite
  rw [isProduct, isMinus, isOpposite, fraction_one, mul_neg_one]

end Scalar

namespace LinearForm

variable {α : Type} [Scalar α] {assignment : Assignment α}

theorem exists_evaluateTerms_eq_ok
    {terms : List (String × α)}
    (covers : assignment.Covers (terms.map (·.1)))
    (total : α) :
    ∃ value, Expr.evaluateTerms assignment total terms = .ok value := by
  induction terms generalizing total with
  | nil =>
      exact ⟨total, rfl⟩
  | cons term rest inductionHypothesis =>
      obtain ⟨⟨number, isBound⟩, restCovers⟩ := List.forall_mem_cons.mp covers
      obtain ⟨value, isValue⟩ :=
        inductionHypothesis restCovers (total + term.2 * number)
      refine ⟨value, ?_⟩
      simpa [Expr.evaluateTerms, Assignment.read, isBound, bind, Except.bind] using isValue

variable [SolvingScalar α]

/-- A linear form whose names are bound to finite numbers is, as an expression, the fraction that it
means. -/
theorem exists_evaluate_toExpr_eq_ok
    {form : LinearForm α}
    (isFinite : form.IsFinite)
    (numbersFinite : assignment.IsFinite)
    (covers : assignment.Covers form.coefficients.names) :
    ∃ value,
      form.toExpr.evaluate assignment = .ok value ∧ Scalar.isFinite value = true ∧
        Scalar.fraction value = form.fractionOn assignment.place := by
  obtain ⟨value, isValue⟩ := exists_evaluateTerms_eq_ok covers form.constant
  obtain ⟨isFiniteValue, isFraction⟩ := Expr.isFinite_of_evaluateTerms_eq_ok numbersFinite
    isFinite.coefficients isFinite.constant isValue
  exact ⟨value, isValue, isFiniteValue, isFraction⟩

end LinearForm

namespace Expr

variable {α : Type} [Scalar α]

/-- An expression is written with finite numbers and has a given value. -/
structure Denotes (assignment : Assignment α) (expression : Expr α) (value : α) : Prop where
  isFinite : expression.IsFinite
  evaluates : expression.evaluate assignment = .ok value

/-- Why an expression cannot be raised to a power does not matter for its power. -/
theorem raise_eq_ok_of_raise_eq_ok
    {bare : Bool}
    {base exponent value : α}
    (other : Bool)
    (isRaised : raise bare base exponent = .ok value) :
    raise other base exponent = .ok value := by
  unfold raise at isRaised ⊢
  dsimp only at isRaised ⊢
  split at isRaised
  · cases isRaised
  · rename_i notZero
    rw [if_neg notZero]
    exact isRaised

section Collecting

variable {left right : Expr α} {form other : LinearForm α}

/-- The sum of expressions with linear forms is written as the sum of the forms. -/
theorem add_eq_toExpr
    (isLeft : left.linearForm? = .ok (some form))
    (isRight : right.linearForm? = .ok (some other)) :
    left.add right = .ok (form.add other).toExpr := by
  simp only [add, isLeft, isRight, bind, Except.bind]
  rfl

/-- A constant multiplies a linear form. -/
theorem scaledBy?_constant
    (isForm : right.linearForm? = .ok (some form))
    (factor : α) :
    scaledBy? (.constant factor) right = .ok (some (form.scale factor).toExpr) := by
  simp only [scaledBy?, isForm, bind, Except.bind]
  rfl

theorem multiply_eq_of_scaledBy?_right
    {scaled : Expr α}
    (isScaled : scaledBy? right left = .ok (some scaled)) :
    left.multiply right = .ok scaled := by
  simp only [multiply, isScaled, bind, Except.bind]
  rfl

theorem multiply_eq_of_scaledBy?_left
    {scaled : Expr α}
    (notScaled : scaledBy? right left = .ok none)
    (isScaled : scaledBy? left right = .ok (some scaled)) :
    left.multiply right = .ok scaled := by
  simp only [multiply, notScaled, isScaled, bind, Except.bind]
  rfl

theorem multiply_eq_product
    (notScaledByRight : scaledBy? right left = .ok none)
    (notScaledByLeft : scaledBy? left right = .ok none) :
    left.multiply right = .ok (.product [left, right]) := by
  simp only [multiply, notScaledByRight, notScaledByLeft, bind, Except.bind]
  rfl

/-- Something can be built, and it has a linear form. -/
def BuildsLinear {ε : Type} (outcome : Except ε (Expr α)) : Prop :=
  ∃ expression form, outcome = .ok expression ∧ expression.linearForm? = .ok (some form)

theorem buildsLinear_add
    (isLeft : left.linearForm? = .ok (some form))
    (isRight : right.linearForm? = .ok (some other)) :
    BuildsLinear (left.add right) :=
  ⟨_, _, add_eq_toExpr isLeft isRight, rfl⟩

theorem buildsLinear_multiply_constant
    (isForm : left.linearForm? = .ok (some form))
    (factor : α) :
    BuildsLinear (left.multiply (.constant factor)) :=
  ⟨_, _, multiply_eq_of_scaledBy?_right (scaledBy?_constant isForm factor), rfl⟩

theorem buildsLinear_constant_multiply
    (isForm : right.linearForm? = .ok (some form))
    (factor : α) :
    BuildsLinear ((Expr.constant factor).multiply right) := by
  cases right with
  | constant value => exact buildsLinear_multiply_constant rfl value
  | _ => exact ⟨_, _, multiply_eq_of_scaledBy?_left rfl (scaledBy?_constant isForm factor), rfl⟩

theorem buildsLinear_subtract
    (isLeft : left.linearForm? = .ok (some form))
    (isRight : right.linearForm? = .ok (some other)) :
    BuildsLinear (left.subtract right) := by
  obtain ⟨opposite, oppositeForm, isOpposite, isForm⟩ :=
    buildsLinear_multiply_constant isRight (-1)
  simp only [subtract, negate, isOpposite, bind, Except.bind]
  exact buildsLinear_add isLeft isForm

end Collecting

section Combining

variable [SolvingScalar α] {assignment : Assignment α} {left right operand : Expr α}
  {first second value : α}

theorem Denotes.isFinite_value
    (denotes : operand.Denotes assignment value)
    (numbersFinite : assignment.IsFinite) :
    Scalar.isFinite value = true :=
  isFinite_of_evaluate_eq_ok numbersFinite operand denotes.isFinite denotes.evaluates

/-- What is found of the form of an expression with a value: it means the value, and reads names
that are bound. -/
theorem Denotes.exists_linearForm?
    (denotes : operand.Denotes assignment value)
    (numbersFinite : assignment.IsFinite) :
    ∃ form?,
      operand.linearForm? = .ok form? ∧
        ∀ form, form? = some form →
          form.IsFinite ∧ form.fractionOn assignment.place = Scalar.fraction value ∧
            assignment.Covers form.coefficients.names := by
  obtain ⟨form?, isForm, means⟩ :=
    finds_linearForm? numbersFinite operand denotes.isFinite denotes.evaluates
  refine ⟨form?, isForm, ?_⟩
  rintro form rfl
  obtain ⟨isFinite, isFraction⟩ := means form rfl
  have areBound := covers_of_evaluate_eq_ok operand denotes.evaluates
  exact ⟨isFinite, isFraction, areBound.mono (mem_names_of_linearForm?_eq_ok operand isForm)⟩

/-- A linear form on bound names denotes any finite number that is the fraction it means. -/
theorem denotes_toExpr
    {form : LinearForm α}
    (isFinite : form.IsFinite)
    (numbersFinite : assignment.IsFinite)
    (covers : assignment.Covers form.coefficients.names)
    (isFiniteValue : Scalar.isFinite value = true)
    (isFraction : form.fractionOn assignment.place = Scalar.fraction value) :
    form.toExpr.Denotes assignment value := by
  obtain ⟨result, isResult, isFiniteResult, isMeant⟩ :=
    LinearForm.exists_evaluate_toExpr_eq_ok isFinite numbersFinite covers
  obtain rfl : result = value :=
    Scalar.eq_of_fraction_eq isFiniteResult isFiniteValue (isMeant.trans isFraction)
  exact ⟨⟨isFinite.coefficients, isFinite.constant⟩, isResult⟩

/-- Adding expressions adds their values. -/
theorem exists_add_denotes
    (numbersFinite : assignment.IsFinite)
    (leftDenotes : left.Denotes assignment first)
    (rightDenotes : right.Denotes assignment second) :
    ∃ sum, left.add right = .ok sum ∧ sum.Denotes assignment (first + second) := by
  obtain ⟨leftForm?, isLeft, leftMeans⟩ := leftDenotes.exists_linearForm? numbersFinite
  obtain ⟨rightForm?, isRight, rightMeans⟩ := rightDenotes.exists_linearForm? numbersFinite
  have plain : (Expr.sum [left, right]).Denotes assignment (first + second) := by
    refine ⟨⟨leftDenotes.isFinite, rightDenotes.isFinite, trivial⟩, ?_⟩
    simp [evaluate, evaluateSum, leftDenotes.evaluates, rightDenotes.evaluates, bind, Except.bind]
  cases leftForm? with
  | none =>
      refine ⟨.sum [left, right], ?_, plain⟩
      simp only [add, isLeft, isRight, bind, Except.bind]
      rfl
  | some leftForm =>
      cases rightForm? with
      | none =>
          refine ⟨.sum [left, right], ?_, plain⟩
          simp only [add, isLeft, isRight, bind, Except.bind]
          rfl
      | some rightForm =>
          obtain ⟨isFiniteLeft, isFirst, coversLeft⟩ := leftMeans leftForm rfl
          obtain ⟨isFiniteRight, isSecond, coversRight⟩ := rightMeans rightForm rfl
          obtain ⟨isFinite, isSum⟩ := LinearForm.fractionOn_add isFiniteLeft isFiniteRight
          obtain ⟨isFiniteValue, isValue⟩ :=
            Scalar.fraction_add (leftDenotes.isFinite_value numbersFinite)
              (rightDenotes.isFinite_value numbersFinite)
          refine ⟨_, add_eq_toExpr isLeft isRight, ?_⟩
          refine denotes_toExpr isFinite numbersFinite ?_ isFiniteValue ?_
          · intro name member
            exact (LinearForm.mem_names_add member).elim (coversLeft name) (coversRight name)
          · rw [isSum, isFirst, isSecond, isValue]

/-- Where one of two expressions is a constant, the multiple of the other's form that is found
denotes the product. -/
theorem exists_scaledBy?_denotes
    (numbersFinite : assignment.IsFinite)
    (leftDenotes : left.Denotes assignment first)
    (rightDenotes : right.Denotes assignment second) :
    ∃ scaled?,
      scaledBy? left right = .ok scaled? ∧
        ∀ scaled, scaled? = some scaled → scaled.Denotes assignment (second * first) := by
  cases left with
  | constant factor =>
      obtain rfl := Except.ok.inj leftDenotes.evaluates
      obtain ⟨form?, isForm, means⟩ := rightDenotes.exists_linearForm? numbersFinite
      cases form? with
      | none =>
          refine ⟨none, ?_, nofun⟩
          simp only [scaledBy?, isForm, bind, Except.bind]
          rfl
      | some form =>
          obtain ⟨isFiniteForm, isFraction, covers⟩ := means form rfl
          obtain ⟨isFinite, isMultiple⟩ :=
            LinearForm.fractionOn_scale isFiniteForm leftDenotes.isFinite
          obtain ⟨isFiniteValue, isValue⟩ :=
            Scalar.fraction_mul (rightDenotes.isFinite_value numbersFinite) leftDenotes.isFinite
          refine ⟨_, scaledBy?_constant isForm factor, ?_⟩
          rintro scaled ⟨⟩
          refine denotes_toExpr isFinite numbersFinite ?_ isFiniteValue ?_
          · rw [LinearForm.names_scale]
            exact covers
          · rw [isMultiple, isFraction, isValue]
  | _ => exact ⟨none, rfl, nofun⟩

/-- Multiplying expressions multiplies their values. -/
theorem exists_multiply_denotes
    (numbersFinite : assignment.IsFinite)
    (leftDenotes : left.Denotes assignment first)
    (rightDenotes : right.Denotes assignment second) :
    ∃ product, left.multiply right = .ok product ∧ product.Denotes assignment (first * second) := by
  have isFiniteFirst := leftDenotes.isFinite_value numbersFinite
  have isFiniteSecond := rightDenotes.isFinite_value numbersFinite
  obtain ⟨byRight?, isByRight, rightScales⟩ :=
    exists_scaledBy?_denotes numbersFinite rightDenotes leftDenotes
  obtain ⟨byLeft?, isByLeft, leftScales⟩ :=
    exists_scaledBy?_denotes numbersFinite leftDenotes rightDenotes
  cases byRight? with
  | some scaled =>
      exact ⟨scaled, multiply_eq_of_scaledBy?_right isByRight, rightScales scaled rfl⟩
  | none =>
      cases byLeft? with
      | some scaled =>
          refine ⟨scaled, multiply_eq_of_scaledBy?_left isByRight isByLeft, ?_⟩
          rw [Scalar.mul_comm_of_isFinite isFiniteFirst isFiniteSecond]
          exact leftScales scaled rfl
      | none =>
          refine ⟨_, multiply_eq_product isByRight isByLeft, ?_⟩
          refine ⟨⟨leftDenotes.isFinite, rightDenotes.isFinite, trivial⟩, ?_⟩
          simp [evaluate, evaluateProduct, leftDenotes.evaluates, rightDenotes.evaluates, bind,
            Except.bind, Scalar.one_mul_of_isFinite isFiniteFirst]

/-- The opposite of an expression has the opposite value. -/
theorem exists_negate_denotes
    (numbersFinite : assignment.IsFinite)
    (denotes : operand.Denotes assignment value) :
    ∃ opposite, operand.negate = .ok opposite ∧ opposite.Denotes assignment (-value) := by
  have minusOne : (Expr.constant (-1 : α)).Denotes assignment (-1) :=
    ⟨(Scalar.fraction_neg Scalar.isFinite_one).1, rfl⟩
  rw [← Scalar.mul_neg_one_of_isFinite (denotes.isFinite_value numbersFinite)]
  exact exists_multiply_denotes numbersFinite denotes minusOne

/-- Subtracting expressions subtracts their values. -/
theorem exists_subtract_denotes
    (numbersFinite : assignment.IsFinite)
    (leftDenotes : left.Denotes assignment first)
    (rightDenotes : right.Denotes assignment second) :
    ∃ difference,
      left.subtract right = .ok difference ∧ difference.Denotes assignment (first - second) := by
  obtain ⟨opposite, isOpposite, oppositeDenotes⟩ :=
    exists_negate_denotes numbersFinite rightDenotes
  rw [SolvingScalar.sub_eq_add_neg]
  simp only [subtract, isOpposite, bind, Except.bind]
  exact exists_add_denotes numbersFinite leftDenotes oppositeDenotes

end Combining

end Expr

namespace ArithmeticTerm

variable {α : Type} [Scalar α]

section Building

variable {operand left right : ArithmeticTerm α} {first second result : Expr α}

theorem build_negation
    (isBuilt : operand.build = .ok first)
    (isResult : first.negate = .ok result) :
    (negation operand).build = .ok result := by
  simp only [build, isBuilt, isResult, bind, Except.bind]
  rfl

theorem build_addition
    (isLeft : left.build = .ok first)
    (isRight : right.build = .ok second)
    (isResult : first.add second = .ok result) :
    (addition left right).build = .ok result := by
  simp only [build, isLeft, isRight, isResult, bind, Except.bind]
  rfl

theorem build_subtraction
    (isLeft : left.build = .ok first)
    (isRight : right.build = .ok second)
    (isResult : first.subtract second = .ok result) :
    (subtraction left right).build = .ok result := by
  simp only [build, isLeft, isRight, isResult, bind, Except.bind]
  rfl

theorem build_multiplication
    (isLeft : left.build = .ok first)
    (isRight : right.build = .ok second)
    (isResult : first.multiply second = .ok result) :
    (multiplication left right).build = .ok result := by
  simp only [build, isLeft, isRight, isResult, bind, Except.bind]
  rfl

/-- A number, on its own or as an expression, builds a constant. -/
theorem IsNumber.exists_build_eq_ok
    (isNumber : operand.IsNumber) :
    ∃ value, operand.build = .ok (.constant value) := by
  cases operand with
  | leaf operand => exact isNumber
  | _ => exact isNumber.elim

end Building

/-- A term that adds, subtracts and multiplies by numbers what has a linear form builds what has
one. -/
theorem IsLinear.buildsLinear
    {term : ArithmeticTerm α}
    (isLinear : term.IsLinear) :
    Expr.BuildsLinear term.build := by
  induction term with
  | leaf operand => exact isLinear
  | negation operand inductionHypothesis =>
      obtain ⟨expression, form, isBuilt, isForm⟩ := inductionHypothesis isLinear
      obtain ⟨opposite, oppositeForm, isOpposite, hasForm⟩ :=
        Expr.buildsLinear_multiply_constant isForm (-1)
      exact ⟨opposite, oppositeForm, build_negation isBuilt isOpposite, hasForm⟩
  | addition left right leftHypothesis rightHypothesis =>
      obtain ⟨first, firstForm, isLeft, isFirst⟩ := leftHypothesis isLinear.1
      obtain ⟨second, secondForm, isRight, isSecond⟩ := rightHypothesis isLinear.2
      obtain ⟨sum, form, isSum, isForm⟩ := Expr.buildsLinear_add isFirst isSecond
      exact ⟨sum, form, build_addition isLeft isRight isSum, isForm⟩
  | subtraction left right leftHypothesis rightHypothesis =>
      obtain ⟨first, firstForm, isLeft, isFirst⟩ := leftHypothesis isLinear.1
      obtain ⟨second, secondForm, isRight, isSecond⟩ := rightHypothesis isLinear.2
      obtain ⟨difference, form, isDifference, isForm⟩ :=
        Expr.buildsLinear_subtract isFirst isSecond
      exact ⟨difference, form, build_subtraction isLeft isRight isDifference, isForm⟩
  | multiplication left right leftHypothesis rightHypothesis =>
      rcases isLinear with ⟨isNumber, isLinear⟩ | ⟨isLinear, isNumber⟩
      · obtain ⟨factor, isLeft⟩ := isNumber.exists_build_eq_ok
        obtain ⟨second, secondForm, isRight, isSecond⟩ := rightHypothesis isLinear
        obtain ⟨product, form, isProduct, isForm⟩ :=
          Expr.buildsLinear_constant_multiply isSecond factor
        exact ⟨product, form, build_multiplication isLeft isRight isProduct, isForm⟩
      · obtain ⟨first, firstForm, isLeft, isFirst⟩ := leftHypothesis isLinear
        obtain ⟨factor, isRight⟩ := isNumber.exists_build_eq_ok
        obtain ⟨product, form, isProduct, isForm⟩ :=
          Expr.buildsLinear_multiply_constant isFirst factor
        exact ⟨product, form, build_multiplication isLeft isRight isProduct, isForm⟩
  | exponentiation base exponent => exact isLinear.elim

variable [SolvingScalar α] {assignment : Assignment α}

/-- Where the plain reading of a term has a value, the term builds an expression that denotes it. -/
theorem exists_build_denotes
    (numbersFinite : assignment.IsFinite)
    {term : ArithmeticTerm α}
    (isFinite : term.IsFinite)
    {value : α}
    (isRead : term.reading assignment = some value) :
    ∃ expression, term.build = .ok expression ∧ expression.Denotes assignment value := by
  induction term generalizing value with
  | leaf operand =>
      cases operand with
      | expression expression =>
          refine ⟨expression, rfl, isFinite, ?_⟩
          exact eq_ok_of_toOption_eq_some isRead
      | number number =>
          cases isRead
          exact ⟨.constant value, rfl, isFinite, rfl⟩
      | unusable kind => cases isRead
  | negation operand inductionHypothesis =>
      obtain ⟨inner, isInner, isRead⟩ := Option.bind_eq_some_iff.mp isRead
      cases isRead
      obtain ⟨expression, isBuilt, denotes⟩ := inductionHypothesis isFinite isInner
      obtain ⟨opposite, isOpposite, oppositeDenotes⟩ :=
        Expr.exists_negate_denotes numbersFinite denotes
      exact ⟨opposite, build_negation isBuilt isOpposite, oppositeDenotes⟩
  | addition left right leftHypothesis rightHypothesis =>
      obtain ⟨first, isFirst, isRead⟩ := Option.bind_eq_some_iff.mp isRead
      obtain ⟨second, isSecond, isRead⟩ := Option.bind_eq_some_iff.mp isRead
      cases isRead
      obtain ⟨leftBuilt, isLeft, leftDenotes⟩ := leftHypothesis isFinite.1 isFirst
      obtain ⟨rightBuilt, isRight, rightDenotes⟩ := rightHypothesis isFinite.2 isSecond
      obtain ⟨sum, isSum, denotes⟩ :=
        Expr.exists_add_denotes numbersFinite leftDenotes rightDenotes
      exact ⟨sum, build_addition isLeft isRight isSum, denotes⟩
  | subtraction left right leftHypothesis rightHypothesis =>
      obtain ⟨first, isFirst, isRead⟩ := Option.bind_eq_some_iff.mp isRead
      obtain ⟨second, isSecond, isRead⟩ := Option.bind_eq_some_iff.mp isRead
      cases isRead
      obtain ⟨leftBuilt, isLeft, leftDenotes⟩ := leftHypothesis isFinite.1 isFirst
      obtain ⟨rightBuilt, isRight, rightDenotes⟩ := rightHypothesis isFinite.2 isSecond
      obtain ⟨difference, isDifference, denotes⟩ :=
        Expr.exists_subtract_denotes numbersFinite leftDenotes rightDenotes
      exact ⟨difference, build_subtraction isLeft isRight isDifference, denotes⟩
  | multiplication left right leftHypothesis rightHypothesis =>
      obtain ⟨first, isFirst, isRead⟩ := Option.bind_eq_some_iff.mp isRead
      obtain ⟨second, isSecond, isRead⟩ := Option.bind_eq_some_iff.mp isRead
      cases isRead
      obtain ⟨leftBuilt, isLeft, leftDenotes⟩ := leftHypothesis isFinite.1 isFirst
      obtain ⟨rightBuilt, isRight, rightDenotes⟩ := rightHypothesis isFinite.2 isSecond
      obtain ⟨product, isProduct, denotes⟩ :=
        Expr.exists_multiply_denotes numbersFinite leftDenotes rightDenotes
      exact ⟨product, build_multiplication isLeft isRight isProduct, denotes⟩
  | exponentiation base exponent inductionHypothesis =>
      obtain ⟨number, isNumber, isRead⟩ := Option.bind_eq_some_iff.mp isRead
      obtain ⟨expression, isBuilt, denotes⟩ := inductionHypothesis isFinite.1 isNumber
      refine ⟨.power expression exponent, ?_, ⟨denotes.isFinite, isFinite.2⟩, ?_⟩
      · simp only [build, isBuilt, bind, Except.bind]
        rfl
      · have isRaised :=
          Expr.raise_eq_ok_of_raise_eq_ok expression.isEmptySum (eq_ok_of_toOption_eq_some isRead)
        simp [Expr.evaluate, denotes.evaluates, isRaised, bind, Except.bind, Except.mapError]

/-- Building an expression keeps the meaning of a term: wherever its plain reading has a value, on
exact numbers, the expression is built and has this value, however powers are defined beyond the
first and the zeroth.  A term that adds, subtracts and multiplies by numbers what has a linear form
builds an expression that has one. -/
theorem build_keeps_reading
    (term : ArithmeticTerm α) :
    (∀ (assignment : Assignment α) (value : α),
        term.IsFinite → assignment.IsFinite → term.reading assignment = some value →
          ∃ expression,
            term.build = .ok expression ∧ expression.evaluate assignment = .ok value) ∧
      (term.IsLinear →
        ∃ expression form,
          term.build = .ok expression ∧ expression.linearForm? = .ok (some form)) := by
  refine ⟨?_, fun isLinear => isLinear.buildsLinear⟩
  intro assignment value isFinite numbersFinite isRead
  obtain ⟨expression, isBuilt, denotes⟩ := exists_build_denotes numbersFinite isFinite isRead
  exact ⟨expression, isBuilt, denotes.evaluates⟩

section Examples

/-- Twice one number less the difference of three and the square of another. -/
def squareTerm : ArithmeticTerm Extended :=
  .subtraction
    (.multiplication (.leaf (.number (.finite 2))) (.leaf (.expression (.variable "x"))))
    (.subtraction (.leaf (.number (.finite 3)))
      (.exponentiation (.leaf (.expression (.variable "y"))) (.finite 2)))

/-- Twice one number and three times another, less one. -/
def slopeTerm : ArithmeticTerm Extended :=
  .subtraction
    (.addition
      (.multiplication (.leaf (.number (.finite 2))) (.leaf (.expression (.variable "x"))))
      (.multiplication (.leaf (.expression (.variable "y"))) (.leaf (.number (.finite 3)))))
    (.leaf (.number (.finite 1)))

/-- The numbers of the examples. -/
def exampleNumbers : Assignment Extended :=
  .ofNumbers [("x", .finite 5), ("y", .finite 3)]

theorem exampleNumbers_isFinite :
    exampleNumbers.IsFinite := by
  intro name value isBound
  simp only [exampleNumbers, Assignment.ofNumbers, Table.get?, List.map_cons, List.map_nil,
    List.lookup_cons, List.lookup_nil] at isBound
  split at isBound
  · cases isBound
    rfl
  · split at isBound
    · cases isBound
      rfl
    · cases isBound

/-- A square is kept, and a term without it is collected into one that is visibly linear. -/
theorem squareTerm_keeps_reading :
    squareTerm.IsFinite ∧ exampleNumbers.IsFinite ∧
      squareTerm.reading exampleNumbers = some (.finite 16) ∧ slopeTerm.IsLinear ∧
      (∃ expression,
        squareTerm.build = .ok expression ∧
          expression.evaluate exampleNumbers = .ok (.finite 16)) ∧
      ∃ expression form,
        slopeTerm.build = .ok expression ∧ expression.linearForm? = .ok (some form) := by
  have isFinite : squareTerm.IsFinite := ⟨⟨rfl, trivial⟩, rfl, trivial, rfl⟩
  have isRead : squareTerm.reading exampleNumbers = some (.finite 16) := by decide +kernel
  have isLinear : slopeTerm.IsLinear :=
    ⟨⟨.inl ⟨⟨_, rfl⟩, _, _, rfl, rfl⟩, .inr ⟨⟨_, _, rfl, rfl⟩, _, rfl⟩⟩, _, _, rfl, rfl⟩
  exact ⟨isFinite, exampleNumbers_isFinite, isRead, isLinear,
    (build_keeps_reading squareTerm).1 _ _ isFinite exampleNumbers_isFinite isRead,
    (build_keeps_reading slopeTerm).2 isLinear⟩

end Examples

end ArithmeticTerm

end Optima
