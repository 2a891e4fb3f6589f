import Optima.Proofs.Expression.Linearity
import Optima.Proofs.Expression.Naming
import Optima.Proofs.Scalar.Solving

namespace Optima

/-!
# What a linear form says of a value

Whatever a linear form is found for, linear or not, is an expression that means this form:
where it has a value on finite numbers, the search for a form does not fail, and a form that
is found is that value, as an equation of fractions.
-/

/-- The numbers of an assignment are finite. -/
def Assignment.IsFinite {α : Type} [Scalar α] (assignment : Assignment α) : Prop :=
  ∀ name value, assignment.get? name = some (.number value) → Scalar.isFinite value = true

namespace Assignment

variable {α : Type} [Scalar α] {assignment : Assignment α}

/-- The fraction that a name is bound to, or zero. -/
def place (assignment : Assignment α) (name : String) : Rat :=
  match assignment.get? name with
  | some (.number value) => Scalar.fraction value
  | _ => 0

theorem place_of_get?
    {name : String}
    {value : α}
    (isBound : assignment.get? name = some (.number value)) :
    assignment.place name = Scalar.fraction value := by
  simp [place, isBound]

end Assignment

namespace Expr

variable {α : Type} [Scalar α]

mutual

/-- The numbers that an expression is written with are finite. -/
def IsFinite : Expr α → Prop
  | .constant value => Scalar.isFinite value = true
  | .variable _ => True
  | .linear coefficients offset =>
    Scalar.AreFinite coefficients.values ∧ Scalar.isFinite offset = true
  | .sum terms => AreFinite terms
  | .product factors => AreFinite factors
  | .power base exponent => base.IsFinite ∧ Scalar.isFinite exponent = true
  | .absolute operand => operand.IsFinite
  | .condition operand _ target => operand.IsFinite ∧ Scalar.isFinite target = true

/-- The numbers that the expressions of a list are written with are finite. -/
def AreFinite : List (Expr α) → Prop
  | [] => True
  | expression :: rest => expression.IsFinite ∧ AreFinite rest

end

theorem isFinite_of_raise_eq_ok
    {bare : Bool}
    {base exponent result : α}
    (isFinite : Scalar.isFinite base = true)
    (isFiniteToo : Scalar.isFinite exponent = true)
    (isRaised : raise bare base exponent = .ok result) :
    Scalar.isFinite result = true := by
  unfold raise at isRaised
  simp only [isFinite, isFiniteToo, Bool.and_self, Bool.true_and] at isRaised
  split at isRaised
  · cases isRaised
  · split at isRaised
    · split at isRaised <;> cases isRaised
    · split at isRaised
      · cases isRaised
      · rename_i isFiniteResult
        cases isRaised
        simpa using isFiniteResult

/-- A search for a form does not fail, and what it finds is finite and a given fraction. -/
def Finds (outcome : Except (EvalFailure α) (Option (LinearForm α))) (place : String → Rat)
    (fraction : Rat) : Prop :=
  ∃ form?,
    outcome = .ok form? ∧
      ∀ form, form? = some form → form.IsFinite ∧ form.fractionOn place = fraction

theorem finds_some
    {form : LinearForm α}
    {place : String → Rat}
    {fraction : Rat}
    (isFinite : form.IsFinite)
    (isFraction : form.fractionOn place = fraction) :
    Finds (.ok (some form)) place fraction :=
  ⟨some form, rfl, by rintro _ ⟨⟩; exact ⟨isFinite, isFraction⟩⟩

theorem finds_none
    {place : String → Rat}
    {fraction : Rat} :
    Finds (.ok none : Except (EvalFailure α) (Option (LinearForm α))) place fraction :=
  ⟨none, rfl, nofun⟩

variable [SolvingScalar α] {assignment : Assignment α}

theorem isFinite_of_evaluateTerms_eq_ok
    (numbersFinite : assignment.IsFinite)
    {terms : List (String × α)}
    (areFinite : Scalar.AreFinite (terms.map (·.2)))
    {total value : α}
    (isFinite : Scalar.isFinite total = true)
    (isValue : evaluateTerms assignment total terms = .ok value) :
    Scalar.isFinite value = true ∧
      Scalar.fraction value = Scalar.fraction total + LinearForm.weigh terms assignment.place := by
  induction terms generalizing total with
  | nil =>
      cases isValue
      exact ⟨isFinite, (add_zero _).symm⟩
  | cons term rest inductionHypothesis =>
      obtain ⟨isFiniteCoefficient, restFinite⟩ := List.forall_mem_cons.mp areFinite
      obtain ⟨number, isRead, isValue⟩ := bind_eq_ok isValue
      have isBound := Assignment.get?_of_read_eq_ok isRead
      obtain ⟨isFiniteProduct, isProduct⟩ :=
        Scalar.fraction_mul isFiniteCoefficient (numbersFinite _ _ isBound)
      obtain ⟨isFiniteSum, isSum⟩ := Scalar.fraction_add isFinite isFiniteProduct
      obtain ⟨isFiniteValue, isFraction⟩ := inductionHypothesis restFinite isFiniteSum isValue
      refine ⟨isFiniteValue, ?_⟩
      rw [isFraction, isSum, isProduct, LinearForm.weigh_cons, Assignment.place_of_get? isBound,
        add_assoc]

mutual

/-- An expression that is written with finite numbers has finite values on finite numbers. -/
theorem isFinite_of_evaluate_eq_ok
    (numbersFinite : assignment.IsFinite)
    (expression : Expr α)
    (isFinite : expression.IsFinite)
    {value : α}
    (isValue : expression.evaluate assignment = .ok value) :
    Scalar.isFinite value = true := by
  match expression, isFinite with
  | .constant value, isFinite =>
      cases isValue
      exact isFinite
  | .variable name, _ =>
      exact numbersFinite name value (Assignment.get?_of_read_eq_ok isValue)
  | .linear coefficients offset, ⟨areFinite, isFinite⟩ =>
      exact (isFinite_of_evaluateTerms_eq_ok numbersFinite areFinite isFinite isValue).1
  | .sum terms, areFinite =>
      exact isFinite_of_evaluateSum_eq_ok numbersFinite terms areFinite Scalar.isFinite_zero isValue
  | .product factors, areFinite =>
      exact isFinite_of_evaluateProduct_eq_ok numbersFinite factors areFinite Scalar.isFinite_one
        isValue
  | .power base exponent, ⟨isFinite, isFiniteToo⟩ =>
      obtain ⟨number, isNumber, isValue⟩ := bind_eq_ok isValue
      exact isFinite_of_raise_eq_ok
        (isFinite_of_evaluate_eq_ok numbersFinite base isFinite isNumber) isFiniteToo
        (mapError_eq_ok isValue)
  | .absolute operand, isFinite =>
      obtain ⟨number, isNumber, isValue⟩ := bind_eq_ok isValue
      cases isValue
      exact (Scalar.fraction_magnitude
        (isFinite_of_evaluate_eq_ok numbersFinite operand isFinite isNumber)).1
  | .condition operand comparison target, _ =>
      obtain ⟨number, isNumber, isValue⟩ := bind_eq_ok isValue
      cases isValue
      unfold Scalar.indicator
      split
      · exact Scalar.isFinite_one
      · exact Scalar.isFinite_zero

theorem isFinite_of_evaluateSum_eq_ok
    (numbersFinite : assignment.IsFinite)
    (terms : List (Expr α))
    (areFinite : AreFinite terms)
    {total value : α}
    (isFiniteTotal : Scalar.isFinite total = true)
    (isValue : evaluateSum assignment total terms = .ok value) :
    Scalar.isFinite value = true := by
  match terms, areFinite with
  | [], _ =>
      cases isValue
      exact isFiniteTotal
  | expression :: rest, ⟨isFinite, restFinite⟩ =>
      obtain ⟨number, isNumber, isValue⟩ := bind_eq_ok isValue
      have isFiniteNumber :=
        isFinite_of_evaluate_eq_ok numbersFinite expression isFinite isNumber
      exact isFinite_of_evaluateSum_eq_ok numbersFinite rest restFinite
        (Scalar.fraction_add isFiniteTotal isFiniteNumber).1 isValue

theorem isFinite_of_evaluateProduct_eq_ok
    (numbersFinite : assignment.IsFinite)
    (factors : List (Expr α))
    (areFinite : AreFinite factors)
    {total value : α}
    (isFiniteTotal : Scalar.isFinite total = true)
    (isValue : evaluateProduct assignment total factors = .ok value) :
    Scalar.isFinite value = true := by
  match factors, areFinite with
  | [], _ =>
      cases isValue
      exact isFiniteTotal
  | expression :: rest, ⟨isFinite, restFinite⟩ =>
      obtain ⟨number, isNumber, isValue⟩ := bind_eq_ok isValue
      have isFiniteNumber :=
        isFinite_of_evaluate_eq_ok numbersFinite expression isFinite isNumber
      exact isFinite_of_evaluateProduct_eq_ok numbersFinite rest restFinite
        (Scalar.fraction_mul isFiniteTotal isFiniteNumber).1 isValue

end

/-- Raising a finite number to the first power leaves it as it is, and to the zeroth gives one. -/
theorem fraction_of_raise_eq_ok
    {bare : Bool}
    {base result : α}
    (isFinite : Scalar.isFinite base = true) :
    (raise bare base 1 = .ok result → Scalar.fraction result = Scalar.fraction base) ∧
      (raise bare base 0 = .ok result → Scalar.fraction result = 1) := by
  constructor
  · intro isRaised
    obtain ⟨power, isPower, -, isFraction⟩ := exists_raise_one_eq_ok isFinite bare
    obtain rfl := Except.ok.inj (isPower.symm.trans isRaised)
    exact isFraction
  · intro isRaised
    obtain ⟨power, isPower, -, isFraction⟩ := exists_raise_zero_eq_ok isFinite bare
    obtain rfl := Except.ok.inj (isPower.symm.trans isRaised)
    exact isFraction

mutual

/-- Where an expression has a value on finite numbers, a form that is found for it is this value. -/
theorem finds_linearForm?
    (numbersFinite : assignment.IsFinite)
    (expression : Expr α)
    (isFinite : expression.IsFinite)
    {value : α}
    (isValue : expression.evaluate assignment = .ok value) :
    Finds expression.linearForm? assignment.place (Scalar.fraction value) := by
  match expression, isFinite with
  | .constant value, isFinite =>
      cases isValue
      exact finds_some (LinearForm.isFinite_ofConstant isFinite)
        (LinearForm.fractionOn_ofConstant _ _)
  | .variable name, _ =>
      have isBound := Assignment.get?_of_read_eq_ok isValue
      refine finds_some ⟨?_, Scalar.isFinite_zero⟩ ?_
      · exact List.forall_mem_singleton.mpr Scalar.isFinite_one
      · simp [LinearForm.fractionOn, Assignment.place_of_get? isBound]
  | .linear coefficients offset, ⟨areFinite, isFinite⟩ =>
      exact finds_some ⟨areFinite, isFinite⟩
        (isFinite_of_evaluateTerms_eq_ok numbersFinite areFinite isFinite isValue).2.symm
  | .sum terms, areFinite =>
      exact finds_sumForm? numbersFinite terms areFinite
        (LinearForm.isFinite_ofConstant Scalar.isFinite_zero) Scalar.isFinite_zero
        (LinearForm.fractionOn_ofConstant _ _) isValue
  | .product factors, areFinite =>
      exact finds_productForm? numbersFinite factors areFinite Scalar.isFinite_one
        Scalar.isFinite_one none rfl isValue
  | .power base exponent, ⟨isFinite, _⟩ =>
      obtain ⟨number, isNumber, isValue⟩ := bind_eq_ok isValue
      have isRaised := mapError_eq_ok isValue
      have isFiniteNumber := isFinite_of_evaluate_eq_ok numbersFinite base isFinite isNumber
      unfold linearForm?
      split
      · rename_i isOne
        obtain rfl := Scalar.eq_of_beq isOne
        rw [(fraction_of_raise_eq_ok isFiniteNumber).1 isRaised]
        exact finds_linearForm? numbersFinite base isFinite isNumber
      · split
        · rename_i isZero
          obtain rfl := Scalar.eq_of_beq isZero
          rw [(fraction_of_raise_eq_ok isFiniteNumber).2 isRaised]
          refine finds_some (LinearForm.isFinite_ofConstant Scalar.isFinite_one) ?_
          simp
        · exact finds_none
  | .absolute _, _ => exact finds_none
  | .condition _ _ _, _ => exact finds_none

/-- A form that is found for a sum after other terms is the value of the whole. -/
theorem finds_sumForm?
    (numbersFinite : assignment.IsFinite)
    (terms : List (Expr α))
    (areFinite : AreFinite terms)
    {before : LinearForm α}
    (isFiniteBefore : before.IsFinite)
    {total value : α}
    (isFiniteTotal : Scalar.isFinite total = true)
    (isTotal : before.fractionOn assignment.place = Scalar.fraction total)
    (isValue : evaluateSum assignment total terms = .ok value) :
    Finds (sumForm? before terms) assignment.place (Scalar.fraction value) := by
  match terms, areFinite with
  | [], _ =>
      cases isValue
      exact finds_some isFiniteBefore isTotal
  | expression :: rest, ⟨isFinite, restFinite⟩ =>
      obtain ⟨number, isNumber, isValue⟩ := bind_eq_ok isValue
      have isFiniteNumber :=
        isFinite_of_evaluate_eq_ok numbersFinite expression isFinite isNumber
      obtain ⟨isFiniteNext, isNext⟩ := Scalar.fraction_add isFiniteTotal isFiniteNumber
      obtain ⟨form?, isForm, means⟩ :=
        finds_linearForm? numbersFinite expression isFinite isNumber
      cases form? with
      | none =>
          simp only [sumForm?, isForm, bind, Except.bind]
          exact finds_none
      | some added =>
          obtain ⟨isFiniteAdded, isAdded⟩ := means added rfl
          obtain ⟨isFiniteSum, isSum⟩ := LinearForm.fractionOn_add isFiniteBefore isFiniteAdded
          have restFinds :=
            finds_sumForm? numbersFinite rest restFinite isFiniteSum isFiniteNext
              (by rw [isSum, isTotal, isAdded, isNext]) isValue
          simpa only [sumForm?, isForm, bind, Except.bind] using restFinds

/-- A form that is found for a product after other factors is the value of the whole. -/
theorem finds_productForm?
    (numbersFinite : assignment.IsFinite)
    (factors : List (Expr α))
    (areFinite : AreFinite factors)
    {scale total value : α}
    (isFiniteScale : Scalar.isFinite scale = true)
    (isFiniteTotal : Scalar.isFinite total = true)
    (varying : Option (Except (EvalFailure α) (Option (LinearForm α))))
    (isTotal :
      match varying with
      | none => Scalar.fraction total = Scalar.fraction scale
      | some outcome =>
        ∃ fraction, Finds outcome assignment.place fraction ∧
          Scalar.fraction total = fraction * Scalar.fraction scale)
    (isValue : evaluateProduct assignment total factors = .ok value) :
    Finds (productForm? scale varying factors) assignment.place (Scalar.fraction value) := by
  match factors, areFinite, varying, isTotal with
  | [], _, none, isTotal =>
      cases isValue
      refine finds_some (LinearForm.isFinite_ofConstant isFiniteScale) ?_
      rw [LinearForm.fractionOn_ofConstant, isTotal]
  | [], _, some outcome, ⟨fraction, ⟨form?, isForm, means⟩, isTotal⟩ =>
      cases isValue
      subst isForm
      cases form? with
      | none => exact finds_none
      | some form =>
          obtain ⟨isFiniteForm, isFraction⟩ := means form rfl
          obtain ⟨isFiniteScaled, isScaled⟩ :=
            LinearForm.fractionOn_scale isFiniteForm isFiniteScale
          exact finds_some isFiniteScaled (by rw [isScaled, isFraction, isTotal])
  | expression :: rest, ⟨isFinite, restFinite⟩, varying, isTotal =>
      obtain ⟨number, isNumber, isValue⟩ := bind_eq_ok isValue
      have isFiniteNumber :=
        isFinite_of_evaluate_eq_ok numbersFinite expression isFinite isNumber
      obtain ⟨isFiniteNext, isNext⟩ := Scalar.fraction_mul isFiniteTotal isFiniteNumber
      obtain ⟨isFiniteScaled, isScaled⟩ := Scalar.fraction_mul isFiniteScale isFiniteNumber
      by_cases readsNothing : expression.names.isEmpty = true
      · have isConstant : expression.evaluate {} = .ok number := by
          rw [← isNumber]
          apply evaluate_congr
          intro name member
          rw [List.isEmpty_iff.mp readsNothing] at member
          cases member
        have isRest :
            productForm? scale varying (expression :: rest) =
              productForm? (scale * number) varying rest := by
          cases varying <;> simp [productForm?, readsNothing, isConstant, bind, Except.bind]
        rw [isRest]
        refine finds_productForm? numbersFinite rest restFinite isFiniteScaled isFiniteNext varying
          ?_ isValue
        cases varying with
        | none => exact isNext.trans (by rw [isScaled, isTotal])
        | some outcome =>
            obtain ⟨fraction, finds, isTotal⟩ := isTotal
            exact ⟨fraction, finds, by rw [isNext, isScaled, isTotal, mul_assoc]⟩
      · cases varying with
        | some outcome =>
            simp only [productForm?, readsNothing]
            exact finds_none
        | none =>
            simp only [productForm?, readsNothing]
            have isHere := finds_linearForm? numbersFinite expression isFinite isNumber
            exact finds_productForm? numbersFinite rest restFinite isFiniteScale isFiniteNext
              (some expression.linearForm?)
              ⟨_, isHere, by rw [isNext, isTotal, mul_comm]⟩ isValue

end

end Expr

/-!
## What is computed from a linear form

On finite numbers a linear form is its constant and the sum of what its coefficients make of the
numbers.  Wherever the expression that it was found for has a value, this is the value.
-/

namespace LinearForm

variable {α : Type} [Scalar α] [ExactScalar α]

/-- The value of a linear form is its constant and the sum of its terms. -/
theorem valueOn_eq_add_sum
    (form : LinearForm α)
    (numbers : String → α) :
    form.valueOn numbers =
      form.constant + (form.coefficients.entries.map fun term => term.2 * numbers term.1).sum := by
  have fromStart (terms : List (String × α)) (start : α) :
      terms.foldl (fun total term => total + term.2 * numbers term.1) start =
        start + (terms.map fun term => term.2 * numbers term.1).sum := by
    induction terms generalizing start with
    | nil => exact (add_zero start).symm
    | cons term rest inductionHypothesis =>
        rw [List.foldl_cons, inductionHypothesis, List.map_cons, List.sum_cons, add_assoc]
  exact fromStart form.coefficients.entries form.constant

end LinearForm

namespace Assignment

variable {α : Type} [Scalar α]

/-- The number that a name is bound to, or zero. -/
def numberOf (assignment : Assignment α) (name : String) : α :=
  match assignment.get? name with
  | some (.number value) => value
  | _ => 0

theorem isFinite_ofNumbers
    {numbers : List (String × α)}
    (areFinite : ∀ entry ∈ numbers, Scalar.isFinite entry.2 = true) :
    (ofNumbers numbers).IsFinite := by
  intro name value isBound
  obtain ⟨entry, member, isEntry⟩ := List.mem_map.mp (mem_of_lookup_eq_some isBound)
  cases isEntry
  exact areFinite entry member

theorem place_eq_fraction_numberOf
    [ArithmeticScalar α]
    (assignment : Assignment α) :
    assignment.place = fun name => Scalar.fraction (assignment.numberOf name) := by
  funext name
  unfold place numberOf
  rcases assignment.get? name with _ | (number | text | breakdown)
  · exact Scalar.fraction_zero.symm
  · rfl
  · exact Scalar.fraction_zero.symm
  · exact Scalar.fraction_zero.symm

end Assignment

namespace Expr

variable {α : Type} [Scalar α] [SolvingScalar α]

/--
A linear form that is found for an expression means what evaluating the expression means.  It has
coefficients for names of the expression only, and wherever an expression of finite numbers has a
value on finite numbers, this is the constant of the form and the sum of its coefficients times what
their names are bound to.
-/
theorem linearForm?_means_evaluate
    (expression : Expr α)
    (form : LinearForm α)
    (isForm : expression.linearForm? = .ok (some form)) :
    (∀ name ∈ form.coefficients.names, name ∈ expression.names) ∧
      ∀ (assignment : Assignment α) (value : α),
        expression.IsFinite →
          assignment.IsFinite →
            expression.evaluate assignment = .ok value →
              (∀ name ∈ form.coefficients.names,
                assignment.get? name = some (.number (assignment.numberOf name))) ∧
              value =
                form.constant +
                  (form.coefficients.entries.map fun term =>
                    term.2 * assignment.numberOf term.1).sum := by
  have areRead := expression.mem_names_of_linearForm?_eq_ok isForm
  refine ⟨areRead, ?_⟩
  intro assignment value isFinite numbersFinite isValue
  have areBound : ∀ name ∈ form.coefficients.names,
      assignment.get? name = some (.number (assignment.numberOf name)) := by
    intro name member
    obtain ⟨number, isBound⟩ :=
      expression.covers_of_evaluate_eq_ok isValue name (areRead name member)
    rw [Assignment.numberOf, isBound]
  refine ⟨areBound, ?_⟩
  obtain ⟨form?, isFormToo, means⟩ :=
    finds_linearForm? numbersFinite expression isFinite isValue
  obtain rfl := Except.ok.inj (isForm.symm.trans isFormToo)
  obtain ⟨isFiniteForm, isFraction⟩ := means form rfl
  obtain ⟨isFiniteValueOn, isValueOn⟩ :=
    LinearForm.fraction_valueOn isFiniteForm fun name member =>
      numbersFinite name _ (areBound name member)
  rw [← form.valueOn_eq_add_sum]
  exact Scalar.eq_of_fraction_eq
    (isFinite_of_evaluate_eq_ok numbersFinite expression isFinite isValue) isFiniteValueOn
    (by rw [isValueOn, ← assignment.place_eq_fraction_numberOf, isFraction])

/-- Twice the first power of what is read of two names, and the zeroth power of a third one. -/
def shippingCost : Expr Extended :=
  .sum
    [.product
      [.constant (.finite 2),
        .power
          (.sum [.variable "boxes", .linear ⟨[("miles", .finite 2), ("boxes", 1)]⟩ (.finite 3)]) 1,
        .power (.constant (.finite 5)) 0],
      .power (.variable "weight") 0]

/-- What is shipped. -/
def shipment : Assignment Extended :=
  .ofNumbers [("boxes", 1), ("miles", .finite (1 / 2)), ("weight", .finite 9)]

/-- The form of the shipping cost has merged what is read twice, and the weight has left it. -/
theorem shippingCost_means_evaluate :
    ∃ form,
      shippingCost.linearForm? = .ok (some form) ∧
        form = ⟨⟨[("boxes", .finite 4), ("miles", .finite 4)]⟩, .finite 7⟩ ∧
        shippingCost.evaluate shipment = .ok (.finite 13) ∧
        (.finite 13 : Extended) =
          form.constant +
            (form.coefficients.entries.map fun term =>
              term.2 * shipment.numberOf term.1).sum := by
  have isForm :
      shippingCost.linearForm? =
        .ok (some ⟨⟨[("boxes", .finite 4), ("miles", .finite 4)]⟩, .finite 7⟩) := by
    with_unfolding_all rfl
  have areFinite : Scalar.AreFinite [Extended.finite 2, 1] := by
    unfold Scalar.AreFinite
    decide
  have isFinite : shippingCost.IsFinite :=
    ⟨⟨rfl, ⟨⟨trivial, ⟨areFinite, rfl⟩, trivial⟩, rfl⟩, ⟨rfl, rfl⟩, trivial⟩, ⟨trivial, rfl⟩,
      trivial⟩
  have numbersFinite : shipment.IsFinite :=
    Assignment.isFinite_ofNumbers (by decide)
  have isValue : shippingCost.evaluate shipment = .ok (.finite 13) := by
    with_unfolding_all rfl
  exact ⟨_, isForm, rfl, isValue,
    ((linearForm?_means_evaluate _ _ isForm).2 _ _ isFinite numbersFinite isValue).2⟩

end Expr

end Optima
