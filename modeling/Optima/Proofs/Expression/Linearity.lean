import Mathlib.Algebra.BigOperators.Ring.List
import Mathlib.Tactic.Ring
import Optima.Linear.Program
import Optima.Proofs.Expression.Evaluation
import Optima.Proofs.Scalar.Rounding

namespace Optima

/-!
# Linear expressions

An expression is linear if it is built from finite numbers and names by sums, by products
with constant factors and by trivial powers.  Its linear form exists, and it is what the
expression means: on finite numbers both have the same value, as an equation of fractions.
-/

section Meaning

variable {α : Type} [Scalar α]

/-- A computation gives a number, which is a given fraction. -/
def Gives (outcome : Except (EvalFailure α) α) (fraction : Rat) : Prop :=
  ∃ value, outcome = .ok value ∧ Scalar.isFinite value = true ∧ Scalar.fraction value = fraction

/-- An assignment binds names to given finite numbers. -/
def Assignment.Binds (assignment : Assignment α) (numbers : String → α) (names : List String) :
    Prop :=
  ∀ name ∈ names,
    assignment.get? name = some (.number (numbers name)) ∧
      Scalar.isFinite (numbers name) = true

theorem Assignment.Binds.mono
    {assignment : Assignment α}
    {numbers : String → α}
    {names others : List String}
    (binds : assignment.Binds numbers names)
    (areNames : ∀ name ∈ others, name ∈ names) :
    assignment.Binds numbers others :=
  fun name member => binds name (areNames name member)

/-- Names can be bound to any finite numbers. -/
theorem Assignment.exists_binds
    {numbers : String → α}
    {names : List String}
    (areFinite : ∀ name ∈ names, Scalar.isFinite (numbers name) = true) :
    ∃ assignment : Assignment α, assignment.Binds numbers names := by
  refine ⟨Table.ofList (names.eraseDups.map fun name => (name, .number (numbers name))),
    fun name member => ⟨?_, areFinite name member⟩⟩
  apply Table.get?_ofList_of_mem
  · simpa [List.map_map, Function.comp_def] using nodup_eraseDups names
  · exact List.mem_map_of_mem (List.mem_eraseDups.mpr member)

namespace LinearForm

/-- The coefficients and the constant of a linear form are finite. -/
structure IsFinite (form : LinearForm α) : Prop where
  coefficients : Scalar.AreFinite form.coefficients.values
  constant : Scalar.isFinite form.constant = true

/-- The weighted sum of fractions. -/
def weigh (terms : List (String × α)) (place : String → Rat) : Rat :=
  (terms.map fun term => Scalar.fraction term.2 * place term.1).sum

/-- The fraction that a linear form is on fractions. -/
def fractionOn (form : LinearForm α) (place : String → Rat) : Rat :=
  Scalar.fraction form.constant + weigh form.coefficients.entries place

@[simp]
theorem weigh_nil
    (place : String → Rat) :
    weigh ([] : List (String × α)) place = 0 :=
  rfl

@[simp]
theorem weigh_cons
    (term : String × α)
    (rest : List (String × α))
    (place : String → Rat) :
    weigh (term :: rest) place = Scalar.fraction term.2 * place term.1 + weigh rest place :=
  List.sum_cons

theorem isFinite_ofConstant
    {constant : α}
    (isFinite : Scalar.isFinite constant = true) :
    (ofConstant constant).IsFinite :=
  ⟨nofun, isFinite⟩

@[simp]
theorem fractionOn_ofConstant
    (constant : α)
    (place : String → Rat) :
    (ofConstant constant).fractionOn place = Scalar.fraction constant :=
  add_zero _

variable [ArithmeticScalar α]

/-- Adding to the coefficient of a name adds to the weighted sum. -/
theorem weigh_enter
    {entries : List (String × α)}
    (areFinite : Scalar.AreFinite (entries.map (·.2)))
    (name : String)
    {coefficient : α}
    (isFinite : Scalar.isFinite coefficient = true) :
    Scalar.AreFinite
        ((Table.enter name ((entries.lookup name).getD 0 + coefficient) entries).map (·.2)) ∧
      ∀ place,
        weigh (Table.enter name ((entries.lookup name).getD 0 + coefficient) entries) place =
          weigh entries place + Scalar.fraction coefficient * place name := by
  induction entries with
  | nil =>
      refine ⟨?_, fun place => ?_⟩
      · simpa [Table.enter, Scalar.AreFinite] using isFinite
      · simp [Table.enter]
  | cons entry rest inductionHypothesis =>
      obtain ⟨entryName, value⟩ := entry
      obtain ⟨isFiniteValue, restFinite⟩ := List.forall_mem_cons.mp areFinite
      unfold Table.enter
      by_cases isEntry : entryName = name
      · obtain ⟨isFiniteSum, isSum⟩ := Scalar.fraction_add isFiniteValue isFinite
        have isFound : ((entryName, value) :: rest).lookup name = some value := by
          simp [isEntry]
        rw [if_pos (by simpa using isEntry), isFound, Option.getD_some]
        refine ⟨?_, fun place => ?_⟩
        · rw [List.map_cons]
          exact List.forall_mem_cons.mpr ⟨isFiniteSum, restFinite⟩
        · rw [weigh_cons, weigh_cons, isSum, isEntry]
          ring
      · have isElsewhere : ((entryName, value) :: rest).lookup name = rest.lookup name := by
          simp [List.lookup_cons, beq_eq_false_iff_ne.mpr (Ne.symm isEntry)]
        obtain ⟨areFiniteLater, sameWeight⟩ := inductionHypothesis restFinite
        rw [if_neg (by simpa using isEntry), isElsewhere]
        refine ⟨?_, fun place => ?_⟩
        · rw [List.map_cons]
          exact List.forall_mem_cons.mpr ⟨isFiniteValue, areFiniteLater⟩
        · rw [weigh_cons, weigh_cons, sameWeight]
          ring

theorem weigh_addTerms
    (coefficients : Table α)
    (areFinite : Scalar.AreFinite coefficients.values)
    {added : List (String × α)}
    (addedFinite : Scalar.AreFinite (added.map (·.2))) :
    Scalar.AreFinite (addTerms coefficients added).values ∧
      ∀ place,
        weigh (addTerms coefficients added).entries place =
          weigh coefficients.entries place + weigh added place := by
  induction added generalizing coefficients with
  | nil =>
      exact ⟨areFinite, fun place => (add_zero _).symm⟩
  | cons term rest inductionHypothesis =>
      obtain ⟨isFinite, restFinite⟩ := List.forall_mem_cons.mp addedFinite
      obtain ⟨areFiniteNext, isNext⟩ := weigh_enter areFinite term.1 isFinite
      obtain ⟨areFiniteAll, areAll⟩ :=
        inductionHypothesis (addTerm coefficients term.1 term.2) areFiniteNext restFinite
      refine ⟨areFiniteAll, fun place => ?_⟩
      have isAll := areAll place
      have isFirst :
          weigh (addTerm coefficients term.1 term.2).entries place =
            weigh coefficients.entries place + Scalar.fraction term.2 * place term.1 :=
        isNext place
      rw [isFirst] at isAll
      rw [weigh_cons]
      exact isAll.trans (by ring)

omit [ArithmeticScalar α] in
/-- A sum of linear forms has coefficients for the names of both. -/
theorem mem_names_add
    {left right : LinearForm α}
    {name : String}
    (member : name ∈ (left.add right).coefficients.names) :
    name ∈ left.coefficients.names ∨ name ∈ right.coefficients.names := by
  have fromStart (added : List (String × α)) :
      ∀ coefficients : Table α, name ∈ (addTerms coefficients added).names →
        name ∈ coefficients.names ∨ name ∈ added.map (·.1) := by
    induction added with
    | nil => exact fun _ => Or.inl
    | cons term rest inductionHypothesis =>
        intro coefficients member
        rw [List.map_cons, List.mem_cons]
        rcases inductionHypothesis _ member with isEarlier | inRest
        · rcases Table.mem_names_insert coefficients _ isEarlier with isNew | isOld
          · exact .inr (.inl isNew)
          · exact .inl isOld
        · exact .inr (.inr inRest)
  exact fromStart _ _ member

/-- A sum of linear forms means the sum of what they mean. -/
theorem fractionOn_add
    {left right : LinearForm α}
    (isFinite : left.IsFinite)
    (isFiniteToo : right.IsFinite) :
    (left.add right).IsFinite ∧
      ∀ place,
        (left.add right).fractionOn place = left.fractionOn place + right.fractionOn place := by
  obtain ⟨areFinite, sameWeight⟩ :=
    weigh_addTerms left.coefficients isFinite.coefficients isFiniteToo.coefficients
  obtain ⟨isFiniteConstant, isConstant⟩ :=
    Scalar.fraction_add isFinite.constant isFiniteToo.constant
  refine ⟨⟨areFinite, isFiniteConstant⟩, fun place => ?_⟩
  calc (left.add right).fractionOn place
      = Scalar.fraction (left.constant + right.constant)
          + (weigh left.coefficients.entries place + weigh right.coefficients.entries place) :=
        congrArg _ (sameWeight place)
    _ = left.fractionOn place + right.fractionOn place := by
        rw [isConstant, fractionOn, fractionOn]
        ring

theorem weigh_scaled
    {entries : List (String × α)}
    (areFinite : Scalar.AreFinite (entries.map (·.2)))
    {factor : α}
    (isFinite : Scalar.isFinite factor = true) :
    Scalar.AreFinite ((entries.map fun entry => (entry.1, entry.2 * factor)).map (·.2)) ∧
      ∀ place,
        weigh (entries.map fun entry => (entry.1, entry.2 * factor)) place =
          weigh entries place * Scalar.fraction factor := by
  induction entries with
  | nil =>
      exact ⟨areFinite, fun place => (zero_mul _).symm⟩
  | cons entry rest inductionHypothesis =>
      obtain ⟨isFiniteEntry, restFinite⟩ := List.forall_mem_cons.mp areFinite
      obtain ⟨areFiniteRest, sameWeight⟩ := inductionHypothesis restFinite
      obtain ⟨isFiniteProduct, isProduct⟩ := Scalar.fraction_mul isFiniteEntry isFinite
      refine ⟨List.forall_mem_cons.mpr ⟨isFiniteProduct, areFiniteRest⟩, fun place => ?_⟩
      rw [List.map_cons, weigh_cons, weigh_cons, sameWeight place, isProduct]
      ring

omit [ArithmeticScalar α] in
@[simp]
theorem names_scale
    (form : LinearForm α)
    (factor : α) :
    (form.scale factor).coefficients.names = form.coefficients.names := by
  simp [scale, Table.map, Table.names, List.map_map, Function.comp_def]

/-- A multiple of a linear form means the multiple of what it means. -/
theorem fractionOn_scale
    {form : LinearForm α}
    (isFinite : form.IsFinite)
    {factor : α}
    (isFiniteToo : Scalar.isFinite factor = true) :
    (form.scale factor).IsFinite ∧
      ∀ place,
        (form.scale factor).fractionOn place = form.fractionOn place * Scalar.fraction factor := by
  obtain ⟨areFinite, sameWeight⟩ := weigh_scaled isFinite.coefficients isFiniteToo
  obtain ⟨isFiniteConstant, isConstant⟩ := Scalar.fraction_mul isFinite.constant isFiniteToo
  refine ⟨⟨areFinite, isFiniteConstant⟩, fun place => ?_⟩
  calc (form.scale factor).fractionOn place
      = Scalar.fraction (form.constant * factor)
          + weigh form.coefficients.entries place * Scalar.fraction factor :=
        congrArg _ (sameWeight place)
    _ = form.fractionOn place * Scalar.fraction factor := by
        rw [isConstant, fractionOn]
        ring

/-- The value of a finite linear form on finite numbers is the fraction that it means. -/
theorem fraction_valueOn
    {form : LinearForm α}
    (isFinite : form.IsFinite)
    {numbers : String → α}
    (areFinite : ∀ name ∈ form.coefficients.names, Scalar.isFinite (numbers name) = true) :
    Scalar.isFinite (form.valueOn numbers) = true ∧
      Scalar.fraction (form.valueOn numbers) =
        form.fractionOn fun name => Scalar.fraction (numbers name) := by
  have fromStart (entries : List (String × α)) :
      ∀ start : α, Scalar.isFinite start = true → Scalar.AreFinite (entries.map (·.2)) →
        (∀ name ∈ entries.map (·.1), Scalar.isFinite (numbers name) = true) →
          Scalar.isFinite
              (entries.foldl (fun total entry => total + entry.2 * numbers entry.1) start) =
            true ∧
          Scalar.fraction
              (entries.foldl (fun total entry => total + entry.2 * numbers entry.1) start) =
            Scalar.fraction start + weigh entries fun name => Scalar.fraction (numbers name) := by
    induction entries with
    | nil => exact fun start isFinite _ _ => ⟨isFinite, (add_zero _).symm⟩
    | cons entry rest inductionHypothesis =>
        intro start isFiniteStart coefficientsFinite numbersFinite
        obtain ⟨isFiniteEntry, restFinite⟩ := List.forall_mem_cons.mp coefficientsFinite
        obtain ⟨isFiniteNumber, numbersFinite⟩ := List.forall_mem_cons.mp numbersFinite
        obtain ⟨isFiniteProduct, isProduct⟩ := Scalar.fraction_mul isFiniteEntry isFiniteNumber
        obtain ⟨isFiniteSum, isSum⟩ := Scalar.fraction_add isFiniteStart isFiniteProduct
        obtain ⟨isFiniteAll, isAll⟩ :=
          inductionHypothesis _ isFiniteSum restFinite numbersFinite
        refine ⟨isFiniteAll, isAll.trans ?_⟩
        rw [isSum, isProduct, weigh_cons]
        ring
  exact fromStart _ _ isFinite.constant isFinite.coefficients areFinite

/-- A linear form means what is computed from an assignment of names. -/
structure Means (form : LinearForm α) (names : List String)
    (outcome : Assignment α → Except (EvalFailure α) α) : Prop where
  isFinite : form.IsFinite
  reads : ∀ name ∈ form.coefficients.names, name ∈ names
  gives :
    ∀ (assignment : Assignment α) (numbers : String → α), assignment.Binds numbers names →
      Gives (outcome assignment) (form.fractionOn fun name => Scalar.fraction (numbers name))

end LinearForm

end Meaning

namespace Expr

variable {α : Type} [Scalar α]

/-- An expression has a finite value wherever the names that it reads are bound to finite numbers. -/
def IsValued (expression : Expr α) : Prop :=
  ∀ (assignment : Assignment α) (numbers : String → α),
    assignment.Binds numbers expression.names →
      ∃ value, expression.evaluate assignment = .ok value ∧ Scalar.isFinite value = true

/-- An expression reads no name and has a finite value. -/
structure IsConstant (expression : Expr α) : Prop where
  readsNothing : expression.names = []
  isValued : ∃ value, expression.evaluate {} = .ok value ∧ Scalar.isFinite value = true

mutual

/-- An expression is linear: a sum of numbers, names and products with constants. -/
def IsLinear : Expr α → Prop
  | .constant value => Scalar.isFinite value = true
  | .variable _ => True
  | .linear coefficients offset =>
    Scalar.AreFinite coefficients.values ∧ Scalar.isFinite offset = true
  | .sum terms => AreLinear terms
  | .product factors => AreFactors factors
  | .power base exponent =>
    ((exponent == 1) = true ∧ base.IsLinear) ∨ ((exponent == 0) = true ∧ base.IsValued)
  | .absolute _ => False
  | .condition _ _ _ => False

/-- All expressions of a list are linear. -/
def AreLinear : List (Expr α) → Prop
  | [] => True
  | expression :: rest => expression.IsLinear ∧ AreLinear rest

/-- All expressions of a list are constant, but for a linear one. -/
def AreFactors : List (Expr α) → Prop
  | [] => True
  | expression :: rest =>
    (expression.IsConstant ∧ AreFactors rest) ∨
      (expression.names ≠ [] ∧ expression.IsLinear ∧ ∀ other ∈ rest, other.IsConstant)

end

/-- A constant expression has the same finite value on every assignment. -/
theorem IsConstant.exists_evaluate_eq_ok
    {expression : Expr α}
    (isConstant : expression.IsConstant) :
    ∃ value,
      Scalar.isFinite value = true ∧
        ∀ assignment : Assignment α, expression.evaluate assignment = .ok value := by
  obtain ⟨value, isValue, isFinite⟩ := isConstant.isValued
  refine ⟨value, isFinite, fun assignment => ?_⟩
  rw [← isValue]
  apply evaluate_congr
  rw [isConstant.readsNothing]
  exact List.forall_mem_nil _

variable [ArithmeticScalar α] {assignment : Assignment α} {numbers : String → α}

theorem gives_evaluateTerms
    {terms : List (String × α)}
    (areFinite : Scalar.AreFinite (terms.map (·.2)))
    (binds : assignment.Binds numbers (terms.map (·.1)))
    {total : α}
    (isFinite : Scalar.isFinite total = true) :
    Gives (evaluateTerms assignment total terms)
      (Scalar.fraction total
        + LinearForm.weigh terms fun name => Scalar.fraction (numbers name)) := by
  induction terms generalizing total with
  | nil =>
      exact ⟨total, rfl, isFinite, (add_zero _).symm⟩
  | cons term rest inductionHypothesis =>
      have isFiniteCoefficient : Scalar.isFinite term.2 = true :=
        areFinite term.2 List.mem_cons_self
      have restFinite := (List.forall_mem_cons.mp areFinite).2
      obtain ⟨⟨isBound, isFiniteNumber⟩, restBinds⟩ := List.forall_mem_cons.mp binds
      obtain ⟨isFiniteProduct, isProduct⟩ :=
        Scalar.fraction_mul isFiniteCoefficient isFiniteNumber
      obtain ⟨isFiniteSum, isSum⟩ := Scalar.fraction_add isFinite isFiniteProduct
      have isRead : assignment.read term.1 = .ok (numbers term.1) := by
        simp [Assignment.read, isBound]
      have restGives := inductionHypothesis restFinite restBinds isFiniteSum
      rw [LinearForm.weigh_cons, ← add_assoc, ← isProduct, ← isSum]
      simpa only [evaluateTerms, isRead, bind, Except.bind] using restGives

/-- Constant factors after a linear one multiply its form. -/
theorem means_productForm?_of_constants
    {factors : List (Expr α)}
    (areConstant : ∀ factor ∈ factors, factor.IsConstant)
    {scale : α}
    (isFinite : Scalar.isFinite scale = true)
    {inner : LinearForm α}
    (innerFinite : inner.IsFinite) :
    ∃ form,
      productForm? scale (some (.ok (some inner))) factors = .ok (some form) ∧
        form.IsFinite ∧ form.coefficients.names = inner.coefficients.names ∧
          ∀ (assignment : Assignment α) (place : String → Rat) (total : α),
            Scalar.isFinite total = true →
              Scalar.fraction total = inner.fractionOn place * Scalar.fraction scale →
                Gives (evaluateProduct assignment total factors) (form.fractionOn place) := by
  induction factors generalizing scale with
  | nil =>
      obtain ⟨isFiniteForm, isForm⟩ := LinearForm.fractionOn_scale innerFinite isFinite
      refine ⟨inner.scale scale, rfl, isFiniteForm, LinearForm.names_scale inner scale, ?_⟩
      · intro assignment place total isFiniteTotal isTotal
        exact ⟨total, rfl, isFiniteTotal, isTotal.trans (isForm place).symm⟩
  | cons factor rest inductionHypothesis =>
      obtain ⟨isConstant, restConstant⟩ := List.forall_mem_cons.mp areConstant
      obtain ⟨value, isFiniteValue, isValue⟩ := isConstant.exists_evaluate_eq_ok
      obtain ⟨isFiniteScale, isScale⟩ := Scalar.fraction_mul isFinite isFiniteValue
      obtain ⟨form, isForm, isFiniteForm, sameNames, gives⟩ :=
        inductionHypothesis restConstant isFiniteScale
      refine ⟨form, ?_, isFiniteForm, sameNames, ?_⟩
      · simpa [productForm?, isConstant.readsNothing, isValue, bind, Except.bind] using isForm
      · intro assignment place total isFiniteTotal isTotal
        obtain ⟨isFiniteNext, isNext⟩ := Scalar.fraction_mul isFiniteTotal isFiniteValue
        have restGives := gives assignment place (total * value) isFiniteNext (by
          rw [isNext, isTotal, isScale]
          ring)
        simpa only [evaluateProduct, isValue, bind, Except.bind] using restGives

theorem not_one_lt_zero :
    ¬ (1 : α) < 0 := by
  rw [OrderedScalar.lt_iff_not_le, not_not,
    Scalar.le_iff_of_toRat? FractionalScalar.toRat?_zero FractionalScalar.toRat?_one]
  exact zero_le_one

theorem zero_beq_one :
    ((0 : α) == 1) = false := by
  rw [Bool.eq_false_iff]
  intro isSame
  have isZero := Scalar.toRat?_eq_of_beq isSame FractionalScalar.toRat?_zero
  exact zero_ne_one (Option.some.inj (isZero.symm.trans FractionalScalar.toRat?_one))

theorem floor_beq_self_of_isWhole
    {value : α}
    (isWhole : Scalar.IsWhole value) :
    (Scalar.floor value == value) = true := by
  obtain ⟨whole, isWhole⟩ := isWhole
  have isFloor := FractionalScalar.toRat?_floor value whole isWhole
  rw [Rat.floor_intCast] at isFloor
  exact Scalar.beq_of_toRat?_eq isFloor isWhole

/-- Raising a finite number to the first power leaves it as it is. -/
theorem exists_raise_one_eq_ok
    {value : α}
    (isFinite : Scalar.isFinite value = true)
    (bare : Bool) :
    ∃ result,
      raise bare value 1 = .ok result ∧ Scalar.isFinite result = true ∧
        Scalar.fraction result = Scalar.fraction value := by
  obtain ⟨isFinitePower, isPower⟩ := Scalar.isFinite_and_fraction_eq
    (ArithmeticScalar.toRat?_power_one value _ (Scalar.toRat?_eq_some_fraction isFinite))
  have isWhole := floor_beq_self_of_isWhole (Scalar.isWhole_one (α := α))
  exact ⟨_, by simp [raise, not_one_lt_zero, isWhole, isFinitePower], isFinitePower, isPower⟩

/-- Raising a finite number to the zeroth power gives one. -/
theorem exists_raise_zero_eq_ok
    {value : α}
    (isFinite : Scalar.isFinite value = true)
    (bare : Bool) :
    ∃ result,
      raise bare value 0 = .ok result ∧ Scalar.isFinite result = true ∧
        Scalar.fraction result = 1 := by
  obtain ⟨isFinitePower, isPower⟩ :=
    Scalar.isFinite_and_fraction_eq (ArithmeticScalar.toRat?_power_zero value isFinite)
  have isWhole := floor_beq_self_of_isWhole (Scalar.isWhole_zero (α := α))
  exact ⟨_, by simp [raise, isWhole, isFinitePower], isFinitePower, isPower⟩

mutual

/-- A linear expression has a linear form, which means its value. -/
theorem exists_linearForm?_means
    (expression : Expr α)
    (isLinear : expression.IsLinear) :
    ∃ form,
      expression.linearForm? = .ok (some form) ∧
        form.Means expression.names fun assignment => expression.evaluate assignment := by
  match expression, isLinear with
  | .constant value, isFinite =>
      refine ⟨_, rfl, LinearForm.isFinite_ofConstant isFinite, nofun, ?_⟩
      exact fun assignment numbers _ =>
        ⟨value, rfl, isFinite, (LinearForm.fractionOn_ofConstant _ _).symm⟩
  | .variable name, _ =>
      refine ⟨_, rfl, ⟨?_, Scalar.isFinite_zero⟩, fun other member => member, ?_⟩
      · exact List.forall_mem_singleton.mpr Scalar.isFinite_one
      · intro assignment numbers binds
        obtain ⟨isBound, isFinite⟩ := binds name (List.mem_singleton_self name)
        refine ⟨numbers name, by simp [evaluate, Assignment.read, isBound], isFinite, ?_⟩
        simp [LinearForm.fractionOn]
  | .linear coefficients offset, ⟨areFinite, isFinite⟩ =>
      refine ⟨_, rfl, ⟨areFinite, isFinite⟩, fun name member => List.mem_eraseDups.mpr member, ?_⟩
      intro assignment numbers binds
      exact gives_evaluateTerms areFinite
        (binds.mono fun name member => List.mem_eraseDups.mpr member) isFinite
  | .sum terms, areLinear =>
      obtain ⟨form, isForm, isFinite, reads, gives⟩ :=
        exists_sumForm?_means terms areLinear (LinearForm.isFinite_ofConstant Scalar.isFinite_zero)
      refine ⟨form, isForm, isFinite, ?_, ?_⟩
      · intro name member
        exact List.mem_eraseDups.mpr ((reads name member).resolve_left nofun)
      · intro assignment numbers binds
        exact gives assignment numbers 0 (binds.mono fun name => List.mem_eraseDups.mpr)
          Scalar.isFinite_zero (LinearForm.fractionOn_ofConstant _ _).symm
  | .product factors, areFactors =>
      obtain ⟨form, isForm, isFinite, reads, gives⟩ :=
        exists_productForm?_means factors areFactors Scalar.isFinite_one
      refine ⟨form, isForm, isFinite, ?_, ?_⟩
      · intro name member
        exact List.mem_eraseDups.mpr (reads name member)
      · intro assignment numbers binds
        exact gives assignment numbers 1 (binds.mono fun name => List.mem_eraseDups.mpr)
          Scalar.isFinite_one rfl
  | .power base exponent, .inl ⟨isOne, isLinear⟩ =>
      obtain rfl := Scalar.eq_of_beq isOne
      obtain ⟨form, isForm, isFinite, reads, gives⟩ := exists_linearForm?_means base isLinear
      refine ⟨form, by simpa [linearForm?, OrderedScalar.beq_self] using isForm, isFinite, reads, ?_⟩
      intro assignment numbers binds
      obtain ⟨value, isValue, isFiniteValue, isFraction⟩ := gives assignment numbers binds
      obtain ⟨result, isResult, isFiniteResult, isPower⟩ :=
        exists_raise_one_eq_ok isFiniteValue base.isEmptySum
      refine ⟨result, ?_, isFiniteResult, isPower.trans isFraction⟩
      simp [evaluate, isValue, isResult, bind, Except.bind, Except.mapError]
  | .power base exponent, .inr ⟨isZero, isValued⟩ =>
      obtain rfl := Scalar.eq_of_beq isZero
      refine ⟨.ofConstant 1, by simp [linearForm?, zero_beq_one, OrderedScalar.beq_self],
        LinearForm.isFinite_ofConstant Scalar.isFinite_one, nofun, ?_⟩
      intro assignment numbers binds
      obtain ⟨value, isValue, isFiniteValue⟩ := isValued assignment numbers binds
      obtain ⟨result, isResult, isFiniteResult, isPower⟩ :=
        exists_raise_zero_eq_ok isFiniteValue base.isEmptySum
      refine ⟨result, ?_, isFiniteResult, by simp [isPower]⟩
      simp [evaluate, isValue, isResult, bind, Except.bind, Except.mapError]
  | .absolute operand, isLinear => exact isLinear.elim
  | .condition operand comparison target, isLinear => exact isLinear.elim

/-- Linear terms after others have a linear form with them, which means the sum. -/
theorem exists_sumForm?_means
    (terms : List (Expr α))
    (areLinear : AreLinear terms)
    {before : LinearForm α}
    (isFiniteBefore : before.IsFinite) :
    ∃ form,
      sumForm? before terms = .ok (some form) ∧ form.IsFinite ∧
        (∀ name ∈ form.coefficients.names,
          name ∈ before.coefficients.names ∨ name ∈ namesOfAll terms) ∧
        ∀ (assignment : Assignment α) (numbers : String → α) (total : α),
          assignment.Binds numbers (namesOfAll terms) → Scalar.isFinite total = true →
            Scalar.fraction total =
                before.fractionOn (fun name => Scalar.fraction (numbers name)) →
              Gives (evaluateSum assignment total terms)
                (form.fractionOn fun name => Scalar.fraction (numbers name)) := by
  match terms, areLinear with
  | [], _ =>
      exact ⟨before, rfl, isFiniteBefore, fun name => .inl, fun assignment numbers total _ isFinite
        isTotal => ⟨total, rfl, isFinite, isTotal⟩⟩
  | expression :: rest, ⟨isLinear, restLinear⟩ =>
      obtain ⟨added, isAdded, isFiniteAdded, readsAdded, givesAdded⟩ :=
        exists_linearForm?_means expression isLinear
      obtain ⟨isFiniteSum, isSum⟩ := LinearForm.fractionOn_add isFiniteBefore isFiniteAdded
      obtain ⟨form, isForm, isFinite, reads, gives⟩ :=
        exists_sumForm?_means rest restLinear isFiniteSum
      refine ⟨form, by simpa [sumForm?, isAdded, bind, Except.bind] using isForm, isFinite, ?_, ?_⟩
      · intro name member
        rcases reads name member with isEarlier | isLater
        · rcases LinearForm.mem_names_add isEarlier with isBefore | isHere
          · exact .inl isBefore
          · exact .inr (List.mem_append_left _ (readsAdded name isHere))
        · exact .inr (List.mem_append_right _ isLater)
      · intro assignment numbers total binds isFiniteTotal isTotal
        obtain ⟨value, isValue, isFiniteValue, isFraction⟩ :=
          givesAdded assignment numbers (binds.mono fun name => List.mem_append_left _)
        obtain ⟨isFiniteNext, isNext⟩ := Scalar.fraction_add isFiniteTotal isFiniteValue
        have restGives := gives assignment numbers (total + value)
          (binds.mono fun name => List.mem_append_right _) isFiniteNext
          (by rw [isNext, isTotal, isFraction, isSum])
        simpa only [evaluateSum, isValue, bind, Except.bind] using restGives

/-- Factors of which all but a linear one are constant have a linear form, which means the
product. -/
theorem exists_productForm?_means
    (factors : List (Expr α))
    (areFactors : AreFactors factors)
    {scale : α}
    (isFiniteScale : Scalar.isFinite scale = true) :
    ∃ form,
      productForm? scale none factors = .ok (some form) ∧ form.IsFinite ∧
        (∀ name ∈ form.coefficients.names, name ∈ namesOfAll factors) ∧
        ∀ (assignment : Assignment α) (numbers : String → α) (total : α),
          assignment.Binds numbers (namesOfAll factors) → Scalar.isFinite total = true →
            Scalar.fraction total = Scalar.fraction scale →
              Gives (evaluateProduct assignment total factors)
                (form.fractionOn fun name => Scalar.fraction (numbers name)) := by
  match factors, areFactors with
  | [], _ =>
      refine ⟨_, rfl, LinearForm.isFinite_ofConstant isFiniteScale, nofun, ?_⟩
      exact fun assignment numbers total _ isFinite isTotal =>
        ⟨total, rfl, isFinite, isTotal.trans (LinearForm.fractionOn_ofConstant _ _).symm⟩
  | expression :: rest, .inl ⟨isConstant, restFactors⟩ =>
      obtain ⟨value, isFiniteValue, isValue⟩ := isConstant.exists_evaluate_eq_ok
      obtain ⟨isFiniteNext, isNext⟩ := Scalar.fraction_mul isFiniteScale isFiniteValue
      obtain ⟨form, isForm, isFinite, reads, gives⟩ :=
        exists_productForm?_means rest restFactors isFiniteNext
      refine ⟨form, ?_, isFinite, fun name member =>
        List.mem_append_right _ (reads name member), ?_⟩
      · simpa [productForm?, isConstant.readsNothing, isValue, bind, Except.bind] using isForm
      · intro assignment numbers total binds isFiniteTotal isTotal
        obtain ⟨isFiniteProduct, isProduct⟩ := Scalar.fraction_mul isFiniteTotal isFiniteValue
        have restGives := gives assignment numbers (total * value)
          (binds.mono fun name => List.mem_append_right _) isFiniteProduct
          (by rw [isProduct, isTotal, isNext])
        simpa only [evaluateProduct, isValue, bind, Except.bind] using restGives
  | expression :: rest, .inr ⟨readsSome, isLinear, restConstant⟩ =>
      obtain ⟨inner, isInner, isFiniteInner, readsInner, givesInner⟩ :=
        exists_linearForm?_means expression isLinear
      obtain ⟨form, isForm, isFinite, sameNames, gives⟩ :=
        means_productForm?_of_constants restConstant isFiniteScale isFiniteInner
      refine ⟨form, ?_, isFinite, ?_, ?_⟩
      · have notEmpty : expression.names.isEmpty = false := by simpa using readsSome
        simpa only [productForm?, notEmpty, isInner, Bool.false_eq_true, ↓reduceIte] using isForm
      · intro name member
        rw [sameNames] at member
        exact List.mem_append_left _ (readsInner name member)
      · intro assignment numbers total binds isFiniteTotal isTotal
        obtain ⟨value, isValue, isFiniteValue, isFraction⟩ :=
          givesInner assignment numbers (binds.mono fun name => List.mem_append_left _)
        obtain ⟨isFiniteNext, isNext⟩ := Scalar.fraction_mul isFiniteTotal isFiniteValue
        have restGives := gives assignment (fun name => Scalar.fraction (numbers name))
          (total * value) isFiniteNext (by rw [isNext, isTotal, isFraction, mul_comm])
        simpa only [evaluateProduct, isValue, bind, Except.bind] using restGives

end

end Expr

/-!
## Multiples of one name

Where each name has one coefficient, a linear form that means a multiple of one name has a
coefficient for this name, and all others are zero.  In the forms that are found each name has one,
if this is so in the forms that an expression is written with.
-/

namespace LinearForm

variable {α : Type} [Scalar α] {entries : List (String × α)} {place : String → Rat}

theorem weigh_eq_zero
    (areZero : ∀ name ∈ entries.map (·.1), place name = 0) :
    weigh entries place = 0 := by
  induction entries with
  | nil => rfl
  | cons entry rest inductionHypothesis =>
      obtain ⟨isZero, restZero⟩ := List.forall_mem_cons.mp areZero
      rw [weigh_cons, isZero, inductionHypothesis restZero, mul_zero, add_zero]

/-- Where one name counts as one and all others as zero, the coefficient of this name is weighed. -/
theorem weigh_unit
    (distinct : (entries.map (·.1)).Nodup)
    {name : String}
    {coefficient : α}
    (member : (name, coefficient) ∈ entries) :
    weigh entries (fun other => if other = name then 1 else 0) = Scalar.fraction coefficient := by
  induction entries with
  | nil => cases member
  | cons entry rest inductionHypothesis =>
      obtain ⟨isNew, restDistinct⟩ := List.nodup_cons.mp distinct
      rw [weigh_cons]
      rcases List.mem_cons.mp member with rfl | inRest
      · have restZero :
            weigh rest (fun other => if other = name then 1 else 0) = 0 :=
          weigh_eq_zero fun other isOther => if_neg (ne_of_mem_of_not_mem isOther isNew)
        simp [restZero]
      · have isThere : name ∈ rest.map (·.1) := List.mem_map_of_mem inRest
        simp [(ne_of_mem_of_not_mem isThere isNew).symm, inductionHypothesis restDistinct inRest]

/-- A linear form that means a multiple of one name, and not zero times it, has a coefficient for
this name only that counts. -/
theorem exists_filter_eq_singleton
    [ArithmeticScalar α]
    {form : LinearForm α}
    (isFinite : form.IsFinite)
    (distinct : form.coefficients.names.Nodup)
    {name : String}
    {factor addend : Rat}
    (notZero : factor ≠ 0)
    (isMultiple :
      ∀ numbers : String → α, (∀ other, Scalar.isFinite (numbers other) = true) →
        (form.fractionOn fun other => Scalar.fraction (numbers other)) =
          factor * Scalar.fraction (numbers name) + addend) :
    ∃ coefficient,
      (form.coefficients.entries.filter fun entry => !(entry.2 == 0)) = [(name, coefficient)] := by
  have isConstant : Scalar.fraction form.constant = addend := by
    have atZero := isMultiple (fun _ => 0) fun _ => Scalar.isFinite_zero
    simpa [fractionOn, weigh_eq_zero] using atZero
  have atUnit (chosen : String) :
      weigh form.coefficients.entries (fun other => if other = chosen then 1 else 0) =
        if name = chosen then factor else 0 := by
    have atUnit := isMultiple (fun other => if other = chosen then 1 else 0) fun other => by
      split
      · exact Scalar.isFinite_one
      · exact Scalar.isFinite_zero
    simpa [fractionOn, apply_ite Scalar.fraction, isConstant, add_comm addend] using atUnit
  have isRead : name ∈ form.coefficients.names := by
    by_contra notRead
    have isNothing :
        weigh form.coefficients.entries (fun other => if other = name then 1 else 0) = 0 :=
      weigh_eq_zero fun other isOther => if_neg (ne_of_mem_of_not_mem isOther notRead)
    rw [atUnit, if_pos rfl] at isNothing
    exact notZero isNothing
  obtain ⟨⟨found, coefficient⟩, member, isName⟩ := List.mem_map.mp isRead
  obtain rfl : found = name := isName
  have counts : ∀ entry ∈ form.coefficients.entries, (!(entry.2 == 0)) = (entry.1 == found) := by
    intro entry member
    have isFraction := weigh_unit distinct member
    have isFiniteEntry : Scalar.isFinite entry.2 = true :=
      isFinite.coefficients _ (List.mem_map_of_mem member)
    rw [atUnit] at isFraction
    have isZero_iff := Scalar.beq_zero_iff_fraction_eq_zero isFiniteEntry
    rw [← isFraction] at isZero_iff
    by_cases isFound : found = entry.1
    · have notCounted : (entry.2 == 0) = false := by
        simpa [isFound, notZero] using isZero_iff
      simp [isFound, notCounted]
    · have isZero : (entry.2 == 0) = true := by
        simpa [isFound] using isZero_iff
      simp [isZero, Ne.symm isFound]
  exact ⟨coefficient, by rw [List.filter_congr counts, filter_name_eq_of_mem distinct member]⟩

end LinearForm

namespace LinearForm

variable {α : Type} [Scalar α]

/-- Adding a form keeps one coefficient for each name. -/
theorem nodup_names_add
    {left : LinearForm α}
    (distinct : left.coefficients.names.Nodup)
    (right : LinearForm α) :
    (left.add right).coefficients.names.Nodup := by
  have fromStart (added : List (String × α)) :
      ∀ coefficients : Table α, coefficients.names.Nodup →
        (addTerms coefficients added).names.Nodup := by
    induction added with
    | nil => exact fun _ => id
    | cons term rest inductionHypothesis =>
        exact fun _ distinct => inductionHypothesis _ (Table.nodup_names_insert distinct _ _)
  exact fromStart _ _ distinct

end LinearForm

namespace Expr

variable {α : Type} [Scalar α]

mutual

/-- In each linear form that an expression is written with each name has one coefficient. -/
def HasDistinctTerms : Expr α → Prop
  | .linear coefficients _ => coefficients.names.Nodup
  | .sum terms => HaveDistinctTerms terms
  | .product factors => HaveDistinctTerms factors
  | .power base _ => base.HasDistinctTerms
  | .constant _ | .variable _ | .absolute _ | .condition _ _ _ => True

/-- All expressions of a list are written with linear forms in which each name has one
coefficient. -/
def HaveDistinctTerms : List (Expr α) → Prop
  | [] => True
  | expression :: rest => expression.HasDistinctTerms ∧ HaveDistinctTerms rest

end

mutual

/-- In a form that is found for an expression each name has one coefficient. -/
theorem nodup_linearForm?
    (expression : Expr α)
    (areDistinct : expression.HasDistinctTerms)
    {form : LinearForm α}
    (isForm : expression.linearForm? = .ok (some form)) :
    form.coefficients.names.Nodup := by
  match expression, areDistinct with
  | .constant value, _ =>
      cases isForm
      exact List.nodup_nil
  | .variable name, _ =>
      cases isForm
      exact List.nodup_singleton name
  | .linear coefficients offset, areDistinct =>
      cases isForm
      exact areDistinct
  | .sum terms, areDistinct =>
      have isDistinct : (LinearForm.ofConstant (0 : α)).coefficients.names.Nodup := List.nodup_nil
      exact nodup_sumForm? terms areDistinct isDistinct isForm
  | .product factors, areDistinct =>
      exact nodup_productForm? factors areDistinct none nofun isForm
  | .power base exponent, areDistinct =>
      unfold linearForm? at isForm
      split at isForm
      · exact nodup_linearForm? base areDistinct isForm
      · split at isForm
        · cases isForm
          exact List.nodup_nil
        · cases isForm
  | .absolute _, _ => cases isForm
  | .condition _ _ _, _ => cases isForm

theorem nodup_sumForm?
    (terms : List (Expr α))
    (areDistinct : HaveDistinctTerms terms)
    {before : LinearForm α}
    (isDistinct : before.coefficients.names.Nodup)
    {form : LinearForm α}
    (isForm : sumForm? before terms = .ok (some form)) :
    form.coefficients.names.Nodup := by
  match terms, areDistinct with
  | [], _ =>
      cases isForm
      exact isDistinct
  | expression :: rest, ⟨_, restDistinct⟩ =>
      obtain ⟨added?, -, isForm⟩ := bind_eq_ok isForm
      cases added? with
      | none => cases isForm
      | some added =>
          have isDistinctSum := LinearForm.nodup_names_add isDistinct added
          exact nodup_sumForm? rest restDistinct isDistinctSum isForm

theorem nodup_productForm?
    (factors : List (Expr α))
    (areDistinct : HaveDistinctTerms factors)
    {scale : α}
    (varying : Option (Except (EvalFailure α) (Option (LinearForm α))))
    (isVarying :
      ∀ form, varying = some (.ok (some form)) → form.coefficients.names.Nodup)
    {form : LinearForm α}
    (isForm : productForm? scale varying factors = .ok (some form)) :
    form.coefficients.names.Nodup := by
  match factors, areDistinct with
  | [], _ =>
      rcases varying with _ | _ | (_ | inner)
      · cases isForm
        exact List.nodup_nil
      · cases isForm
      · cases isForm
      · cases isForm
        rw [LinearForm.names_scale]
        exact isVarying inner rfl
  | expression :: rest, ⟨isDistinct, restDistinct⟩ =>
      by_cases readsNothing : expression.names.isEmpty = true
      · have isRest :
            (do productForm? (scale * (← expression.evaluate {})) varying rest) =
              .ok (some form) := by
          rw [← isForm]
          cases varying <;> simp [productForm?, readsNothing]
        obtain ⟨value, -, isForm⟩ := bind_eq_ok isRest
        exact nodup_productForm? rest restDistinct varying isVarying isForm
      · cases varying with
        | some outcome => simp [productForm?, readsNothing] at isForm
        | none =>
            simp only [productForm?, readsNothing] at isForm
            refine nodup_productForm? rest restDistinct _ (fun found isFound => ?_) isForm
            exact nodup_linearForm? expression isDistinct (Option.some.inj isFound)

end

/-- A linear expression has the value of a multiple of one of several names, with something added,
and not of zero times this name. -/
structure IsAffine (expression : Expr α) (names : List String) : Prop where
  isLinear : expression.IsLinear
  areDistinct : expression.HasDistinctTerms
  areNames : ∀ name ∈ expression.names, name ∈ names
  isMultiple :
    ∃ name ∈ expression.names, ∃ factor addend : Rat, factor ≠ 0 ∧
      ∀ (assignment : Assignment α) (numbers : String → α),
        assignment.Binds numbers expression.names →
          Gives (expression.evaluate assignment)
            (factor * Scalar.fraction (numbers name) + addend)

/-- The form that is found for a multiple of one name has a coefficient for this name, and all
others are zero. -/
theorem IsAffine.exists_form
    [ArithmeticScalar α]
    {expression : Expr α}
    {names : List String}
    (isAffine : expression.IsAffine names) :
    ∃ form name coefficient,
      expression.linearForm? = .ok (some form) ∧
        (form.Means expression.names fun assignment => expression.evaluate assignment) ∧
        name ∈ expression.names ∧
        (form.coefficients.entries.filter fun entry => !(entry.2 == 0)) =
          [(name, coefficient)] := by
  obtain ⟨form, isForm, means⟩ := exists_linearForm?_means expression isAffine.isLinear
  obtain ⟨name, isName, factor, addend, notZero, isMultiple⟩ := isAffine.isMultiple
  obtain ⟨coefficient, isSingle⟩ :=
    LinearForm.exists_filter_eq_singleton means.isFinite
      (nodup_linearForm? expression isAffine.areDistinct isForm) notZero fun numbers areFinite => by
        obtain ⟨assignment, binds⟩ :=
          Assignment.exists_binds fun name (_ : name ∈ expression.names) => areFinite name
        obtain ⟨value, isValue, -, isFraction⟩ := means.gives assignment numbers binds
        obtain ⟨same, isSame, -, isMultiple⟩ := isMultiple assignment numbers binds
        obtain rfl := Except.ok.inj (isValue.symm.trans isSame)
        exact isFraction.symm.trans isMultiple
  exact ⟨form, name, coefficient, isForm, means, isName, isSingle⟩

/-- A number can be written before a name, and another one added. -/
theorem isAffine_product_add
    [ArithmeticScalar α]
    {factor addend : α}
    {name : String}
    {names : List String}
    (isFiniteFactor : Scalar.isFinite factor = true)
    (notZero : Scalar.fraction factor ≠ 0)
    (isFiniteAddend : Scalar.isFinite addend = true)
    (isName : name ∈ names) :
    IsAffine (.sum [.product [.constant factor, .variable name], .constant addend]) names := by
  have isConstant : (constant factor).IsConstant := ⟨rfl, factor, rfl, isFiniteFactor⟩
  have isLinear :
      IsLinear (.sum [.product [.constant factor, .variable name], .constant addend]) :=
    ⟨.inl ⟨isConstant, .inr ⟨List.cons_ne_nil _ _, trivial, nofun⟩⟩, isFiniteAddend, trivial⟩
  have isRead (other : String) :
      other ∈ Expr.names (.sum [.product [.constant factor, .variable name], .constant addend]) ↔
        other = name := by
    simp [Expr.names, namesOfAll]
  refine ⟨isLinear, ⟨⟨trivial, trivial, trivial⟩, trivial, trivial⟩, fun other isOther => ?_, name,
    (isRead name).mpr rfl, Scalar.fraction factor, Scalar.fraction addend, notZero, ?_⟩
  · exact (isRead other).mp isOther ▸ isName
  · intro assignment numbers binds
    obtain ⟨isBound, isFiniteNumber⟩ := binds name ((isRead name).mpr rfl)
    obtain ⟨isFiniteOnce, isOnce⟩ :=
      Scalar.fraction_mul (Scalar.isFinite_one (α := α)) isFiniteFactor
    obtain ⟨isFiniteProduct, isProduct⟩ := Scalar.fraction_mul isFiniteOnce isFiniteNumber
    obtain ⟨isFiniteSum, isSum⟩ := Scalar.fraction_add isFiniteProduct isFiniteAddend
    refine ⟨1 * factor * numbers name + addend, ?_, isFiniteSum, ?_⟩
    · simp [evaluate, evaluateSum, evaluateProduct, Assignment.read, isBound, bind, Except.bind]
    · rw [isSum, isProduct, isOnce, Scalar.fraction_one, one_mul]

end Expr

end Optima
