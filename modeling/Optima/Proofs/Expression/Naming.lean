import Optima.Proofs.Expression.Analysis
import Optima.Proofs.Expression.Linearity

namespace Optima

/-!
# Names that are found

A computation that reads a name without a value fails in a way of its own.  An expression reads
the names that it consists of and no others, so it never fails this way on an assignment that
binds them to numbers.  The analysis of its form reads nothing at all.
-/

/-- Failures some of which say that a name without a value is read. -/
class NamingFailure (ε : Type) where
  /-- A name is read that has no value. -/
  MissesName : ε → Prop

namespace NamingFailure

variable {α : Type}

instance : NamingFailure Breakdown where
  MissesName
    | .missingName _ => True
    | _ => False

instance : NamingFailure (EvalError α) where
  MissesName
    | .unbound _ | .closureUnbound _ => True
    | _ => False

instance : NamingFailure (EvalFailure α) where
  MissesName
    | .rejected error => MissesName error
    | .broken breakdown => MissesName breakdown

instance : NamingFailure (SolveFailure α) where
  MissesName
    | .invalid _ => False
    | .rejected error => MissesName error
    | .broken breakdown => MissesName breakdown

theorem missesName_of_toSolveFailure
    {failure : EvalFailure α}
    (misses : MissesName failure.toSolveFailure) :
    MissesName failure := by
  cases failure <;> exact misses

end NamingFailure

/-- A computation does not fail because a name that it reads has no value. -/
def FindsNames {ε β : Type} [NamingFailure ε] (computation : Except ε β) : Prop :=
  ∀ failure, computation = .error failure → ¬ NamingFailure.MissesName failure

section FindsNames

variable {α ε δ β γ : Type} [NamingFailure ε] [NamingFailure δ]

theorem findsNames_ok
    (value : β) :
    FindsNames (.ok value : Except ε β) :=
  nofun

theorem findsNames_error
    {failure : ε}
    (finds : ¬ NamingFailure.MissesName failure) :
    FindsNames (.error failure : Except ε β) :=
  failsOnly_error finds

theorem FindsNames.bind
    {first : Except ε β}
    {next : β → Except ε γ}
    (firstFinds : FindsNames first)
    (nextFinds : ∀ value, first = .ok value → FindsNames (next value)) :
    FindsNames (first >>= next) :=
  FailsOnly.bind firstFinds nextFinds

theorem FindsNames.map
    {computation : Except ε β}
    (finds : FindsNames computation)
    (change : β → γ) :
    FindsNames (computation.map change) :=
  FailsOnly.map finds change

/-- A failure that is told in other words misses a name only if it did before. -/
theorem FindsNames.mapError
    {computation : Except ε β}
    (finds : FindsNames computation)
    {told : ε → δ}
    (tells : ∀ failure, NamingFailure.MissesName (told failure) →
      NamingFailure.MissesName failure) :
    FindsNames (computation.mapError told) :=
  FailsOnly.mapError fun failure isFailure => mt (tells failure) (finds failure isFailure)

/-- A breakdown of an evaluation misses a name where the breakdown itself does. -/
theorem FindsNames.broken
    {computation : Except Breakdown β}
    (finds : FindsNames computation) :
    FindsNames (computation.mapError EvalFailure.broken : Except (EvalFailure α) β) :=
  finds.mapError fun _ => id

/-- A breakdown of a solve misses a name where the breakdown itself does. -/
theorem FindsNames.breakDown
    {computation : Except Breakdown β}
    (finds : FindsNames computation) :
    FindsNames (computation.mapError SolveFailure.broken : Except (SolveFailure α) β) :=
  finds.mapError fun _ => id

theorem FindsNames.settled
    {computation : Except (EvalFailure α) β}
    (finds : FindsNames computation) :
    FindsNames (settled computation) :=
  FailsOnly.settled fun failure isFailure =>
    mt NamingFailure.missesName_of_toSolveFailure (finds failure isFailure)

theorem findsNames_mapM
    {items : List γ}
    {compute : γ → Except ε β}
    (finds : ∀ item ∈ items, FindsNames (compute item)) :
    FindsNames (items.mapM compute) :=
  failsOnly_mapM finds

end FindsNames

variable {α : Type}

/-- An assignment binds names to numbers. -/
def Assignment.Covers (assignment : Assignment α) (names : List String) : Prop :=
  ∀ name ∈ names, ∃ number, assignment.get? name = some (.number number)

namespace Assignment

variable {assignment : Assignment α} {names others : List String}

theorem Covers.mono
    (covers : assignment.Covers names)
    (areNames : ∀ name ∈ others, name ∈ names) :
    assignment.Covers others :=
  fun name member => covers name (areNames name member)

/-- Another number for a name leaves all names bound to numbers. -/
theorem Covers.insert
    (covers : assignment.Covers names)
    (key : String)
    (number : α) :
    Assignment.Covers (Table.insert assignment key (.number number)) names := by
  intro name member
  rw [Table.get?_insert]
  split
  · exact ⟨number, rfl⟩
  · exact covers name member

theorem Covers.findsNames_read
    (covers : assignment.Covers names)
    {name : String}
    (member : name ∈ names) :
    FindsNames (assignment.read name) := by
  obtain ⟨number, isBound⟩ := covers name member
  rw [read, isBound]
  exact findsNames_ok number

/-- An assignment that numbers are entered into binds their names. -/
theorem covers_ofList
    {numbers : List (String × α)}
    (areNumbers : ∀ name ∈ names, name ∈ numbers.map (·.1)) :
    Assignment.Covers
      (Table.ofList (numbers.map fun entry => (entry.1, Value.number entry.2))) names := by
  intro name member
  have areEntered :
      name ∈ (numbers.map fun entry => (entry.1, Value.number entry.2)).map (·.1) := by
    simpa using areNumbers name member
  have isThere := Table.contains_ofList_of_mem areEntered
  rw [Table.contains_iff_mem_names, Table.mem_names_iff, Option.ne_none_iff_exists'] at isThere
  obtain ⟨value, isBound⟩ := isThere
  obtain ⟨entry, -, isEntry⟩ := List.mem_map.mp (Table.mem_of_get?_ofList_eq_some isBound)
  cases isEntry
  exact ⟨entry.2, isBound⟩

theorem covers_ofNumbers
    {numbers : List (String × α)}
    (areNumbers : ∀ name ∈ names, name ∈ numbers.map (·.1)) :
    (ofNumbers numbers).Covers names := by
  intro name member
  have areEntered : name ∈ (ofNumbers numbers).names := by
    simpa [ofNumbers, Table.names] using areNumbers name member
  rw [Table.mem_names_iff, Option.ne_none_iff_exists'] at areEntered
  obtain ⟨value, isBound⟩ := areEntered
  obtain ⟨before, after, shape, -⟩ := List.lookup_eq_some_iff.mp isBound
  have isEntry : (name, value) ∈ (ofNumbers numbers).entries := by
    rw [shape]
    exact List.mem_append_right before List.mem_cons_self
  obtain ⟨entry, -, isEntry⟩ := List.mem_map.mp isEntry
  cases isEntry
  exact ⟨entry.2, isBound⟩

end Assignment

namespace Expr

variable [Scalar α] {assignment : Assignment α}

theorem findsNames_raise
    (bare : Bool)
    (base exponent : α) :
    FindsNames
      ((raise bare base exponent).mapError EvalFailure.rejected : Except (EvalFailure α) α) := by
  have finds : FindsNames (raise bare base exponent) := by
    unfold raise
    dsimp only
    repeat' split
    all_goals first | exact findsNames_ok _ | exact findsNames_error id
  exact finds.mapError fun _ => id

theorem findsNames_evaluateTerms
    {terms : List (String × α)}
    (covers : assignment.Covers (terms.map (·.1)))
    (total : α) :
    FindsNames (evaluateTerms assignment total terms) := by
  induction terms generalizing total with
  | nil =>
      exact findsNames_ok total
  | cons term rest inductionHypothesis =>
      refine (covers.findsNames_read (by simp)).bind fun value _ => ?_
      exact inductionHypothesis (covers.mono fun _ => List.mem_cons_of_mem _) _

mutual

/-- An expression finds all of its names where they are bound to numbers. -/
theorem findsNames_evaluate
    (expression : Expr α)
    (covers : assignment.Covers expression.names) :
    FindsNames (expression.evaluate assignment) := by
  match expression, covers with
  | .constant value, _ => exact findsNames_ok value
  | .variable name, covers => exact covers.findsNames_read (by simp [names])
  | .linear coefficients offset, covers =>
      refine findsNames_evaluateTerms (covers.mono fun name member => ?_) offset
      simpa [names, Table.names] using member
  | .sum terms, covers =>
      exact findsNames_evaluateSum terms (covers.mono fun _ => by simp [names]) 0
  | .product factors, covers =>
      exact findsNames_evaluateProduct factors (covers.mono fun _ => by simp [names]) 1
  | .power base exponent, covers =>
      exact (findsNames_evaluate base covers).bind fun _ _ => findsNames_raise _ _ _
  | .absolute operand, covers =>
      exact (findsNames_evaluate operand covers).bind fun _ _ => findsNames_ok _
  | .condition operand comparison target, covers =>
      exact (findsNames_evaluate operand covers).bind fun _ _ => findsNames_ok _

theorem findsNames_evaluateSum
    (terms : List (Expr α))
    (covers : assignment.Covers (namesOfAll terms))
    (total : α) :
    FindsNames (evaluateSum assignment total terms) := by
  match terms, covers with
  | [], _ => exact findsNames_ok total
  | expression :: rest, covers =>
      have first := findsNames_evaluate expression
        (covers.mono fun _ => List.mem_append_left _)
      exact first.bind fun _ _ =>
        findsNames_evaluateSum rest (covers.mono fun _ => List.mem_append_right _) _

theorem findsNames_evaluateProduct
    (factors : List (Expr α))
    (covers : assignment.Covers (namesOfAll factors))
    (result : α) :
    FindsNames (evaluateProduct assignment result factors) := by
  match factors, covers with
  | [], _ => exact findsNames_ok result
  | expression :: rest, covers =>
      have first := findsNames_evaluate expression
        (covers.mono fun _ => List.mem_append_left _)
      exact first.bind fun _ _ =>
        findsNames_evaluateProduct rest (covers.mono fun _ => List.mem_append_right _) _

end

theorem covers_of_evaluateTerms_eq_ok
    {terms : List (String × α)}
    {total value : α}
    (isValue : evaluateTerms assignment total terms = .ok value) :
    assignment.Covers (terms.map (·.1)) := by
  induction terms generalizing total with
  | nil =>
      exact nofun
  | cons term rest inductionHypothesis =>
      obtain ⟨number, isRead, isValue⟩ := bind_eq_ok isValue
      rw [List.map_cons]
      exact List.forall_mem_cons.mpr
        ⟨⟨number, Assignment.get?_of_read_eq_ok isRead⟩, inductionHypothesis isValue⟩

mutual

/-- Where an expression has a value, all of its names are bound to numbers. -/
theorem covers_of_evaluate_eq_ok
    (expression : Expr α)
    {value : α}
    (isValue : expression.evaluate assignment = .ok value) :
    assignment.Covers expression.names := by
  match expression with
  | .constant _ => exact nofun
  | .variable name =>
      exact List.forall_mem_singleton.mpr ⟨value, Assignment.get?_of_read_eq_ok isValue⟩
  | .linear coefficients offset =>
      exact (covers_of_evaluateTerms_eq_ok isValue).mono fun _ => by simp [names, Table.names]
  | .sum terms =>
      exact (covers_of_evaluateSum_eq_ok terms isValue).mono fun _ => List.mem_eraseDups.mp
  | .product factors =>
      exact (covers_of_evaluateProduct_eq_ok factors isValue).mono fun _ => List.mem_eraseDups.mp
  | .power base exponent =>
      obtain ⟨number, isNumber, -⟩ := bind_eq_ok isValue
      exact covers_of_evaluate_eq_ok base isNumber
  | .absolute operand =>
      obtain ⟨number, isNumber, -⟩ := bind_eq_ok isValue
      exact covers_of_evaluate_eq_ok operand isNumber
  | .condition operand comparison target =>
      obtain ⟨number, isNumber, -⟩ := bind_eq_ok isValue
      exact covers_of_evaluate_eq_ok operand isNumber

theorem covers_of_evaluateSum_eq_ok
    (terms : List (Expr α))
    {total value : α}
    (isValue : evaluateSum assignment total terms = .ok value) :
    assignment.Covers (namesOfAll terms) := by
  match terms with
  | [] => exact nofun
  | expression :: rest =>
      obtain ⟨number, isNumber, isValue⟩ := bind_eq_ok isValue
      exact List.forall_mem_append.mpr
        ⟨covers_of_evaluate_eq_ok expression isNumber, covers_of_evaluateSum_eq_ok rest isValue⟩

theorem covers_of_evaluateProduct_eq_ok
    (factors : List (Expr α))
    {result value : α}
    (isValue : evaluateProduct assignment result factors = .ok value) :
    assignment.Covers (namesOfAll factors) := by
  match factors with
  | [] => exact nofun
  | expression :: rest =>
      obtain ⟨number, isNumber, isValue⟩ := bind_eq_ok isValue
      exact List.forall_mem_append.mpr
        ⟨covers_of_evaluate_eq_ok expression isNumber,
          covers_of_evaluateProduct_eq_ok rest isValue⟩

end

/-- What is analysed of an expression needs no value of any name. -/
theorem findsNames_linearForm?
    (expression : Expr α) :
    FindsNames expression.linearForm? := by
  intro failure failed
  obtain ⟨factor, asks, fails⟩ := linearForm?_eq_error_iff.mp failed
  refine factor.findsNames_evaluate ?_ failure fails
  rw [asks.names_eq_nil]
  exact nofun

mutual

/-- A linear form has coefficients for names of its expression only. -/
theorem mem_names_of_linearForm?_eq_ok
    (expression : Expr α)
    {form : LinearForm α}
    (isForm : expression.linearForm? = .ok (some form)) :
    ∀ name ∈ form.coefficients.names, name ∈ expression.names := by
  match expression, isForm with
  | .constant _, isForm =>
      cases isForm
      exact nofun
  | .variable name, isForm =>
      cases isForm
      simp [Table.names, names]
  | .linear coefficients offset, isForm =>
      cases isForm
      simp [names]
  | .sum terms, isForm =>
      intro name member
      have isTerm := mem_names_of_sumForm?_eq_ok terms isForm name member
      simpa [names, LinearForm.ofConstant, Table.names, EmptyCollection.emptyCollection,
        Table.empty] using isTerm
  | .product factors, isForm =>
      intro name member
      simpa [names] using mem_names_of_productForm?_eq_ok factors none isForm name member
  | .power base exponent, isForm =>
      unfold linearForm? at isForm
      split at isForm
      · exact mem_names_of_linearForm?_eq_ok base isForm
      · split at isForm
        · cases isForm
          exact nofun
        · cases isForm

theorem mem_names_of_sumForm?_eq_ok
    (terms : List (Expr α))
    {before form : LinearForm α}
    (isForm : sumForm? before terms = .ok (some form)) :
    ∀ name ∈ form.coefficients.names,
      name ∈ before.coefficients.names ∨ name ∈ namesOfAll terms := by
  match terms, isForm with
  | [], isForm =>
      cases isForm
      exact fun _ => .inl
  | expression :: rest, isForm =>
      obtain ⟨added?, isAdded, isForm⟩ := bind_eq_ok isForm
      cases added? with
      | none => cases isForm
      | some added =>
          intro name member
          rcases mem_names_of_sumForm?_eq_ok rest isForm name member with inSum | inRest
          · rcases LinearForm.mem_names_add inSum with isEarlier | isAddedToo
            · exact .inl isEarlier
            · exact .inr (List.mem_append_left _
                (mem_names_of_linearForm?_eq_ok expression isAdded name isAddedToo))
          · exact .inr (List.mem_append_right _ inRest)

theorem mem_names_of_productForm?_eq_ok
    (factors : List (Expr α))
    {scale : α}
    (varying : Option (Except (EvalFailure α) (Option (LinearForm α))))
    {form : LinearForm α}
    (isForm : productForm? scale varying factors = .ok (some form)) :
    ∀ name ∈ form.coefficients.names,
      (∃ inner, varying = some (.ok (some inner)) ∧ name ∈ inner.coefficients.names) ∨
        name ∈ namesOfAll factors := by
  match factors, varying, isForm with
  | [], none, isForm =>
      cases isForm
      exact nofun
  | [], some (.error failure), isForm => cases isForm
  | [], some (.ok none), isForm => cases isForm
  | [], some (.ok (some inner)), isForm =>
      cases isForm
      rw [LinearForm.names_scale]
      exact fun name member => .inl ⟨inner, rfl, member⟩
  | expression :: rest, some outcome, isForm =>
      rw [productForm?] at isForm
      split at isForm
      · obtain ⟨value, -, isForm⟩ := bind_eq_ok isForm
        exact fun name member =>
          (mem_names_of_productForm?_eq_ok rest _ isForm name member).imp_right
            (List.mem_append_right _)
      · cases isForm
  | expression :: rest, none, isForm =>
      intro name member
      rw [productForm?] at isForm
      split at isForm
      · obtain ⟨value, -, isForm⟩ := bind_eq_ok isForm
        exact (mem_names_of_productForm?_eq_ok rest none isForm name member).imp_right
          (List.mem_append_right _)
      · rcases mem_names_of_productForm?_eq_ok rest _ isForm name member with
          ⟨inner, isInner, inInner⟩ | inRest
        · exact .inr (List.mem_append_left _
            (mem_names_of_linearForm?_eq_ok expression (Option.some.inj isInner) name inInner))
        · exact .inr (List.mem_append_right _ inRest)

end

end Expr

namespace Rule

/-- A rule is an expression that reads none but some names. -/
def ReadsOnly (rule : Rule α) (names : List String) : Prop :=
  ∃ expression, rule.expression? = some expression ∧ ∀ name ∈ expression.names, name ∈ names

variable {rule : Rule α} {names : List String}

theorem ReadsOnly.exists_expression
    (readsOnly : rule.ReadsOnly names) :
    ∃ value, rule = .expression value ∧ ∀ name ∈ value.names, name ∈ names := by
  obtain ⟨value, isValue, areNames⟩ := readsOnly
  cases rule with
  | closure apply => cases isValue
  | expression other =>
      cases isValue
      exact ⟨value, rfl, areNames⟩

variable [Scalar α]

theorem findsNames_evaluate
    {assignment : Assignment α}
    (readsOnly : rule.ReadsOnly names)
    (covers : assignment.Covers names) :
    FindsNames (rule.evaluate assignment) := by
  obtain ⟨value, rfl, areNames⟩ := readsOnly.exists_expression
  exact value.findsNames_evaluate (covers.mono areNames)

theorem findsNames_linearForm?
    (rule : Rule α) :
    FindsNames rule.linearForm? := by
  cases rule with
  | expression value => exact value.findsNames_linearForm?
  | closure apply => exact findsNames_ok none

/-- The linear form of a rule has coefficients for names that the rule reads only. -/
theorem mem_names_of_linearForm?_eq_ok
    (readsOnly : rule.ReadsOnly names)
    {form : LinearForm α}
    (isForm : rule.linearForm? = .ok (some form)) :
    ∀ name ∈ form.coefficients.names, name ∈ names := by
  obtain ⟨value, rfl, areNames⟩ := readsOnly.exists_expression
  exact fun name member => areNames name (value.mem_names_of_linearForm?_eq_ok isForm name member)

end Rule

end Optima
