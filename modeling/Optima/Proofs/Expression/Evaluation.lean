import Optima.Problem.Goal
import Optima.Proofs.Table

namespace Optima

/-!
# What rules depend on

An expression has the same value on two assignments that agree on the names that it
reads.  Of a closure this has to be asked, as well as that it does not break down where
every name is bound to a number; of such rules a search needs to know no more.
-/

section FailsOnly

variable {ε δ β γ : Type} {allowed : ε → Prop}

/-- A computation fails in certain ways only. -/
def FailsOnly (allowed : ε → Prop) (computation : Except ε β) : Prop :=
  ∀ failure, computation = .error failure → allowed failure

theorem failsOnly_ok
    (value : β) :
    FailsOnly allowed (.ok value : Except ε β) :=
  nofun

theorem failsOnly_error
    {failure : ε}
    (isAllowed : allowed failure) :
    FailsOnly allowed (.error failure : Except ε β) := by
  rintro other isFailure
  cases isFailure
  exact isAllowed

theorem FailsOnly.bind
    {first : Except ε β}
    {next : β → Except ε γ}
    (firstFails : FailsOnly allowed first)
    (nextFails : ∀ value, first = .ok value → FailsOnly allowed (next value)) :
    FailsOnly allowed (first >>= next) := by
  cases first with
  | ok value => exact nextFails value rfl
  | error failure => exact failsOnly_error (firstFails failure rfl)

theorem FailsOnly.map
    {computation : Except ε β}
    (fails : FailsOnly allowed computation)
    (change : β → γ) :
    FailsOnly allowed (computation.map change) := by
  cases computation with
  | ok value => exact failsOnly_ok (change value)
  | error failure => exact failsOnly_error (fails failure rfl)

/-- A failure that is told in other words is allowed if it was one that may be told so. -/
theorem FailsOnly.mapError
    {computation : Except ε β}
    {told : ε → δ}
    {allowedThen : δ → Prop}
    (fails : FailsOnly (fun failure => allowedThen (told failure)) computation) :
    FailsOnly allowedThen (computation.mapError told) := by
  cases computation with
  | ok value => exact failsOnly_ok value
  | error failure => exact failsOnly_error (fails failure rfl)

theorem FailsOnly.settled
    {α : Type}
    {computation : Except (EvalFailure α) β}
    {allowedThen : SolveFailure α → Prop}
    (fails : FailsOnly (fun failure => allowedThen failure.toSolveFailure) computation) :
    FailsOnly allowedThen (settled computation) := by
  cases computation with
  | ok value => exact failsOnly_ok value
  | error failure => exact failsOnly_error (fails failure rfl)

theorem failsOnly_mapM
    {items : List γ}
    {compute : γ → Except ε β}
    (fails : ∀ item ∈ items, FailsOnly allowed (compute item)) :
    FailsOnly allowed (items.mapM compute) := by
  induction items with
  | nil =>
      exact failsOnly_ok []
  | cons item rest inductionHypothesis =>
      rw [List.forall_mem_cons] at fails
      rw [List.mapM_cons]
      exact fails.1.bind fun _ _ =>
        (inductionHypothesis fails.2).bind fun _ _ => failsOnly_ok _

end FailsOnly

section Contained

variable {α β γ : Type}

/-- A computation fails only in ways that a search contains. -/
def Contained (computation : Except (EvalFailure α) β) : Prop :=
  ∀ breakdown, computation ≠ .error (.broken breakdown)

theorem contained_ok
    (value : β) :
    Contained (.ok value : Except (EvalFailure α) β) :=
  nofun

theorem contained_rejected
    (error : EvalError α) :
    Contained (.error (.rejected error) : Except (EvalFailure α) β) :=
  nofun

theorem Contained.bind
    {first : Except (EvalFailure α) β}
    {next : β → Except (EvalFailure α) γ}
    (firstContained : Contained first)
    (nextContained : ∀ value, first = .ok value → Contained (next value)) :
    Contained (first >>= next) := by
  cases first with
  | ok value => exact nextContained value rfl
  | error failure =>
      cases failure with
      | rejected error => exact contained_rejected error
      | broken breakdown => exact absurd rfl (firstContained breakdown)

theorem Contained.map
    {computation : Except (EvalFailure α) β}
    (contained : Contained computation)
    (change : β → γ) :
    Contained (computation.map change) := by
  cases computation with
  | ok value => exact contained_ok (change value)
  | error failure =>
      cases failure with
      | rejected error => exact contained_rejected error
      | broken breakdown => exact absurd rfl (contained breakdown)

theorem contained_mapError_rejected
    (computation : Except (EvalError α) β) :
    Contained (computation.mapError .rejected) := by
  cases computation with
  | ok value => exact contained_ok value
  | error error => exact contained_rejected error

end Contained

variable {α : Type}

/-- An assignment binds names to numbers only. -/
def Assignment.IsNumeric (assignment : Assignment α) : Prop :=
  ∀ name value, assignment.get? name = some value → ∃ number, value = .number number

namespace Assignment

theorem get?_of_read_eq_ok
    {assignment : Assignment α}
    {name : String}
    {value : α}
    (isRead : assignment.read name = .ok value) :
    assignment.get? name = some (.number value) := by
  unfold read at isRead
  split at isRead
  · cases isRead
  · rename_i bound isBound
    cases isRead
    exact isBound
  · cases isRead
  · cases isRead

theorem IsNumeric.contained_read
    {assignment : Assignment α}
    (isNumeric : assignment.IsNumeric)
    (name : String) :
    Contained (assignment.read name) := by
  unfold read
  cases isBound : assignment.get? name with
  | none => exact contained_rejected _
  | some value =>
      obtain ⟨number, rfl⟩ := isNumeric name value isBound
      exact contained_ok number

theorem IsNumeric.insert
    {assignment : Assignment α}
    (isNumeric : assignment.IsNumeric)
    (name : String)
    (number : α) :
    Assignment.IsNumeric (Table.insert assignment name (.number number)) := by
  intro key value isBound
  rw [Table.get?_insert] at isBound
  split at isBound
  · exact ⟨number, (Option.some.inj isBound).symm⟩
  · exact isNumeric key value isBound

end Assignment

namespace Expr

variable [Scalar α] {first second assignment : Assignment α}

theorem evaluateTerms_congr
    (terms : List (String × α))
    (agree : ∀ name ∈ terms.map (·.1), first.get? name = second.get? name)
    (total : α) :
    evaluateTerms first total terms = evaluateTerms second total terms := by
  induction terms generalizing total with
  | nil =>
      rfl
  | cons term rest inductionHypothesis =>
      have sameValue : first.read term.1 = second.read term.1 := by
        simp [Assignment.read, agree term.1 (by simp)]
      have restAgrees := inductionHypothesis fun name member =>
        agree name (List.mem_cons_of_mem term.1 member)
      simp only [evaluateTerms, sameValue, restAgrees]

mutual

/-- Two assignments that agree on the names that an expression reads give it the same value. -/
theorem evaluate_congr
    (expression : Expr α)
    (agree : ∀ name ∈ expression.names, first.get? name = second.get? name) :
    expression.evaluate first = expression.evaluate second := by
  match expression, agree with
  | .constant value, _ => rfl
  | .variable name, agree =>
      simp [evaluate, Assignment.read, agree name (by simp [names])]
  | .linear coefficients offset, agree =>
      exact evaluateTerms_congr coefficients.entries
        (fun name member => agree name (by simpa [names, Table.names] using member)) offset
  | .sum terms, agree =>
      exact evaluateSum_congr terms
        (fun name member => agree name (by simpa [names] using member)) 0
  | .product factors, agree =>
      exact evaluateProduct_congr factors
        (fun name member => agree name (by simpa [names] using member)) 1
  | .power base exponent, agree =>
      simp only [evaluate, evaluate_congr base agree]
  | .absolute operand, agree =>
      simp only [evaluate, evaluate_congr operand agree]
  | .condition operand comparison target, agree =>
      simp only [evaluate, evaluate_congr operand agree]

theorem evaluateSum_congr
    (terms : List (Expr α))
    (agree : ∀ name ∈ namesOfAll terms, first.get? name = second.get? name)
    (total : α) :
    evaluateSum first total terms = evaluateSum second total terms := by
  cases terms with
  | nil => rfl
  | cons expression rest =>
      have sameValue := evaluate_congr expression fun name member =>
        agree name (by simp [namesOfAll, member])
      have restAgrees := evaluateSum_congr rest fun name member =>
        agree name (by simp [namesOfAll, member])
      simp only [evaluateSum, sameValue, restAgrees]

theorem evaluateProduct_congr
    (factors : List (Expr α))
    (agree : ∀ name ∈ namesOfAll factors, first.get? name = second.get? name)
    (result : α) :
    evaluateProduct first result factors = evaluateProduct second result factors := by
  cases factors with
  | nil => rfl
  | cons expression rest =>
      have sameValue := evaluate_congr expression fun name member =>
        agree name (by simp [namesOfAll, member])
      have restAgrees := evaluateProduct_congr rest fun name member =>
        agree name (by simp [namesOfAll, member])
      simp only [evaluateProduct, sameValue, restAgrees]

end

theorem contained_evaluateTerms
    (isNumeric : assignment.IsNumeric)
    (terms : List (String × α))
    (total : α) :
    Contained (evaluateTerms assignment total terms) := by
  induction terms generalizing total with
  | nil =>
      exact contained_ok total
  | cons term rest inductionHypothesis =>
      exact (isNumeric.contained_read term.1).bind fun value _ =>
        inductionHypothesis (total + term.2 * value)

mutual

/-- An expression does not break down where every name is bound to a number. -/
theorem contained_evaluate
    (isNumeric : assignment.IsNumeric)
    (expression : Expr α) :
    Contained (expression.evaluate assignment) := by
  match expression with
  | .constant value => exact contained_ok value
  | .variable name => exact isNumeric.contained_read name
  | .linear coefficients offset =>
      exact contained_evaluateTerms isNumeric coefficients.entries offset
  | .sum terms => exact contained_evaluateSum isNumeric terms 0
  | .product factors => exact contained_evaluateProduct isNumeric factors 1
  | .power base exponent =>
      exact (contained_evaluate isNumeric base).bind fun value _ =>
        contained_mapError_rejected _
  | .absolute operand =>
      exact (contained_evaluate isNumeric operand).bind fun value _ => contained_ok _
  | .condition operand comparison target =>
      exact (contained_evaluate isNumeric operand).bind fun value _ => contained_ok _

theorem contained_evaluateSum
    (isNumeric : assignment.IsNumeric)
    (terms : List (Expr α))
    (total : α) :
    Contained (evaluateSum assignment total terms) := by
  cases terms with
  | nil => exact contained_ok total
  | cons expression rest =>
      exact (contained_evaluate isNumeric expression).bind fun value _ =>
        contained_evaluateSum isNumeric rest (total + value)

theorem contained_evaluateProduct
    (isNumeric : assignment.IsNumeric)
    (factors : List (Expr α))
    (result : α) :
    Contained (evaluateProduct assignment result factors) := by
  cases factors with
  | nil => exact contained_ok result
  | cons expression rest =>
      exact (contained_evaluate isNumeric expression).bind fun value _ =>
        contained_evaluateProduct isNumeric rest (result * value)

end

end Expr

/-- A closure depends on the values of names only, and does not break down on numbers. -/
structure Closure.IsTame (apply : Closure α) : Prop where
  extensional :
    ∀ first second : Assignment α,
      (∀ name, first.get? name = second.get? name) → apply first = apply second
  contained :
    ∀ assignment : Assignment α,
      assignment.IsNumeric → Contained (Rule.applyClosure apply assignment)

namespace Rule

/-- A rule is an expression, or a closure that behaves like one. -/
def IsTame : Rule α → Prop
  | .expression _ => True
  | .closure apply => apply.IsTame

/-- A rule depends on the values of names only, as every expression does. -/
def IsExtensional : Rule α → Prop
  | .expression _ => True
  | .closure apply =>
    ∀ first second : Assignment α,
      (∀ name, first.get? name = second.get? name) → apply first = apply second

theorem IsTame.isExtensional
    {rule : Rule α}
    (isTame : rule.IsTame) :
    rule.IsExtensional := by
  cases rule with
  | expression value => trivial
  | closure apply => exact Closure.IsTame.extensional isTame

/-- A rule may read a name; a closure may read every name. -/
def Reads (rule : Rule α) (name : String) : Prop :=
  ∀ referenced, rule.names? = some referenced → name ∈ referenced

variable [Scalar α] {rule : Rule α}

/-- Two assignments that agree on the names that a rule may read give it the same value. -/
theorem evaluate_congr
    {first second : Assignment α}
    (isExtensional : rule.IsExtensional)
    (agree : ∀ name, rule.Reads name → first.get? name = second.get? name) :
    rule.evaluate first = rule.evaluate second := by
  cases rule with
  | expression value =>
      apply value.evaluate_congr
      intro name member
      apply agree name
      intro referenced isReferenced
      exact Option.some.inj isReferenced ▸ member
  | closure apply =>
      have sameReturn : apply first = apply second :=
        isExtensional first second fun name => agree name nofun
      simp only [evaluate, applyClosure, sameReturn]

theorem contained_evaluate
    {assignment : Assignment α}
    (isTame : rule.IsTame)
    (isNumeric : assignment.IsNumeric) :
    Contained (rule.evaluate assignment) := by
  cases rule with
  | expression value => exact value.contained_evaluate isNumeric
  | closure apply => exact isTame.contained assignment isNumeric

end Rule

end Optima
