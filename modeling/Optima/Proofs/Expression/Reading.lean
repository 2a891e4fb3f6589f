import Mathlib
import Optima.Proofs.Expression.Naming
import Optima.Proofs.Scalar.Extended

namespace Optima

/-!
# What an expression needs

The names of an expression are exactly what its evaluation needs.  No zero factor, no zero
coefficient and no zero exponent spares a name from being read, and nothing else is read.  An
evaluation therefore fails at a name that cannot be read, or at a power of a base that has a
value, and in no other place.
-/

theorem mapError_eq_error
    {ε δ β : Type}
    {told : ε → δ}
    {computation : Except ε β}
    {failure : δ}
    (isFailure : computation.mapError told = .error failure) :
    ∃ cause, computation = .error cause ∧ failure = told cause := by
  cases computation with
  | ok value => cases isFailure
  | error cause =>
      cases isFailure
      exact ⟨cause, rfl, rfl⟩

/-- An assignment of numbers binds its names to nothing else. -/
theorem Assignment.isNumeric_ofNumbers
    {α : Type}
    (numbers : List (String × α)) :
    (ofNumbers numbers).IsNumeric := by
  intro name value isBound
  obtain ⟨before, after, shape, -⟩ := List.lookup_eq_some_iff.mp isBound
  have isEntry : (name, value) ∈ (ofNumbers numbers).entries := by
    rw [shape]
    exact List.mem_append_right before List.mem_cons_self
  obtain ⟨entry, -, isEntry⟩ := List.mem_map.mp isEntry
  exact ⟨entry.2, (congrArg Prod.snd isEntry).symm⟩

namespace EvalError

variable {α : Type}

/-- An expression has no value because of a power. -/
def IsOfPower : EvalError α → Prop
  | .powerTooLarge _ _ | .zeroToNegative _ _ | .noRealPower _ _ | .complexPowerTooLarge _ _ => True
  | .unbound _ | .textValue _ _ | .closureUnbound _ | .closureNotNumeric _ => False

end EvalError

namespace Expr

variable {α : Type}

/-- An expression occurs in an expression, or is all of it. -/
inductive IsPart : Expr α → Expr α → Prop
  | whole (expression : Expr α) :
      IsPart expression expression
  | term {part term : Expr α} {terms : List (Expr α)}
      (isTerm : term ∈ terms)
      (isPart : IsPart part term) :
      IsPart part (.sum terms)
  | factor {part factor : Expr α} {factors : List (Expr α)}
      (isFactor : factor ∈ factors)
      (isPart : IsPart part factor) :
      IsPart part (.product factors)
  | base {part base : Expr α} (exponent : α)
      (isPart : IsPart part base) :
      IsPart part (.power base exponent)
  | distance {part operand : Expr α}
      (isPart : IsPart part operand) :
      IsPart part (.absolute operand)
  | tested {part operand : Expr α} (comparison : Comparison) (target : α)
      (isPart : IsPart part operand) :
      IsPart part (.condition operand comparison target)

/-- Reading a name of an expression fails. -/
def FailsAtName
    (assignment : Assignment α)
    (failure : EvalFailure α)
    (names : List String) : Prop :=
  ∃ name ∈ names, assignment.read name = .error failure

theorem FailsAtName.mono
    {assignment : Assignment α}
    {failure : EvalFailure α}
    {names others : List String}
    (fails : FailsAtName assignment failure names)
    (areNames : ∀ name ∈ names, name ∈ others) :
    FailsAtName assignment failure others := by
  obtain ⟨name, member, isFailure⟩ := fails
  exact ⟨name, areNames name member, isFailure⟩

/-- No name that is bound to a number fails. -/
theorem not_failsAtName_of_covers
    {assignment : Assignment α}
    {failure : EvalFailure α}
    {names : List String}
    (covers : assignment.Covers names) :
    ¬ FailsAtName assignment failure names := by
  rintro ⟨name, member, isFailure⟩
  obtain ⟨number, isBound⟩ := covers name member
  rw [Assignment.read, isBound] at isFailure
  cases isFailure

variable [Scalar α] {assignment : Assignment α} {failure : EvalFailure α}

/-- A power occurs in an expression whose base has a value, and the value cannot be raised. -/
def FailsAtPower
    (assignment : Assignment α)
    (error : EvalError α)
    (expression : Expr α) : Prop :=
  ∃ base exponent value,
    (Expr.power base exponent).IsPart expression ∧
      base.evaluate assignment = .ok value ∧
        raise base.isEmptySum value exponent = .error error

theorem isOfPower_of_raise_eq_error
    {bare : Bool}
    {base exponent : α}
    {error : EvalError α}
    (isError : raise bare base exponent = .error error) :
    error.IsOfPower := by
  unfold raise at isError
  dsimp only at isError
  repeat' split at isError
  all_goals cases isError
  all_goals trivial

theorem FailsAtPower.isOfPower
    {error : EvalError α}
    {expression : Expr α}
    (fails : FailsAtPower assignment error expression) :
    error.IsOfPower := by
  obtain ⟨base, exponent, value, -, -, isError⟩ := fails
  exact isOfPower_of_raise_eq_error isError

/-- What fails at a power of a part fails at a power of the whole. -/
theorem FailsAtPower.within
    {error : EvalError α}
    {part expression : Expr α}
    (fails : FailsAtPower assignment error part)
    (within : ∀ other : Expr α, other.IsPart part → other.IsPart expression) :
    FailsAtPower assignment error expression := by
  obtain ⟨base, exponent, value, isPart, isValue, isError⟩ := fails
  exact ⟨base, exponent, value, within _ isPart, isValue, isError⟩

/-- An evaluation fails at one of some names, or at a power of one of some expressions. -/
def IsTraced
    (assignment : Assignment α)
    (failure : EvalFailure α)
    (names : List String)
    (expressions : List (Expr α)) : Prop :=
  FailsAtName assignment failure names ∨
    ∃ error, failure = .rejected error ∧
      ∃ expression ∈ expressions, FailsAtPower assignment error expression

/-- What is traced to parts of an expression is traced to the expression. -/
theorem IsTraced.within
    {names : List String}
    {expressions : List (Expr α)}
    {whole : Expr α}
    (traced : IsTraced assignment failure names expressions)
    (areNames : ∀ name ∈ names, name ∈ whole.names)
    (areParts : ∀ expression ∈ expressions, ∀ other : Expr α,
      other.IsPart expression → other.IsPart whole) :
    IsTraced assignment failure whole.names [whole] := by
  rcases traced with atName | ⟨error, isRejected, expression, member, atPower⟩
  · exact .inl (atName.mono areNames)
  · exact .inr ⟨error, isRejected, whole, List.mem_singleton_self whole,
      atPower.within (areParts expression member)⟩

/-- What is traced to the first of some expressions is traced to all of them together. -/
theorem IsTraced.first
    {expression : Expr α}
    (traced : IsTraced assignment failure expression.names [expression])
    (rest : List (Expr α)) :
    IsTraced assignment failure (namesOfAll (expression :: rest)) (expression :: rest) := by
  rcases traced with atName | ⟨error, isRejected, other, member, atPower⟩
  · exact .inl (atName.mono fun _ => List.mem_append_left _)
  · cases List.mem_singleton.mp member
    exact .inr ⟨error, isRejected, expression, List.mem_cons_self, atPower⟩

theorem IsTraced.later
    {rest : List (Expr α)}
    (traced : IsTraced assignment failure (namesOfAll rest) rest)
    (expression : Expr α) :
    IsTraced assignment failure (namesOfAll (expression :: rest)) (expression :: rest) := by
  rcases traced with atName | ⟨error, isRejected, other, member, atPower⟩
  · exact .inl (atName.mono fun _ => List.mem_append_right _)
  · exact .inr ⟨error, isRejected, other, List.mem_cons_of_mem _ member, atPower⟩

theorem failsAtName_of_evaluateTerms_eq_error
    {terms : List (String × α)}
    {total : α}
    (isFailure : evaluateTerms assignment total terms = .error failure) :
    FailsAtName assignment failure (terms.map (·.1)) := by
  induction terms generalizing total with
  | nil =>
      cases isFailure
  | cons term rest inductionHypothesis =>
      rcases bind_eq_error_iff.mp isFailure with atTerm | ⟨value, -, atRest⟩
      · exact ⟨term.1, by simp, atTerm⟩
      · exact (inductionHypothesis atRest).mono fun _ => List.mem_cons_of_mem _

mutual

/-- An evaluation fails at a name of the expression or at a power in it. -/
theorem isTraced_of_evaluate_eq_error
    (expression : Expr α)
    (isFailure : expression.evaluate assignment = .error failure) :
    IsTraced assignment failure expression.names [expression] := by
  match expression with
  | .constant _ => cases isFailure
  | .variable name => exact .inl ⟨name, by simp [names], isFailure⟩
  | .linear coefficients offset =>
      exact .inl ((failsAtName_of_evaluateTerms_eq_error isFailure).mono
        fun _ => by simp [names, Table.names])
  | .sum terms =>
      exact (isTraced_of_evaluateSum_eq_error terms isFailure).within
        (fun _ => List.mem_eraseDups.mpr) fun _ isTerm _ => .term isTerm
  | .product factors =>
      exact (isTraced_of_evaluateProduct_eq_error factors isFailure).within
        (fun _ => List.mem_eraseDups.mpr) fun _ isFactor _ => .factor isFactor
  | .power base exponent =>
      rcases bind_eq_error_iff.mp isFailure with atBase | ⟨value, isValue, atRaise⟩
      · refine (isTraced_of_evaluate_eq_error base atBase).within (fun _ => id) ?_
        exact List.forall_mem_singleton.mpr fun _ => .base exponent
      · obtain ⟨error, isError, rfl⟩ := mapError_eq_error atRaise
        exact .inr ⟨error, rfl, _, List.mem_singleton_self _,
          base, exponent, value, .whole _, isValue, isError⟩
  | .absolute operand =>
      rcases bind_eq_error_iff.mp isFailure with atOperand | ⟨value, -, atReturn⟩
      · refine (isTraced_of_evaluate_eq_error operand atOperand).within (fun _ => id) ?_
        exact List.forall_mem_singleton.mpr fun _ => .distance
      · cases atReturn
  | .condition operand comparison target =>
      rcases bind_eq_error_iff.mp isFailure with atOperand | ⟨value, -, atReturn⟩
      · refine (isTraced_of_evaluate_eq_error operand atOperand).within (fun _ => id) ?_
        exact List.forall_mem_singleton.mpr fun _ => .tested comparison target
      · cases atReturn

theorem isTraced_of_evaluateSum_eq_error
    (terms : List (Expr α))
    {total : α}
    (isFailure : evaluateSum assignment total terms = .error failure) :
    IsTraced assignment failure (namesOfAll terms) terms := by
  match terms with
  | [] => cases isFailure
  | expression :: rest =>
      rcases bind_eq_error_iff.mp isFailure with atFirst | ⟨value, -, atRest⟩
      · exact (isTraced_of_evaluate_eq_error expression atFirst).first rest
      · exact (isTraced_of_evaluateSum_eq_error rest atRest).later expression

theorem isTraced_of_evaluateProduct_eq_error
    (factors : List (Expr α))
    {result : α}
    (isFailure : evaluateProduct assignment result factors = .error failure) :
    IsTraced assignment failure (namesOfAll factors) factors := by
  match factors with
  | [] => cases isFailure
  | expression :: rest =>
      rcases bind_eq_error_iff.mp isFailure with atFirst | ⟨value, -, atRest⟩
      · exact (isTraced_of_evaluate_eq_error expression atFirst).first rest
      · exact (isTraced_of_evaluateProduct_eq_error rest atRest).later expression

end

/-- Where all names are bound to numbers, an expression has a value or fails at a power. -/
theorem evaluate_of_covers
    {expression : Expr α}
    (covers : assignment.Covers expression.names) :
    (∃ value, expression.evaluate assignment = .ok value) ∨
      ∃ error, expression.evaluate assignment = .error (.rejected error) ∧
        error.IsOfPower ∧ FailsAtPower assignment error expression := by
  cases isOutcome : expression.evaluate assignment with
  | ok value => exact .inl ⟨value, rfl⟩
  | error failure =>
      rcases isTraced_of_evaluate_eq_error expression isOutcome with
        atName | ⟨error, rfl, other, member, atPower⟩
      · exact absurd atName (not_failsAtName_of_covers covers)
      · cases List.mem_singleton.mp member
        exact .inr ⟨error, rfl, atPower.isOfPower, atPower⟩

/-- Where a name has no value, neither has an expression that reads it. -/
theorem evaluate_of_unbound
    {expression : Expr α}
    {name : String}
    (areUsable : ∀ other ∈ expression.names, ∀ breakdown,
      assignment.get? other ≠ some (.unusable breakdown))
    (member : name ∈ expression.names)
    (isUnbound : assignment.get? name = none) :
    ∃ error, expression.evaluate assignment = .error (.rejected error) := by
  cases isOutcome : expression.evaluate assignment with
  | ok value =>
      obtain ⟨number, isBound⟩ := covers_of_evaluate_eq_ok expression isOutcome name member
      simp [isUnbound] at isBound
  | error failure =>
      rcases isTraced_of_evaluate_eq_error expression isOutcome with
        ⟨other, isName, isFailure⟩ | ⟨error, rfl, -⟩
      · cases failure with
        | rejected error => exact ⟨error, rfl⟩
        | broken breakdown =>
            unfold Assignment.read at isFailure
            split at isFailure
            all_goals cases isFailure
            rename_i isBroken
            exact absurd isBroken (areUsable other isName breakdown)
      · exact ⟨error, rfl⟩

/--
The names of an expression are what it needs, and no less.  Two assignments that agree on them
give it the same value or the same failure.  Where they are all bound to numbers it has a value,
or its evaluation is rejected at a power of a base that has a value.  Where one of them has no
value its evaluation is rejected, as long as none of them is bound to what cannot be read.
-/
theorem evaluate_needs_names
    (expression : Expr α) :
    (∀ first second : Assignment α,
      (∀ name ∈ expression.names, first.get? name = second.get? name) →
        expression.evaluate first = expression.evaluate second) ∧
      (∀ assignment : Assignment α,
        assignment.Covers expression.names →
          (∃ value, expression.evaluate assignment = .ok value) ∨
            ∃ error, expression.evaluate assignment = .error (.rejected error) ∧
              error.IsOfPower ∧ FailsAtPower assignment error expression) ∧
        ∀ assignment : Assignment α,
          (∀ name ∈ expression.names, ∀ breakdown,
            assignment.get? name ≠ some (.unusable breakdown)) →
          (∃ name ∈ expression.names, assignment.get? name = none) →
            ∃ error, expression.evaluate assignment = .error (.rejected error) := by
  refine ⟨fun first second => expression.evaluate_congr, fun assignment => evaluate_of_covers, ?_⟩
  rintro assignment areUsable ⟨name, member, isUnbound⟩
  exact evaluate_of_unbound areUsable member isUnbound

section Samples

open Extended

/-- Names behind a zero factor, a zero exponent and a zero coefficient. -/
def behindZeros : Expr Extended :=
  .sum [.product [.constant 0, .variable "x"], .power (.variable "y") 0,
    .linear ⟨[("z", 0)]⟩ 1]

/-- Numbers for all names that stand behind zeros. -/
def allBound : Assignment Extended :=
  .ofNumbers [("x", 1), ("y", 0), ("z", finite 3)]

/-- Names behind zeros are needed: what else is bound makes no difference, and none may lack. -/
theorem behindZeros_needs_names :
    behindZeros.evaluate allBound =
        behindZeros.evaluate (allBound.insert "w" (.number 1)) ∧
      ((∃ value, behindZeros.evaluate allBound = .ok value) ∨
        ∃ error, behindZeros.evaluate allBound = .error (.rejected error) ∧
          error.IsOfPower ∧ FailsAtPower allBound error behindZeros) ∧
        ∃ error, behindZeros.evaluate
          (.ofNumbers [("x", 1), ("y", 0)]) = .error (.rejected error) := by
  refine ⟨(evaluate_needs_names behindZeros).1 _ _ ?_,
    (evaluate_needs_names behindZeros).2.1 _ ?_,
    (evaluate_needs_names behindZeros).2.2 _ ?_ ⟨"z", by decide +kernel, by decide +kernel⟩⟩
  · intro name member
    have isOther : ∀ other ∈ behindZeros.names, other ≠ "w" := by decide +kernel
    rw [Table.get?_insert, if_neg (isOther name member)]
  · exact Assignment.covers_ofNumbers (by decide +kernel)
  · intro name member breakdown isBroken
    obtain ⟨number, isNumber⟩ := Assignment.isNumeric_ofNumbers _ name _ isBroken
    cases isNumber

end Samples

end Expr

end Optima
