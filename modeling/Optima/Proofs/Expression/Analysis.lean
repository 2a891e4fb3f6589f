import Optima.Proofs.Expression.Evaluation

namespace Optima

/-!
# Where the search for a form fails

Looking for the form of an expression evaluates nothing but the factors of products that read
no name.  It fails exactly at the first of these that has no value, and what it fails at has no
value on any assignment.  A form that does not exist is no failure.
-/

/-- A computation that goes on after another fails where that one fails, or goes on to fail. -/
theorem bind_eq_error_iff
    {ε β γ : Type}
    {first : Except ε β}
    {next : β → Except ε γ}
    {failure : ε} :
    (first >>= next) = .error failure ↔
      first = .error failure ∨ ∃ value, first = .ok value ∧ next value = .error failure := by
  cases first <;> simp [bind, Except.bind]

/-- A computation has no result. -/
def Fails {ε β : Type} (computation : Except ε β) : Prop :=
  ∃ failure, computation = .error failure

/-- A computation that does not fail has a result. -/
theorem not_fails_iff
    {ε β : Type}
    {computation : Except ε β} :
    ¬ Fails computation ↔ ∃ value, computation = .ok value := by
  cases computation <;> simp [Fails]

theorem Fails.bind
    {ε β γ : Type}
    {first : Except ε β}
    (fails : Fails first)
    (next : β → Except ε γ) :
    Fails (first >>= next) := by
  obtain ⟨failure, rfl⟩ := fails
  exact ⟨failure, rfl⟩

theorem Fails.settled
    {α β : Type}
    {computation : Except (EvalFailure α) β}
    (fails : Fails computation) :
    Fails (settled computation) := by
  obtain ⟨failure, rfl⟩ := fails
  exact ⟨failure.toSolveFailure, rfl⟩

/-- Making something of a result fails where there is no result. -/
theorem fails_bind_ok_iff
    {ε β γ : Type}
    {computation : Except ε β}
    (change : β → γ) :
    Fails (computation >>= fun value => .ok (change value)) ↔ Fails computation := by
  cases computation <;> simp [Fails, bind, Except.bind]

/-- A computation that goes on after another has no result where what comes after it has none. -/
theorem fails_bind_of_next
    {ε β γ : Type}
    {first : Except ε β}
    {next : β → Except ε γ}
    (nextFails : ∀ value, first = .ok value → Fails (next value)) :
    Fails (first >>= next) := by
  cases first with
  | error failure => exact ⟨failure, rfl⟩
  | ok value => exact nextFails value rfl

section Passing

variable {β : Type} {passes : β → Prop} {stops : β → List β → Prop}

/-- Some item of a list is a stop, given the items after it, and all items before it are passed. -/
def StopsIn (passes : β → Prop) (stops : β → List β → Prop) (items : List β) : Prop :=
  ∃ before item after,
    items = before ++ item :: after ∧ (∀ other ∈ before, passes other) ∧ stops item after

theorem not_stopsIn_nil :
    ¬ StopsIn passes stops [] := by
  rintro ⟨before, item, after, isSplit, -⟩
  simp at isSplit

/-- A stop is the first item, or comes after it. -/
theorem stopsIn_cons_iff
    {item : β}
    {rest : List β} :
    StopsIn passes stops (item :: rest) ↔
      stops item rest ∨ (passes item ∧ StopsIn passes stops rest) := by
  constructor
  · rintro ⟨before, other, after, isSplit, arePassed, isStop⟩
    cases before with
    | nil =>
        cases isSplit
        exact .inl isStop
    | cons first earlier =>
        cases isSplit
        rw [List.forall_mem_cons] at arePassed
        exact .inr ⟨arePassed.1, earlier, other, after, rfl, arePassed.2, isStop⟩
  · rintro (isStop | ⟨isPassed, before, other, after, rfl, arePassed, isStop⟩)
    · exact ⟨[], item, rest, rfl, nofun, isStop⟩
    · exact ⟨item :: before, other, after, rfl,
        List.forall_mem_cons.mpr ⟨isPassed, arePassed⟩, isStop⟩

end Passing

namespace Expr

variable {α : Type} [Scalar α] {expression factor : Expr α} {failure : EvalFailure α}

/-- An expression reads no name and has a value. -/
structure IsFixed (expression : Expr α) : Prop where
  readsNothing : expression.names = []
  isValued : ∃ value, expression.evaluate {} = .ok value

/-- An expression reads no name, and its evaluation fails. -/
def FailsBare (failure : EvalFailure α) (expression : Expr α) : Prop :=
  expression.names = [] ∧ expression.evaluate {} = .error failure

/--
The search for the form of an expression asks a factor for its value.  The terms of a sum are
searched one after the other as long as they have forms.  Of a product the factors that read no
name are asked one after the other until a second one reads a name; the only one that does is
searched last.
-/
inductive Asks : Expr α → Expr α → Prop
  | term {before : List (Expr α)} {term factor : Expr α} (after : List (Expr α))
      (haveForms : ∀ other ∈ before, ∃ form, other.linearForm? = .ok (some form))
      (asks : Asks term factor) :
      Asks (.sum (before ++ term :: after)) factor
  | factor {before : List (Expr α)} {factor : Expr α} (after : List (Expr α))
      (areFixed : ∀ other ∈ before, other.IsFixed)
      (readsNothing : factor.names = []) :
      Asks (.product (before ++ factor :: after)) factor
  | laterFactor {before between : List (Expr α)} {varying factor : Expr α}
      (after : List (Expr α))
      (areFixed : ∀ other ∈ before, other.IsFixed)
      (reads : varying.names ≠ [])
      (betweenFixed : ∀ other ∈ between, other.IsFixed)
      (readsNothing : factor.names = []) :
      Asks (.product (before ++ varying :: (between ++ factor :: after))) factor
  | varying {before after : List (Expr α)} {varying factor : Expr α}
      (areFixed : ∀ other ∈ before, other.IsFixed)
      (reads : varying.names ≠ [])
      (afterFixed : ∀ other ∈ after, other.IsFixed)
      (asks : Asks varying factor) :
      Asks (.product (before ++ varying :: after)) factor
  | base {base factor : Expr α} {exponent : α}
      (isOne : (exponent == 1) = true)
      (asks : Asks base factor) :
      Asks (.power base exponent) factor

theorem Asks.names_eq_nil
    (asks : expression.Asks factor) :
    factor.names = [] := by
  induction asks with
  | term _ _ _ inductionHypothesis => exact inductionHypothesis
  | factor _ _ readsNothing => exact readsNothing
  | laterFactor _ _ _ _ readsNothing => exact readsNothing
  | varying _ _ _ _ inductionHypothesis => exact inductionHypothesis
  | base _ _ inductionHypothesis => exact inductionHypothesis

section Searching

/-- The search for the form of a sum fails at the first term without a form, if it fails there. -/
theorem sumForm?_eq_error_iff
    {terms : List (Expr α)}
    (form : LinearForm α) :
    sumForm? form terms = .error failure ↔
      StopsIn (fun term => ∃ added, term.linearForm? = .ok (some added))
        (fun term _ => term.linearForm? = .error failure) terms := by
  induction terms generalizing form with
  | nil =>
      simp [sumForm?, not_stopsIn_nil]
  | cons term rest inductionHypothesis =>
      rw [stopsIn_cons_iff, sumForm?, bind_eq_error_iff]
      refine or_congr_right ?_
      constructor
      · rintro ⟨added?, isAdded, failed⟩
        cases added? with
        | none => cases failed
        | some added => exact ⟨⟨added, isAdded⟩, (inductionHypothesis _).mp failed⟩
      · rintro ⟨⟨added, isAdded⟩, stops⟩
        exact ⟨some added, isAdded, (inductionHypothesis _).mpr stops⟩

section Products

variable {factors : List (Expr α)} {outcome : Except (EvalFailure α) (Option (LinearForm α))}

/-- A factor that reads no name is asked, and the others after it. -/
theorem productForm?_cons_eq_error_iff
    {varying : Option (Except (EvalFailure α) (Option (LinearForm α)))}
    (readsNothing : factor.names = [])
    (scale : α) :
    productForm? scale varying (factor :: factors) = .error failure ↔
      factor.FailsBare failure ∨
        ∃ value, factor.evaluate {} = .ok value ∧
          productForm? (scale * value) varying factors = .error failure := by
  rw [productForm?.eq_def]
  simp only [FailsBare, readsNothing, List.isEmpty_nil, if_true, true_and, bind_eq_error_iff]

/-- After a factor that reads a name, a second one ends the search for the form of a product. -/
theorem productForm?_some_eq_error_iff
    (scale : α) :
    productForm? scale (some outcome) factors = .error failure ↔
      StopsIn IsFixed (fun factor _ => factor.FailsBare failure) factors ∨
        ((∀ factor ∈ factors, factor.IsFixed) ∧ outcome = .error failure) := by
  induction factors generalizing scale with
  | nil =>
      cases outcome <;> simp [productForm?, not_stopsIn_nil, Except.map]
  | cons factor rest inductionHypothesis =>
      rw [stopsIn_cons_iff, List.forall_mem_cons]
      by_cases readsNothing : factor.names = []
      · rw [productForm?_cons_eq_error_iff readsNothing]
        simp only [inductionHypothesis]
        constructor
        · rintro (fails | ⟨value, isValue, stops | ⟨areFixed, isOutcome⟩⟩)
          · exact .inl (.inl fails)
          · exact .inl (.inr ⟨⟨readsNothing, value, isValue⟩, stops⟩)
          · exact .inr ⟨⟨⟨readsNothing, value, isValue⟩, areFixed⟩, isOutcome⟩
        · rintro ((fails | ⟨isFixed, stops⟩) | ⟨⟨isFixed, areFixed⟩, isOutcome⟩)
          · exact .inl fails
          · obtain ⟨value, isValue⟩ := isFixed.isValued
            exact .inr ⟨value, isValue, .inl stops⟩
          · obtain ⟨value, isValue⟩ := isFixed.isValued
            exact .inr ⟨value, isValue, .inr ⟨areFixed, isOutcome⟩⟩
      · have ends : productForm? scale (some outcome) (factor :: rest) = .ok none := by
          simp [productForm?, readsNothing]
        rw [ends]
        simp only [reduceCtorEq, false_iff]
        rintro ((fails | ⟨isFixed, -⟩) | ⟨⟨isFixed, -⟩, -⟩)
        · exact readsNothing fails.1
        · exact readsNothing isFixed.readsNothing
        · exact readsNothing isFixed.readsNothing

/-- The search for the form of a product fails at a factor without names, at one after the factor
that reads a name, or in this factor if all others are fixed. -/
theorem productForm?_none_eq_error_iff
    (scale : α) :
    productForm? scale none factors = .error failure ↔
      StopsIn IsFixed
        (fun factor rest =>
          factor.FailsBare failure ∨
            factor.names ≠ [] ∧
              (StopsIn IsFixed (fun other _ => other.FailsBare failure) rest ∨
                ((∀ other ∈ rest, other.IsFixed) ∧ factor.linearForm? = .error failure)))
        factors := by
  induction factors generalizing scale with
  | nil =>
      simp [productForm?, not_stopsIn_nil]
  | cons factor rest inductionHypothesis =>
      rw [stopsIn_cons_iff]
      by_cases readsNothing : factor.names = []
      · rw [productForm?_cons_eq_error_iff readsNothing]
        simp only [inductionHypothesis, ne_eq, readsNothing, not_true_eq_false, false_and, or_false]
        refine or_congr_right ⟨?_, ?_⟩
        · rintro ⟨value, isValue, stops⟩
          exact ⟨⟨readsNothing, value, isValue⟩, stops⟩
        · rintro ⟨isFixed, stops⟩
          obtain ⟨value, isValue⟩ := isFixed.isValued
          exact ⟨value, isValue, stops⟩
      · have goesOn :
            productForm? scale none (factor :: rest) =
              productForm? scale (some factor.linearForm?) rest := by
          simp [productForm?, readsNothing]
        rw [goesOn, productForm?_some_eq_error_iff]
        constructor
        · exact fun fails => .inl (.inr ⟨readsNothing, fails⟩)
        · rintro ((fails | ⟨-, fails⟩) | ⟨isFixed, -⟩)
          · exact absurd fails.1 readsNothing
          · exact fails
          · exact absurd isFixed.readsNothing readsNothing

end Products

/-- Where the search for a form fails, it fails at a factor that it asks. -/
theorem exists_asks_of_linearForm?_eq_error
    (expression : Expr α)
    (failed : expression.linearForm? = .error failure) :
    ∃ factor, expression.Asks factor ∧ factor.evaluate {} = .error failure := by
  match expression with
  | .sum terms =>
      obtain ⟨before, term, after, isSplit, haveForms, failed⟩ :=
        (sumForm?_eq_error_iff _).mp (by simpa only [linearForm?] using failed)
      have inTerms : term ∈ terms := isSplit ▸ List.mem_append_cons_self
      obtain ⟨factor, asks, fails⟩ := exists_asks_of_linearForm?_eq_error term failed
      exact ⟨factor, isSplit ▸ .term after haveForms asks, fails⟩
  | .product factors =>
      obtain ⟨before, factor, after, isSplit, areFixed, stops⟩ :=
        (productForm?_none_eq_error_iff _).mp (by simpa only [linearForm?] using failed)
      have inFactors : factor ∈ factors := isSplit ▸ List.mem_append_cons_self
      rcases stops with ⟨readsNothing, fails⟩ | ⟨reads, later | ⟨afterFixed, failed⟩⟩
      · exact ⟨factor, isSplit ▸ .factor after areFixed readsNothing, fails⟩
      · obtain ⟨between, other, rest, rfl, betweenFixed, readsNothing, fails⟩ := later
        exact ⟨other, isSplit ▸ .laterFactor rest areFixed reads betweenFixed readsNothing, fails⟩
      · obtain ⟨asked, asks, fails⟩ := exists_asks_of_linearForm?_eq_error factor failed
        exact ⟨asked, isSplit ▸ .varying areFixed reads afterFixed asks, fails⟩
  | .power base exponent =>
      rw [linearForm?] at failed
      split at failed
      · rename_i isOne
        obtain ⟨factor, asks, fails⟩ := exists_asks_of_linearForm?_eq_error base failed
        exact ⟨factor, .base isOne asks, fails⟩
      · split at failed <;> cases failed
  | .constant _ | .variable _ | .linear _ _ | .absolute _ | .condition _ _ _ =>
      simp [linearForm?] at failed
termination_by sizeOf expression

/-- A factor that is asked and fails ends the search for a form. -/
theorem Asks.linearForm?_eq_error
    (asks : expression.Asks factor)
    (fails : factor.evaluate {} = .error failure) :
    expression.linearForm? = .error failure := by
  induction asks with
  | term after haveForms _ inductionHypothesis =>
      rw [linearForm?, sumForm?_eq_error_iff]
      exact ⟨_, _, after, rfl, haveForms, inductionHypothesis fails⟩
  | factor after areFixed readsNothing =>
      rw [linearForm?, productForm?_none_eq_error_iff]
      exact ⟨_, _, after, rfl, areFixed, .inl ⟨readsNothing, fails⟩⟩
  | laterFactor after areFixed reads betweenFixed readsNothing =>
      rw [linearForm?, productForm?_none_eq_error_iff]
      exact ⟨_, _, _, rfl, areFixed,
        .inr ⟨reads, .inl ⟨_, _, after, rfl, betweenFixed, readsNothing, fails⟩⟩⟩
  | varying areFixed reads afterFixed _ inductionHypothesis =>
      rw [linearForm?, productForm?_none_eq_error_iff]
      exact ⟨_, _, _, rfl, areFixed, .inr ⟨reads, .inr ⟨afterFixed, inductionHypothesis fails⟩⟩⟩
  | base isOne _ inductionHypothesis =>
      rw [linearForm?, if_pos isOne]
      exact inductionHypothesis fails

/-- The search for a form fails exactly where a factor that it asks does. -/
theorem linearForm?_eq_error_iff :
    expression.linearForm? = .error failure ↔
      ∃ factor, expression.Asks factor ∧ factor.evaluate {} = .error failure :=
  ⟨exists_asks_of_linearForm?_eq_error expression,
    fun ⟨_, asks, fails⟩ => asks.linearForm?_eq_error fails⟩

/-- The search for a form does not break down. -/
theorem contained_linearForm?
    (expression : Expr α) :
    Contained expression.linearForm? := by
  intro breakdown failed
  obtain ⟨factor, -, fails⟩ := linearForm?_eq_error_iff.mp failed
  have noNames : Assignment.IsNumeric ({} : Assignment α) := nofun
  exact contained_evaluate noNames factor breakdown fails

end Searching

section Meaning

/-!
## What the search fails at has no value

Whatever names are bound to, a factor that is asked is also evaluated with the expression.
-/

variable {assignment : Assignment α}

theorem fails_evaluateSum
    {terms : List (Expr α)}
    {term : Expr α}
    (member : term ∈ terms)
    (fails : Fails (term.evaluate assignment))
    (total : α) :
    Fails (evaluateSum assignment total terms) := by
  induction terms generalizing total with
  | nil =>
      cases member
  | cons other rest inductionHypothesis =>
      rcases List.mem_cons.mp member with rfl | inRest
      · exact fails.bind _
      · exact fails_bind_of_next fun value _ => inductionHypothesis inRest (total + value)

theorem fails_evaluateProduct
    {factors : List (Expr α)}
    (member : factor ∈ factors)
    (fails : Fails (factor.evaluate assignment))
    (result : α) :
    Fails (evaluateProduct assignment result factors) := by
  induction factors generalizing result with
  | nil =>
      cases member
  | cons other rest inductionHypothesis =>
      rcases List.mem_cons.mp member with rfl | inRest
      · exact fails.bind _
      · exact fails_bind_of_next fun value _ => inductionHypothesis inRest (result * value)

/-- An expression has no value on any assignment if a factor that is asked has none. -/
theorem Asks.fails_evaluate
    (asks : expression.Asks factor)
    (fails : Fails (factor.evaluate {}))
    (assignment : Assignment α) :
    Fails (expression.evaluate assignment) := by
  have factorFails : Fails (factor.evaluate assignment) := by
    have sameValue : factor.evaluate assignment = factor.evaluate {} :=
      factor.evaluate_congr (by simp [asks.names_eq_nil])
    rwa [sameValue]
  induction asks with
  | term _ _ _ inductionHypothesis =>
      exact fails_evaluateSum List.mem_append_cons_self (inductionHypothesis fails factorFails) 0
  | factor _ _ _ =>
      exact fails_evaluateProduct List.mem_append_cons_self factorFails 1
  | laterFactor _ _ _ _ _ =>
      exact fails_evaluateProduct (by simp) factorFails 1
  | varying _ _ _ _ inductionHypothesis =>
      exact fails_evaluateProduct List.mem_append_cons_self
        (inductionHypothesis fails factorFails) 1
  | base _ _ inductionHypothesis =>
      exact (inductionHypothesis fails factorFails).bind _

end Meaning

end Expr

end Optima
