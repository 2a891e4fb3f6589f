import Optima.Proofs.Expression.Sameness
import Optima.Proofs.Search.Verdict

namespace Optima

/-!
# Vectors that count as the same

Vectors whose components count as the same stand for values that do, and where no closure
tells them apart their objectives have values that do.  So a search may drop one of them.
Other vectors stand for other values.
-/

/-- Whether two data count as the same: numbers that do, or one text. -/
def Datum.IsSame {α : Type} [Scalar α] : Datum α → Datum α → Prop
  | .number value, .number other => Scalar.same value other = true
  | .text value, .text other => value = other
  | _, _ => False

variable {α : Type} [Scalar α]

/-- No closure of a problem tells assignments apart that count as the same. -/
structure Problem.IsCongruent (problem : Problem α) : Prop where
  objectives : ∀ objective ∈ problem.objectives, objective.rule.IsCongruent
  constraints : ∀ constraint ∈ problem.constraints, constraint.rule.IsCongruent

/-- The components of two vectors count as the same. -/
def AreSame (first second : List α) : Prop :=
  List.Forall₂ (fun value other => Scalar.same value other = true) first second

theorem areSame_self
    [NumericScalar α]
    (vector : List α) :
    AreSame vector vector :=
  List.forall₂_same.mpr fun value _ => Scalar.same_self value

theorem AreSame.symm
    [FractionalScalar α]
    {first second : List α}
    (areSame : AreSame first second) :
    AreSame second first :=
  areSame.flip.imp fun _ _ isSame => Scalar.same_comm isSame

theorem areSame_of_beq
    {first second : List α}
    (isEqual : (first == second) = true) :
    AreSame first second :=
  (beq_iff_forall₂.mp isEqual).imp fun _ _ isEqual => Scalar.same_iff.mpr (.inl isEqual)

section Evaluating

variable [CongruentScalar α] {first second : Assignment α}

theorem Objectives.alike_valuesInto
    {objectives : List (Objective α)}
    (areCongruent : ∀ objective ∈ objectives, objective.rule.IsCongruent)
    (areSame : first.AreSame second)
    {values images : Table α}
    (areRelated : values.Related (fun value other => Scalar.same value other = true) images) :
    Alike (Table.Related fun value other => Scalar.same value other = true)
      (valuesInto first values objectives) (valuesInto second images objectives) := by
  induction objectives generalizing values images with
  | nil =>
      exact .returned areRelated
  | cons objective rest inductionHypothesis =>
      rw [List.forall_mem_cons] at areCongruent
      refine (Rule.alike_evaluate areCongruent.1 areSame).bind fun value image isSame => ?_
      exact inductionHypothesis areCongruent.2 (areRelated.insert objective.name isSame)

/-- Whether constraints have magnitudes depends on what their rules read. -/
theorem Constraints.alike_totalFrom
    {constraints : List (Constraint α)}
    (areCongruent : ∀ constraint ∈ constraints, constraint.rule.IsCongruent)
    (areSame : first.AreSame second)
    (tolerance total other : α) :
    Alike (fun _ _ => True) (totalFrom tolerance first total constraints)
      (totalFrom tolerance second other constraints) := by
  induction constraints generalizing total other with
  | nil =>
      exact .returned trivial
  | cons constraint rest inductionHypothesis =>
      rw [List.forall_mem_cons] at areCongruent
      have alike : Alike (fun _ _ => True) (constraint.violation tolerance first)
          (constraint.violation tolerance second) :=
        (Rule.alike_evaluate areCongruent.1 areSame).map fun _ _ _ => trivial
      exact alike.bind fun magnitude image _ => inductionHypothesis areCongruent.2 _ _

end Evaluating

namespace Candidates

variable {candidates : Candidates α} {vector other : List α}

/-- Vectors that count as the same are assignments that do. -/
theorem areSame_assignment
    (candidates : Candidates α)
    (areSame : AreSame vector other) :
    (candidates.assignment vector).AreSame (candidates.assignment other) := by
  have areRelated :
      (candidates.assignment vector).Related
        (fun value image => ∃ number another,
          value = .number number ∧ image = .number another ∧
            Scalar.same number another = true)
        (candidates.assignment other) := by
    refine Table.related_ofList ?_
    rw [List.forall₂_map_left_iff, List.forall₂_map_right_iff]
    refine (forall₂_zip_left areSame candidates.names).imp ?_
    rintro entry image ⟨sameName, isSame⟩
    exact ⟨sameName, entry.2, image.2, rfl, rfl, isSame⟩
  intro name
  have isRelated := areRelated.get? name
  unfold Assignment.read
  generalize (candidates.assignment vector).get? name = value at isRelated ⊢
  generalize (candidates.assignment other).get? name = image at isRelated ⊢
  cases isRelated with
  | none => exact .rejected _ _
  | some isRelated =>
      obtain ⟨number, another, rfl, rfl, isSame⟩ := isRelated
      exact .returned isSame

section Evaluating

variable [CongruentScalar α]

/-- The objectives have values on vectors that count as the same which do. -/
theorem related_objectiveValues
    (isCongruent : candidates.problem.IsCongruent)
    (areSame : AreSame vector other)
    {worth worthToo : Evaluation α}
    (isWorth : candidates.evaluate vector = .ok worth)
    (isWorthToo : candidates.evaluate other = .ok worthToo) :
    worth.objectiveValues.Related (fun value image => Scalar.same value image = true)
      worthToo.objectiveValues := by
  have areSame := candidates.areSame_assignment areSame
  have alike :
      Alike
        (fun worth worthToo : Evaluation α =>
          worth.objectiveValues.Related (fun value image => Scalar.same value image = true)
            worthToo.objectiveValues)
        (candidates.evaluateOn (candidates.assignment vector))
        (candidates.evaluateOn (candidates.assignment other)) := by
    refine (Objectives.alike_valuesInto isCongruent.objectives areSame
      (Table.Related.refl Scalar.same_self _)).bind fun values images areRelated => ?_
    exact (Constraints.alike_totalFrom isCongruent.constraints areSame _ _ _).bind
      fun _ _ _ => .returned areRelated
  unfold evaluate at isWorth isWorthToo
  generalize candidates.evaluateOn (candidates.assignment vector) = outcome at alike isWorth
  generalize candidates.evaluateOn (candidates.assignment other) = outcomeToo at alike isWorthToo
  cases alike with
  | returned areRelated =>
      cases isWorth
      cases isWorthToo
      exact areRelated
  | rejected error image =>
      cases isWorth
      cases isWorthToo
      exact .refl Scalar.same_self _
  | broken breakdown =>
      cases isWorth

end Evaluating

end Candidates

section Decoding

variable [CongruentScalar α]

namespace Variable

variable {decision : Variable α} {value other : α}

theorem exists_wholePart_nearest_eq_ok
    (isSame : Scalar.same value other = true)
    {whole : α}
    (isWhole : wholePart Scalar.nearest value = .ok whole) :
    ∃ image, wholePart Scalar.nearest other = .ok image ∧ Scalar.same whole image = true := by
  obtain ⟨isFinite, rfl⟩ := of_wholePart_eq_ok isWhole
  have isFiniteToo := (Scalar.isFinite_congr isSame).symm.trans isFinite
  refine ⟨Scalar.nearest other, ?_, CongruentScalar.same_nearest _ _ isSame⟩
  simp [wholePart, isFiniteToo, Scalar.isNaN_of_isFinite isFiniteToo]

/-- Numbers that count as the same stand for values that do. -/
theorem exists_decode_eq_ok_of_same
    (isSame : Scalar.same value other = true)
    {datum : Datum α}
    (isDatum : decision.decode value = .ok datum) :
    ∃ image, decision.decode other = .ok image ∧ datum.IsSame image := by
  cases isKind : decision.kind with
  | continuous =>
      simp only [decode, isKind, Except.ok.injEq] at isDatum ⊢
      subst isDatum
      exact ⟨_, rfl, isSame⟩
  | integer | binary =>
      simp only [decode, isKind] at isDatum ⊢
      obtain ⟨whole, isWhole, isDatum⟩ := bind_eq_ok isDatum
      cases isDatum
      obtain ⟨image, isImage, isSame⟩ := exists_wholePart_nearest_eq_ok isSame isWhole
      rw [isImage]
      exact ⟨_, rfl, CongruentScalar.same_add _ _ _ _ isSame (Scalar.same_self 0)⟩
  | categorical =>
      simp only [decode, isKind] at isDatum ⊢
      obtain ⟨position, isPosition, isDatum⟩ := bind_eq_ok isDatum
      cases isDatum
      obtain ⟨whole, isWhole, isPosition⟩ := bind_eq_ok isPosition
      cases isPosition
      obtain ⟨image, isImage, isSame⟩ := exists_wholePart_nearest_eq_ok isSame isWhole
      rw [categoryPosition, isImage, Scalar.toRat?_congr isSame]
      exact ⟨_, rfl, rfl⟩

end Variable

/-- Vectors that count as the same stand for values that do. -/
theorem Candidates.exists_decode_eq_ok_of_areSame
    {candidates : Candidates α}
    {vector other : List α}
    (areSame : AreSame vector other)
    {values : Table (Datum α)}
    (areValues : candidates.decode vector = .ok values) :
    ∃ images, candidates.decode other = .ok images ∧ values.Related Datum.IsSame images := by
  obtain ⟨entries, areEntries, areValues⟩ := bind_eq_ok areValues
  cases areValues
  let entryOf (entry : Variable α × α) : Except Breakdown (String × Datum α) := do
    return (entry.1.name, ← entry.1.decode entry.2)
  obtain ⟨images, areImages, areRelated⟩ :
      ∃ images,
        (candidates.problem.decisions.zip other).mapM entryOf = .ok images ∧
          List.Forall₂ (fun entry image => entry.1 = image.1 ∧ entry.2.IsSame image.2) entries
            images := by
    refine exists_mapM_eq_ok_of_forall₂ (forall₂_zip_left areSame candidates.problem.decisions)
      ?_ areEntries
    rintro ⟨decision, value⟩ ⟨same, other⟩ result ⟨isSameVariable, isSame⟩ isResult
    obtain rfl : decision = same := isSameVariable
    obtain ⟨datum, isDatum, isResult⟩ := bind_eq_ok isResult
    cases isResult
    obtain ⟨image, isImage, isSame⟩ := decision.exists_decode_eq_ok_of_same isSame isDatum
    refine ⟨(decision.name, image), ?_, rfl, isSame⟩
    simp [entryOf, isImage, bind, Except.bind, pure, Except.pure]
  refine ⟨Table.ofList images, ?_, Table.related_ofList areRelated⟩
  change ((candidates.problem.decisions.zip other).mapM entryOf >>= _) = _
  rw [areImages]
  rfl

end Decoding

section Distinguishing

/-- Equal tables have equal values. -/
theorem Table.related_of_beq
    {values images : Table (Datum α)}
    (areEqual : (values == images) = true) :
    values.Related (fun datum image => (datum == image) = true) images := by
  refine (beq_iff_forall₂.mp areEqual).imp fun entry image isEqual => ?_
  have ⟨sameName, sameValue⟩ := Bool.and_eq_true_iff.mp isEqual
  exact ⟨eq_of_beq sameName, sameValue⟩

/-- Equal data are encoded as equal numbers, or as one. -/
theorem Variable.eq_or_beq_of_encode_eq_ok
    {decision : Variable α}
    {datum image : Datum α}
    {code codeToo : α}
    (isEqual : (datum == image) = true)
    (isCode : decision.encode datum = .ok code)
    (isCodeToo : decision.encode image = .ok codeToo) :
    code = codeToo ∨ (code == codeToo) = true := by
  cases datum with
  | number value =>
      cases image with
      | number other =>
          cases isCode
          cases isCodeToo
          exact .inr isEqual
      | text other => cases isEqual
  | text value =>
      cases image with
      | number other => cases isEqual
      | text other =>
          obtain rfl : value = other := eq_of_beq (show (value == other) = true from isEqual)
          exact .inl (Except.ok.inj (isCode.symm.trans isCodeToo))

/-- Vectors that stand for equal values are equal. -/
theorem Candidates.beq_of_standsFor
    [NumericScalar α]
    {candidates : Candidates α}
    {vector other : List α}
    {defaultBounds : α × α}
    {values images : Table (Datum α)}
    (standsFor : candidates.StandsFor defaultBounds vector values)
    (standsForToo : candidates.StandsFor defaultBounds other images)
    (areEqual : (values == images) = true) :
    (vector == other) = true := by
  obtain ⟨sameLength, encodes⟩ := forall₂_iff_getElem?.mp standsFor
  obtain ⟨sameLengthToo, encodesToo⟩ := forall₂_iff_getElem?.mp standsForToo
  refine beq_iff_forall₂.mpr (forall₂_iff_getElem?.mpr ⟨sameLength.symm.trans sameLengthToo, ?_⟩)
  intro position value component isValue isComponent
  have inRange : position < candidates.problem.decisions.length :=
    sameLength ▸ (List.getElem?_eq_some_iff.mp isValue).1
  have isDecision := List.getElem?_eq_getElem inRange
  obtain ⟨datum, isDatum, -, code, isCode, isSame⟩ := encodes position _ value isDecision isValue
  obtain ⟨image, isImage, -, codeToo, isCodeToo, isSameToo⟩ :=
    encodesToo position _ component isDecision isComponent
  have isEqual := (Table.related_of_beq areEqual).get? candidates.problem.decisions[position].name
  rw [isDatum, isImage] at isEqual
  cases isEqual with
  | some isEqual =>
      have fromValue : (value == codeToo) = true := by
        have isSame := Scalar.beq_comm_of_beq isSame
        rcases Variable.eq_or_beq_of_encode_eq_ok isEqual isCode isCodeToo with rfl | sameCode
        · exact isSame
        · exact Scalar.beq_trans_of_beq isSame sameCode
      exact Scalar.beq_trans_of_beq fromValue isSameToo

variable [CountingScalar α]

theorem Variable.beq_of_encode_eq_ok
    {decision : Variable α}
    {datum image : Datum α}
    {code codeToo : α}
    (isEqual : (datum == image) = true)
    (isCode : decision.encode datum = .ok code)
    (isCodeToo : decision.encode image = .ok codeToo) :
    (code == codeToo) = true := by
  cases datum with
  | number value =>
      cases image with
      | number other =>
          cases isCode
          cases isCodeToo
          exact isEqual
      | text other => cases isEqual
  | text value =>
      cases image with
      | number other => cases isEqual
      | text other =>
          obtain rfl : value = other := eq_of_beq (show (value == other) = true from isEqual)
          obtain rfl := Except.ok.inj (isCode.symm.trans isCodeToo)
          -- A text is encoded as a position, which is not NaN.
          simp only [encode] at isCode
          split at isCode
          · split at isCode
            · rename_i position _
              cases isCode
              have isSelf := NumericScalar.le_self
                (Scalar.isNaN_of_isFinite (CountingScalar.isFinite_ofInt (α := α) position))
              exact (NumericScalar.beq_iff_le _ _).mpr ⟨isSelf, isSelf⟩
            · cases isCode
          · cases isCode

/-- Vectors of components that the variables have are equal if they stand for equal values. -/
theorem Candidates.beq_of_decode_eq_ok
    {candidates : Candidates α}
    {vector other : List α}
    (distinct : candidates.names.Nodup)
    (faultless : ∀ decision ∈ candidates.problem.decisions, decision.fault? = none)
    (areCodes : candidates.AreCodes vector)
    (areCodesToo : candidates.AreCodes other)
    {values images : Table (Datum α)}
    (areValues : candidates.decode vector = .ok values)
    (areImages : candidates.decode other = .ok images)
    (areEqual : (values == images) = true) :
    (vector == other) = true := by
  have areRelated := Table.related_of_beq areEqual
  obtain ⟨sameLength, encodes⟩ := forall₂_iff_getElem?.mp
    (encodes_of_decode_eq_ok distinct faultless areCodes areValues)
  obtain ⟨sameLengthToo, encodesToo⟩ := forall₂_iff_getElem?.mp
    (encodes_of_decode_eq_ok distinct faultless areCodesToo areImages)
  refine beq_iff_forall₂.mpr (forall₂_iff_getElem?.mpr ⟨sameLength.symm.trans sameLengthToo, ?_⟩)
  intro position value component isValue isComponent
  have inRange : position < candidates.problem.decisions.length :=
    sameLength ▸ (List.getElem?_eq_some_iff.mp isValue).1
  have isDecision := List.getElem?_eq_getElem inRange
  obtain ⟨datum, isDatum, code, isCode, codeIs⟩ := encodes position _ value isDecision isValue
  obtain ⟨image, isImage, codeToo, isCodeToo, codeTooIs⟩ :=
    encodesToo position _ component isDecision isComponent
  have isEqual := areRelated.get? candidates.problem.decisions[position].name
  rw [isDatum, isImage] at isEqual
  cases isEqual with
  | some isEqual =>
      have sameCode := Variable.beq_of_encode_eq_ok isEqual isCode isCodeToo
      have fromValue : (value == codeToo) = true := by
        rcases codeIs with rfl | codeIs
        · exact sameCode
        · exact Scalar.beq_trans_of_beq (Scalar.beq_comm_of_beq codeIs) sameCode
      rcases codeTooIs with rfl | codeTooIs
      · exact fromValue
      · exact Scalar.beq_trans_of_beq fromValue codeTooIs

end Distinguishing

end Optima
