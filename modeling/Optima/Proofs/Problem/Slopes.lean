import Mathlib.Tactic.LinearCombination
import Optima.Problem.Sensitivity
import Optima.Proofs.Expression.Form
import Optima.Proofs.Linear.Meaning
import Optima.Proofs.Problem.Domain

namespace Optima

/-!
# Slopes of linear rules

Moving one name changes the value of a linear rule by a multiple of the move, and the factor is
the coefficient of the name.  So the slope between the ends of a probe is this coefficient,
wherever the probe is cut off at the ends of an interval.
-/

/-!
## Coefficients

The coefficient of a name is that of its linear form.  The coefficient in the cost is made of
those of the objectives in the way in which the cost is made of their values.
-/

namespace LinearForm

variable {α : Type} [Scalar α]

/-- The coefficient of a name, or the sum of them if the name has several entries. -/
def coefficientSum (form : LinearForm α) (name : String) : α :=
  Scalar.total ((form.coefficients.entries.filter fun entry => entry.1 == name).map (·.2))

/-- Moving one name changes a weighted sum by what the coefficients of the name add up to. -/
theorem weigh_sub_weigh
    {entries : List (String × α)}
    {name : String}
    {place moved : String → Rat}
    (othersStay : ∀ other, other ≠ name → moved other = place other) :
    weigh entries moved - weigh entries place =
      (((entries.filter fun entry => entry.1 == name).map (·.2)).map Scalar.fraction).sum
        * (moved name - place name) := by
  induction entries with
  | nil => simp
  | cons entry rest inductionHypothesis =>
      rw [weigh_cons, weigh_cons, add_sub_add_comm, inductionHypothesis]
      by_cases isName : entry.1 = name
      · rw [List.filter_cons_of_pos (by simpa using isName), List.map_cons, List.map_cons,
          List.sum_cons, isName]
        ring
      · rw [List.filter_cons_of_neg (by simpa using isName), othersStay entry.1 isName]
        ring

variable [ArithmeticScalar α]

/-- Moving one name changes a linear form by a multiple of the move. -/
theorem fractionOn_sub_fractionOn
    {form : LinearForm α}
    (isFinite : form.IsFinite)
    {name : String}
    {place moved : String → Rat}
    (othersStay : ∀ other, other ≠ name → moved other = place other) :
    Scalar.isFinite (form.coefficientSum name) = true ∧
      form.fractionOn moved - form.fractionOn place =
        Scalar.fraction (form.coefficientSum name) * (moved name - place name) := by
  have areFinite :
      Scalar.AreFinite
        ((form.coefficients.entries.filter fun entry => entry.1 == name).map (·.2)) := by
    intro value isValue
    obtain ⟨entry, isEntry, rfl⟩ := List.mem_map.mp isValue
    exact isFinite.coefficients _ (List.mem_map_of_mem (List.mem_filter.mp isEntry).1)
  obtain ⟨isFiniteTotal, isTotal⟩ := Scalar.fraction_total areFinite
  refine ⟨isFiniteTotal, ?_⟩
  rw [fractionOn, fractionOn, add_sub_add_left_eq_sub, weigh_sub_weigh othersStay, coefficientSum,
    isTotal]

end LinearForm

namespace Rule

variable {α : Type} [Scalar α]

/-- The coefficient of a name in the linear form of a rule. -/
def coefficientOf (rule : Rule α) (name : String) : α :=
  match rule.linearForm? with
  | .ok (some form) => form.coefficientSum name
  | _ => 0

/-- A rule is written with finite numbers, and a linear form is found for it. -/
def HasForm (rule : Rule α) : Prop :=
  ∃ expression form,
    rule = .expression expression ∧ expression.IsFinite ∧
      expression.linearForm? = .ok (some form)

end Rule

namespace Objectives

variable {α : Type} [Scalar α]

/-- The coefficient of a name in the cost: the cost of its coefficients in place of values. -/
def coefficientOf (objectives : List (Objective α)) (name : String) : α :=
  cost objectives
    (Table.ofList (objectives.map fun objective =>
      (objective.name, objective.rule.coefficientOf name)))

end Objectives

/-!
## Differences of values
-/

namespace Sensitivity

variable {α : Type} [Scalar α]

/-- Two values at a distance from each other differ by a multiple of the distance. -/
structure IsSlope (distance : Rat) (above below slope : α) : Prop where
  isFiniteAbove : Scalar.isFinite above = true
  isFiniteBelow : Scalar.isFinite below = true
  isFinite : Scalar.isFinite slope = true
  difference : Scalar.fraction above - Scalar.fraction below = Scalar.fraction slope * distance

end Sensitivity

section Moving

open Sensitivity

variable {α : Type} [Scalar α] {assignment : Assignment α} {name : String}

theorem Assignment.IsFinite.insert
    (numbersFinite : assignment.IsFinite)
    (name : String)
    {value : α}
    (isFinite : Scalar.isFinite value = true) :
    Assignment.IsFinite (assignment.insert name (.number value)) := by
  intro other number isNumber
  rw [Table.get?_insert] at isNumber
  split at isNumber
  · cases isNumber
    exact isFinite
  · exact numbersFinite other number isNumber

theorem Assignment.place_insert
    (value : α)
    (other : String) :
    Assignment.place (assignment.insert name (.number value)) other =
      if other = name then Scalar.fraction value else assignment.place other := by
  unfold Assignment.place
  rw [Table.get?_insert]
  by_cases isName : other = name <;> simp [isName]

variable [SolvingScalar α]

/-- A rule with a linear form has its coefficients as slopes. -/
theorem Rule.isSlope_coefficientOf
    {rule : Rule α}
    (hasForm : rule.HasForm)
    (numbersFinite : assignment.IsFinite)
    {up down above below : α}
    (isFiniteUp : Scalar.isFinite up = true)
    (isFiniteDown : Scalar.isFinite down = true)
    (isAbove : rule.evaluate (assignment.insert name (.number up)) = .ok above)
    (isBelow : rule.evaluate (assignment.insert name (.number down)) = .ok below) :
    IsSlope (Scalar.fraction up - Scalar.fraction down) above below (rule.coefficientOf name) := by
  obtain ⟨expression, form, rfl, isFinite, isForm⟩ := hasForm
  have isCoefficient :
      (Rule.expression expression).coefficientOf name = form.coefficientSum name := by
    simp [Rule.coefficientOf, Rule.linearForm?, isForm]
  have means {value number : α} (isFiniteNumber : Scalar.isFinite number = true)
      (isValue : expression.evaluate (assignment.insert name (.number number)) = .ok value) :
      Scalar.isFinite value = true ∧ form.IsFinite ∧
        form.fractionOn (Assignment.place (assignment.insert name (.number number))) =
          Scalar.fraction value := by
    have stayFinite := numbersFinite.insert name isFiniteNumber
    obtain ⟨form?, isFound, means⟩ :=
      Expr.finds_linearForm? stayFinite expression isFinite isValue
    obtain rfl := Except.ok.inj (isForm.symm.trans isFound)
    exact ⟨Expr.isFinite_of_evaluate_eq_ok stayFinite expression isFinite isValue, means form rfl⟩
  obtain ⟨isFiniteAbove, isFiniteForm, meansAbove⟩ := means isFiniteUp isAbove
  obtain ⟨isFiniteBelow, -, meansBelow⟩ := means isFiniteDown isBelow
  have othersStay (other : String) (isOther : other ≠ name) :
      Assignment.place (assignment.insert name (.number up)) other =
        Assignment.place (assignment.insert name (.number down)) other := by
    simp [Assignment.place_insert, isOther]
  obtain ⟨isFiniteCoefficient, isDifference⟩ :=
    LinearForm.fractionOn_sub_fractionOn isFiniteForm othersStay
  rw [meansAbove, meansBelow] at isDifference
  rw [isCoefficient]
  exact ⟨isFiniteAbove, isFiniteBelow, isFiniteCoefficient, by
    simpa [Assignment.place_insert] using isDifference⟩

end Moving

namespace Sensitivity

variable {α : Type} [Scalar α] {distance : Rat} {above below slopes : Table α}

/-- The values of two tables differ by multiples of a distance. -/
def AreSlopes (distance : Rat) (above below slopes : Table α) : Prop :=
  ∀ name, IsSlope distance (slopeAt above name) (slopeAt below name) (slopeAt slopes name)

theorem slopeAt_insert
    (table : Table α)
    (name : String)
    (value : α)
    (other : String) :
    slopeAt (table.insert name value) other =
      if other = name then value else slopeAt table other := by
  unfold slopeAt
  rw [Table.get?_insert]
  by_cases isName : other = name <;> simp [isName]

theorem areSlopes_empty
    [ArithmeticScalar α]
    (distance : Rat) :
    AreSlopes distance ({} : Table α) {} {} := by
  intro name
  refine ⟨Scalar.isFinite_zero, Scalar.isFinite_zero, Scalar.isFinite_zero, ?_⟩
  change Scalar.fraction (0 : α) - Scalar.fraction (0 : α) = Scalar.fraction (0 : α) * distance
  simp

theorem AreSlopes.insert
    (areSlopes : AreSlopes distance above below slopes)
    (name : String)
    {valueAbove valueBelow slope : α}
    (isSlope : IsSlope distance valueAbove valueBelow slope) :
    AreSlopes distance (above.insert name valueAbove) (below.insert name valueBelow)
      (slopes.insert name slope) := by
  intro other
  rw [slopeAt_insert, slopeAt_insert, slopeAt_insert]
  by_cases isName : other = name
  · simpa [isName] using isSlope
  · simpa [isName] using areSlopes other

end Sensitivity

namespace Objectives

open Sensitivity

variable {α : Type} [Scalar α] [SolvingScalar α] {objectives : List (Objective α)}
  {distance : Rat} {above below slopes : Table α} {assignment : Assignment α} {name : String}

/-- The cost of finite values is a weighted sum of them. -/
theorem fraction_cost
    {values : Table α}
    (areFinite : ∀ objective ∈ objectives, Scalar.isFinite objective.weight = true)
    (areFiniteToo : ∀ name, Scalar.isFinite (slopeAt values name) = true) :
    Scalar.isFinite (cost objectives values) = true ∧
      Scalar.fraction (cost objectives values) =
        -(objectives.map fun objective =>
          Scalar.fraction (objective.weight * objective.sense)
            * Scalar.fraction (slopeAt values objective.name)).sum := by
  have factorFinite (objective : Objective α) (isObjective : objective ∈ objectives) :=
    (Scalar.fraction_mul (areFinite objective isObjective) objective.isFinite_sense).1
  have termFinite (objective : Objective α) (isObjective : objective ∈ objectives) :=
    Scalar.fraction_mul (factorFinite objective isObjective) (areFiniteToo objective.name)
  have termsFinite :
      Scalar.AreFinite (objectives.map fun objective =>
        objective.weight * objective.sense * valueOf values objective) :=
    List.forall_mem_map.mpr fun objective isObjective => (termFinite objective isObjective).1
  obtain ⟨isFiniteScore, isScore⟩ := Scalar.fraction_total termsFinite
  obtain ⟨isFinite, isCost⟩ := Scalar.fraction_neg isFiniteScore
  refine ⟨isFinite, isCost.trans ?_⟩
  rw [isScore, List.map_map]
  congr 2
  exact List.map_congr_left fun objective isObjective => (termFinite objective isObjective).2

/-- The cost is linear in the values. -/
theorem isSlope_cost
    (areFinite : ∀ objective ∈ objectives, Scalar.isFinite objective.weight = true)
    (areSlopes : AreSlopes distance above below slopes) :
    IsSlope distance (cost objectives above) (cost objectives below) (cost objectives slopes) := by
  obtain ⟨isFiniteAbove, isAbove⟩ :=
    fraction_cost areFinite fun name => (areSlopes name).isFiniteAbove
  obtain ⟨isFiniteBelow, isBelow⟩ :=
    fraction_cost areFinite fun name => (areSlopes name).isFiniteBelow
  obtain ⟨isFinite, isSlope⟩ := fraction_cost areFinite fun name => (areSlopes name).isFinite
  refine ⟨isFiniteAbove, isFiniteBelow, isFinite, ?_⟩
  rw [isAbove, isBelow, isSlope]
  clear isFiniteAbove isAbove isFiniteBelow isBelow isFinite isSlope areFinite
  induction objectives with
  | nil => simp
  | cons objective rest inductionHypothesis =>
      simp only [List.map_cons, List.sum_cons]
      have isHere := (areSlopes objective.name).difference
      linear_combination inductionHypothesis
        - Scalar.fraction (objective.weight * objective.sense) * isHere

/-- The values of objectives with linear forms have their coefficients as slopes. -/
theorem areSlopes_valuesInto
    (haveForms : ∀ objective ∈ objectives, objective.rule.HasForm)
    (numbersFinite : assignment.IsFinite)
    {up down : α}
    (isFiniteUp : Scalar.isFinite up = true)
    (isFiniteDown : Scalar.isFinite down = true)
    {knownAbove knownBelow knownSlopes : Table α}
    (areKnown :
      AreSlopes (Scalar.fraction up - Scalar.fraction down) knownAbove knownBelow knownSlopes)
    (areAbove :
      valuesInto (assignment.insert name (.number up)) knownAbove objectives = .ok above)
    (areBelow :
      valuesInto (assignment.insert name (.number down)) knownBelow objectives = .ok below) :
    AreSlopes (Scalar.fraction up - Scalar.fraction down) above below
      (knownSlopes.insertAll (objectives.map fun objective =>
        (objective.name, objective.rule.coefficientOf name))) := by
  induction objectives generalizing knownAbove knownBelow knownSlopes with
  | nil =>
      cases areAbove
      cases areBelow
      exact areKnown
  | cons objective rest inductionHypothesis =>
      obtain ⟨hasForm, restForms⟩ := List.forall_mem_cons.mp haveForms
      obtain ⟨valueAbove, isAbove, areAbove⟩ := bind_eq_ok areAbove
      obtain ⟨valueBelow, isBelow, areBelow⟩ := bind_eq_ok areBelow
      have isSlope :=
        Rule.isSlope_coefficientOf hasForm numbersFinite isFiniteUp isFiniteDown isAbove isBelow
      exact inductionHypothesis restForms (areKnown.insert objective.name isSlope) areAbove areBelow

/-- The cost of objectives with linear forms has its coefficients as slopes. -/
theorem exists_isSlope_coefficientOf
    (haveForms : ∀ objective ∈ objectives, objective.rule.HasForm)
    (areFinite : ∀ objective ∈ objectives, Scalar.isFinite objective.weight = true)
    (numbersFinite : assignment.IsFinite)
    {up down : α}
    (isFiniteUp : Scalar.isFinite up = true)
    (isFiniteDown : Scalar.isFinite down = true)
    (valuedAbove :
      ∀ objective ∈ objectives,
        ∃ value, objective.evaluate (assignment.insert name (.number up)) = .ok value)
    (valuedBelow :
      ∀ objective ∈ objectives,
        ∃ value, objective.evaluate (assignment.insert name (.number down)) = .ok value) :
    ∃ costAbove costBelow,
      costOf objectives (assignment.insert name (.number up)) = .ok costAbove ∧
        costOf objectives (assignment.insert name (.number down)) = .ok costBelow ∧
        IsSlope (Scalar.fraction up - Scalar.fraction down) costAbove costBelow
          (coefficientOf objectives name) := by
  obtain ⟨above, areAbove⟩ := exists_values_eq_ok valuedAbove
  obtain ⟨below, areBelow⟩ := exists_values_eq_ok valuedBelow
  refine ⟨cost objectives above, cost objectives below, ?_, ?_, ?_⟩
  · rw [costOf, areAbove]
    rfl
  · rw [costOf, areBelow]
    rfl
  · exact isSlope_cost areFinite (areSlopes_valuesInto haveForms numbersFinite isFiniteUp
      isFiniteDown (areSlopes_empty _) areAbove areBelow)

end Objectives

/-!
## Probes

A probe around a number of an interval ends at numbers of the interval.  Where the interval has
a width, so does the probe.
-/

namespace Variable

variable {α : Type} [Scalar α]

/-- Whether the interval of a variable holds more than one number. -/
def isOpen (decision : Variable α) (defaultBounds : α × α) : Bool :=
  match decision.bounds defaultBounds with
  | .ok interval => interval.1 < interval.2
  | .error _ => false

end Variable

namespace Scalar

variable {α : Type} [Scalar α] {first second bound : α}

theorem lt_smaller
    (isBelow : bound < first)
    (isBelowToo : bound < second) :
    bound < smaller first second := by
  unfold smaller
  split <;> assumption

theorem larger_lt
    (isBelow : first < bound)
    (isBelowToo : second < bound) :
    larger first second < bound := by
  unfold larger
  split <;> assumption

variable [SolvingScalar α]

theorem isWhole_add
    (isWhole : IsWhole first)
    (isWholeToo : IsWhole second) :
    IsWhole (first + second) := by
  obtain ⟨whole, isWhole⟩ := isWhole
  obtain ⟨other, isOther⟩ := isWholeToo
  refine ⟨whole + other, (ArithmeticScalar.toRat?_add _ _ _ _ isWhole isOther).trans ?_⟩
  rw [Int.cast_add]

theorem isWhole_sub
    (isWhole : IsWhole first)
    (isWholeToo : IsWhole second) :
    IsWhole (first - second) := by
  obtain ⟨other, isOther⟩ := isWholeToo
  have isOpposite : IsWhole (-second) :=
    ⟨-other, (ArithmeticScalar.toRat?_neg _ _ isOther).trans (by rw [Int.cast_neg])⟩
  rw [SolvingScalar.sub_eq_add_neg]
  exact isWhole_add isWhole isOpposite

end Scalar

namespace Sensitivity

variable {α : Type} [Scalar α] [SolvingScalar α] {decision : Variable α}
  {defaultBounds interval : α × α} {step value : α}

/-- How far a probe reaches to either side if no end of an interval is in its way. -/
def widthOf (decision : Variable α) (step value : α) : α :=
  if decision.isDiscrete then 1 else step * Scalar.larger 1 (Scalar.magnitude value)

/-- A probe reaches a positive distance, and a whole one for a discrete variable. -/
theorem fraction_widthOf_pos
    (decision : Variable α)
    (isFiniteStep : Scalar.isFinite step = true)
    (isPositive : 0 < step)
    (isFinite : Scalar.isFinite value = true) :
    Scalar.isFinite (widthOf decision step value) = true ∧
      0 < Scalar.fraction (widthOf decision step value) ∧
      (decision.isDiscrete = true → Scalar.IsWhole (widthOf decision step value)) := by
  unfold widthOf
  split
  · refine ⟨Scalar.isFinite_one, ?_, fun _ => Scalar.isWhole_one⟩
    rw [Scalar.fraction_one]
    exact zero_lt_one
  · rename_i notDiscrete
    have isFiniteMagnitude := (Scalar.fraction_magnitude isFinite).1
    have isFiniteLarger :
        Scalar.isFinite (Scalar.larger 1 (Scalar.magnitude value)) = true := by
      unfold Scalar.larger
      split
      · exact isFiniteMagnitude
      · exact Scalar.isFinite_one
    have atLeastOne : 1 ≤ Scalar.fraction (Scalar.larger 1 (Scalar.magnitude value)) := by
      rw [← Scalar.fraction_one (α := α), ← Scalar.le_iff_of_toRat?
        (Scalar.toRat?_eq_some_fraction Scalar.isFinite_one)
        (Scalar.toRat?_eq_some_fraction isFiniteLarger)]
      exact Scalar.le_larger_left _ _
    rw [Scalar.lt_iff_fraction_lt Scalar.isFinite_zero isFiniteStep, Scalar.fraction_zero]
      at isPositive
    obtain ⟨isFiniteWidth, isWidth⟩ := Scalar.fraction_mul isFiniteStep isFiniteLarger
    refine ⟨isFiniteWidth, ?_, fun isDiscrete => absurd isDiscrete notDiscrete⟩
    rw [isWidth]
    exact mul_pos isPositive (zero_lt_one.trans_le atLeastOne)

/-- A probe around a number of an interval ends at numbers of the interval, and it has a width just
where the interval has one. -/
theorem isGene_probe
    (isFiniteStep : Scalar.isFinite step = true)
    (isPositive : 0 < step)
    (isFinite : Scalar.isFinite value = true)
    (isWholeInterval :
      decision.isDiscrete = true → Scalar.IsWhole interval.1 ∧ Scalar.IsWhole interval.2)
    (isGene : decision.IsGene interval value)
    {up down : α}
    (isProbe : probe decision step value interval = (up, down)) :
    (Scalar.isFinite up = true ∧ decision.IsGene interval up) ∧
      (Scalar.isFinite down = true ∧ decision.IsGene interval down) ∧
      (interval.1 < interval.2 → down < up) ∧ (¬ interval.1 < interval.2 → up ≤ down) := by
  obtain ⟨isFiniteWidth, isPositiveWidth, isWholeWidth⟩ :=
    fraction_widthOf_pos decision isFiniteStep isPositive isFinite
  obtain ⟨rfl, rfl⟩ := Prod.mk.inj isProbe
  rw [← widthOf]
  generalize widthOf decision step value = width at isFiniteWidth isPositiveWidth isWholeWidth
  obtain ⟨isFiniteSum, isSum⟩ := Scalar.fraction_add isFinite isFiniteWidth
  obtain ⟨isFiniteDifference, isDifference⟩ := Scalar.fraction_sub isFinite isFiniteWidth
  have isAbove : value < value + width := by
    rw [Scalar.lt_iff_fraction_lt isFinite isFiniteSum, isSum]
    exact lt_add_of_pos_right _ isPositiveWidth
  have isBelow : value - width < value := by
    rw [Scalar.lt_iff_fraction_lt isFiniteDifference isFinite, isDifference]
    exact sub_lt_self _ isPositiveWidth
  have fromValue : value ≤ Scalar.smaller (value + width) interval.2 :=
    Scalar.le_smaller_iff.mpr ⟨isAbove.le, isGene.le_upper⟩
  have toValue : Scalar.larger (value - width) interval.1 ≤ value :=
    Scalar.larger_le_iff.mpr ⟨isBelow.le, isGene.lower_le⟩
  refine ⟨⟨?_, isGene.lower_le.trans fromValue, Scalar.smaller_le_right _ _, fun isDiscrete => ?_⟩,
    ⟨?_, Scalar.le_larger_right _ _, toValue.trans isGene.le_upper, fun isDiscrete => ?_⟩,
    fun isOpen => ?_, fun notOpen => ?_⟩
  · exact FractionalScalar.isFinite_between _ _ _ fromValue (Scalar.smaller_le_left _ _) isFinite
      isFiniteSum
  · unfold Scalar.smaller
    split
    · exact (isWholeInterval isDiscrete).2
    · exact Scalar.isWhole_add (isGene.isWhole isDiscrete) (isWholeWidth isDiscrete)
  · exact FractionalScalar.isFinite_between _ _ _ (Scalar.le_larger_left _ _) toValue
      isFiniteDifference isFinite
  · unfold Scalar.larger
    split
    · exact (isWholeInterval isDiscrete).1
    · exact Scalar.isWhole_sub (isGene.isWhole isDiscrete) (isWholeWidth isDiscrete)
  · by_cases hasRoom : value < interval.2
    · exact toValue.trans_lt (Scalar.lt_smaller isAbove hasRoom)
    · have isLower : interval.1 < value := isOpen.trans_le (not_lt.mp hasRoom)
      exact (Scalar.larger_lt isBelow isLower).trans_le fromValue
  · calc Scalar.smaller (value + width) interval.2
        ≤ interval.2 := Scalar.smaller_le_right _ _
      _ ≤ interval.1 := not_lt.mp notOpen
      _ ≤ Scalar.larger (value - width) interval.1 := Scalar.le_larger_right _ _

end Sensitivity

/-!
## Gradients

The gradient of a function that has slopes along all variables is the table of them, with zero
for each variable that cannot be moved.
-/

namespace Sensitivity

variable {α : Type} [Scalar α]

/-- Moving a variable within an interval changes the value of a function by a multiple of the
move. -/
def HasSlope (function : Assignment α → Except (EvalFailure α) α) (assignment : Assignment α)
    (interval : α × α) (decision : Variable α) (slope : α) : Prop :=
  ∀ up down,
    Scalar.isFinite up = true → decision.IsGene interval up →
      Scalar.isFinite down = true → decision.IsGene interval down →
        ∃ above below,
          function (assignment.insert decision.name (.number up)) = .ok above ∧
            function (assignment.insert decision.name (.number down)) = .ok below ∧
            IsSlope (Scalar.fraction up - Scalar.fraction down) above below slope

/-- A variable that counts is assigned a finite number of its interval. -/
structure IsPlaced (defaultBounds : α × α) (assignment : Assignment α) (decision : Variable α)
    (interval : α × α) (value : α) : Prop where
  isNumeric : decision.kind ≠ .categorical
  isInterval : decision.bounds defaultBounds = .ok interval
  isWhole : decision.isDiscrete = true → Scalar.IsWhole interval.1 ∧ Scalar.IsWhole interval.2
  isBound : assignment.get? decision.name = some (.number value)
  isFinite : Scalar.isFinite value = true
  isGene : decision.IsGene interval value

/-- A function has slopes along variables that are all assigned. -/
def HaveSlopes (function : Assignment α → Except (EvalFailure α) α) (assignment : Assignment α)
    (defaultBounds : α × α) (coefficientOf : String → α) (decisions : List (Variable α)) : Prop :=
  ∀ decision ∈ decisions, ∃ interval value,
    IsPlaced defaultBounds assignment decision interval value ∧
      HasSlope function assignment interval decision (coefficientOf decision.name)

/-- The slope along a variable: its coefficient where it can be moved, and zero elsewhere. -/
def slopeOf (coefficientOf : String → α) (defaultBounds : α × α) (decision : Variable α) : α :=
  if decision.isOpen defaultBounds then coefficientOf decision.name else 0

/-- The slopes along variables, by name. -/
def slopesOf (coefficientOf : String → α) (defaultBounds : α × α) (decisions : List (Variable α)) :
    Table α :=
  Table.ofList (decisions.map fun decision =>
    (decision.name, slopeOf coefficientOf defaultBounds decision))

variable [SolvingScalar α] {function : Assignment α → Except (EvalFailure α) α}
  {assignment : Assignment α} {defaultBounds : α × α} {step : α}

/-- The difference quotient of two values is the slope between them. -/
theorem IsSlope.quotient_eq
    {up down above below slope : α}
    (isSlope : IsSlope (Scalar.fraction up - Scalar.fraction down) above below slope)
    (isFiniteUp : Scalar.isFinite up = true)
    (isFiniteDown : Scalar.isFinite down = true)
    (isApart : down < up) :
    (above - below) / (up - down) = slope := by
  obtain ⟨isFiniteAbove, isFiniteBelow, isFinite, difference⟩ := isSlope
  obtain ⟨isFiniteRise, isRise⟩ := Scalar.fraction_sub isFiniteAbove isFiniteBelow
  obtain ⟨isFiniteWidth, isWidth⟩ := Scalar.fraction_sub isFiniteUp isFiniteDown
  rw [Scalar.lt_iff_fraction_lt isFiniteDown isFiniteUp] at isApart
  have notZero : Scalar.fraction (up - down) ≠ 0 := by
    rw [isWidth]
    exact (sub_pos.mpr isApart).ne'
  obtain ⟨isFiniteQuotient, isQuotient⟩ :=
    Scalar.fraction_div isFiniteRise isFiniteWidth notZero
  apply Scalar.eq_of_fraction_eq isFiniteQuotient isFinite
  rw [isQuotient, isRise, difference, ← isWidth, mul_div_cancel_right₀ _ notZero]

/-- The slope that is found along a variable is the one that a function has. -/
theorem slope_eq_ok
    (isFiniteStep : Scalar.isFinite step = true)
    (isPositive : 0 < step)
    {decision : Variable α}
    {interval : α × α}
    {value : α}
    (isPlaced : IsPlaced defaultBounds assignment decision interval value)
    {coefficientOf : String → α}
    (hasSlope : HasSlope function assignment interval decision (coefficientOf decision.name)) :
    slope function assignment defaultBounds step decision =
      .ok (slopeOf coefficientOf defaultBounds decision) := by
  obtain ⟨isNumeric, isInterval, isWhole, isBound, isFinite, isGene⟩ := isPlaced
  have isNumber : numberAt assignment decision.name = .ok value := by
    simp [numberAt, isBound]
  have isOpen_eq : decision.isOpen defaultBounds = decide (interval.1 < interval.2) := by
    simp [Variable.isOpen, isInterval]
  obtain ⟨⟨up, down⟩, isProbe⟩ : ∃ ends, probe decision step value interval = ends := ⟨_, rfl⟩
  obtain ⟨⟨isFiniteUp, isGeneUp⟩, ⟨isFiniteDown, isGeneDown⟩, isWide, isNarrow⟩ :=
    isGene_probe isFiniteStep isPositive isFinite isWhole isGene isProbe
  unfold slope slopeOf
  rw [if_neg isNumeric, isInterval, isNumber, isOpen_eq]
  simp only [bind, Except.bind, isProbe]
  by_cases isOpen : interval.1 < interval.2
  · have isApart := isWide isOpen
    obtain ⟨above, below, isAbove, isBelow, isSlope⟩ :=
      hasSlope up down isFiniteUp isGeneUp isFiniteDown isGeneDown
    rw [if_neg (not_le.mpr isApart), isAbove, isBelow, if_pos (decide_eq_true isOpen)]
    exact congrArg Except.ok (isSlope.quotient_eq isFiniteUp isFiniteDown isApart)
  · rw [if_pos (isNarrow isOpen), if_neg (by simpa using isOpen)]
    rfl

/-- The gradient that is found is the table of slopes. -/
theorem gradientInto_eq_ok
    (isFiniteStep : Scalar.isFinite step = true)
    (isPositive : 0 < step)
    {coefficientOf : String → α}
    {decisions : List (Variable α)}
    (haveSlopes : HaveSlopes function assignment defaultBounds coefficientOf decisions)
    (known : Table α) :
    gradientInto function assignment defaultBounds step known decisions =
      .ok (known.insertAll (decisions.map fun decision =>
        (decision.name, slopeOf coefficientOf defaultBounds decision))) := by
  induction decisions generalizing known with
  | nil => rfl
  | cons decision rest inductionHypothesis =>
      obtain ⟨⟨interval, value, isPlaced, hasSlope⟩, restSlopes⟩ :=
        List.forall_mem_cons.mp haveSlopes
      rw [gradientInto, slope_eq_ok isFiniteStep isPositive isPlaced hasSlope]
      exact inductionHypothesis restSlopes _

/-- Slopes are finite. -/
theorem areFinite_slopesOf
    {coefficientOf : String → α}
    {decisions : List (Variable α)}
    (haveSlopes : HaveSlopes function assignment defaultBounds coefficientOf decisions) :
    Scalar.AreFinite (slopesOf coefficientOf defaultBounds decisions).values := by
  intro slope isSlope
  obtain ⟨entry, isEntry, rfl⟩ := List.mem_map.mp isSlope
  obtain ⟨decision, isDecision, rfl⟩ :=
    List.mem_map.mp (Table.mem_of_mem_entries_ofList isEntry)
  obtain ⟨interval, value, isPlaced, hasSlope⟩ := haveSlopes decision isDecision
  obtain ⟨_, _, -, -, isSlope⟩ :=
    hasSlope value value isPlaced.isFinite isPlaced.isGene isPlaced.isFinite isPlaced.isGene
  dsimp only [slopeOf]
  split
  · exact isSlope.isFinite
  · exact Scalar.isFinite_zero

end Sensitivity

/-!
## Linear problems

A problem is linear around an assignment within its bounds if its rules have linear forms, and
values wherever one variable is moved within its interval.
-/

/-- The objectives and constraints of a problem have linear forms and can be evaluated at an
assignment, and wherever one variable is moved to another number of its interval. -/
structure Problem.IsLinearAround {α : Type} [Scalar α] (problem : Problem α)
    (defaultBounds : α × α) (assignment : Assignment α) : Prop where
  isNumeric : ∀ decision ∈ problem.decisions, decision.kind ≠ .categorical
  faultless : ∀ decision ∈ problem.decisions, decision.fault? = none
  objectives : ∀ objective ∈ problem.objectives, objective.rule.HasForm
  areFinite : ∀ objective ∈ problem.objectives, Scalar.isFinite objective.weight = true
  constraints : ∀ constraint ∈ problem.constraints, constraint.rule.HasForm
  numbersFinite : assignment.IsFinite
  isWithin :
    ∀ decision ∈ problem.decisions, ∃ interval value,
      decision.bounds defaultBounds = .ok interval ∧
        assignment.get? decision.name = some (.number value) ∧ decision.IsGene interval value
  isValued : problem.IsValuedOn assignment
  isValuedBeside :
    ∀ decision ∈ problem.decisions, ∀ interval value,
      decision.bounds defaultBounds = .ok interval →
        Scalar.isFinite value = true → decision.IsGene interval value →
          problem.IsValuedOn (assignment.insert decision.name (.number value))

namespace Problem.IsLinearAround

open Sensitivity

variable {α : Type} [Scalar α] [SolvingScalar α] {problem : Problem α} {defaultBounds : α × α}
  {assignment : Assignment α}

theorem exists_isPlaced
    (isLinear : problem.IsLinearAround defaultBounds assignment)
    {decision : Variable α}
    (isDecision : decision ∈ problem.decisions) :
    ∃ interval value, IsPlaced defaultBounds assignment decision interval value := by
  obtain ⟨interval, value, isInterval, isBound, isGene⟩ := isLinear.isWithin decision isDecision
  have isNumeric := isLinear.isNumeric decision isDecision
  have isTightened :=
    Variable.isTightened_bounds (isLinear.faultless decision isDecision) isInterval
  exact ⟨interval, value, isNumeric, isInterval,
    fun isDiscrete => isTightened.isWhole isDiscrete isNumeric, isBound,
    isLinear.numbersFinite _ _ isBound, isGene⟩

/-- The cost has its coefficients as slopes. -/
theorem haveSlopes_costOf
    (isLinear : problem.IsLinearAround defaultBounds assignment) :
    HaveSlopes (Objectives.costOf problem.objectives) assignment defaultBounds
      (Objectives.coefficientOf problem.objectives) problem.decisions := by
  intro decision isDecision
  obtain ⟨interval, value, isPlaced⟩ := isLinear.exists_isPlaced isDecision
  refine ⟨interval, value, isPlaced, ?_⟩
  intro up down isFiniteUp isGeneUp isFiniteDown isGeneDown
  have valuedAt (number : α) :=
    isLinear.isValuedBeside decision isDecision interval number isPlaced.isInterval
  exact Objectives.exists_isSlope_coefficientOf isLinear.objectives isLinear.areFinite
    isLinear.numbersFinite isFiniteUp isFiniteDown (valuedAt up isFiniteUp isGeneUp).objectives
    (valuedAt down isFiniteDown isGeneDown).objectives

/-- A constraint has the coefficients of its rule as slopes. -/
theorem haveSlopes_evaluate
    (isLinear : problem.IsLinearAround defaultBounds assignment)
    {constraint : Constraint α}
    (isConstraint : constraint ∈ problem.constraints) :
    HaveSlopes (fun other => constraint.evaluate other) assignment defaultBounds
      constraint.rule.coefficientOf problem.decisions := by
  intro decision isDecision
  obtain ⟨interval, value, isPlaced⟩ := isLinear.exists_isPlaced isDecision
  refine ⟨interval, value, isPlaced, ?_⟩
  intro up down isFiniteUp isGeneUp isFiniteDown isGeneDown
  have valuedAt (number : α) :=
    isLinear.isValuedBeside decision isDecision interval number isPlaced.isInterval
  obtain ⟨above, isAbove⟩ :=
    (valuedAt up isFiniteUp isGeneUp).constraints constraint isConstraint
  obtain ⟨below, isBelow⟩ :=
    (valuedAt down isFiniteDown isGeneDown).constraints constraint isConstraint
  exact ⟨above, below, isAbove, isBelow,
    Rule.isSlope_coefficientOf (isLinear.constraints constraint isConstraint)
      isLinear.numbersFinite isFiniteUp isFiniteDown isAbove isBelow⟩

end Problem.IsLinearAround

end Optima
