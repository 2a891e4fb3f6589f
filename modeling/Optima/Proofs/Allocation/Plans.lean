import Optima.Proofs.Allocation.Program

namespace Optima

/-!
# Plans and the program of an allocation

A plan says what each supplier gives to each demand and how much of each demand stays
unmet.  Where no two quantities share a name, the numbers that the program allows are the
plans that serve all demands within the capacities, each exactly once, and the total cost is
what such a plan costs.  Where all capacity together falls short there is no such plan.
-/

namespace Allocation

section Places

variable {α : Type} {allocation : Allocation α}

/-- A place in a plan. -/
inductive Place (allocation : Allocation α) where
  | given (supplier : Fin allocation.suppliers.length)
    (requisition : Fin allocation.requisitions.length)
  | unmet (requisition : Fin allocation.requisitions.length)

namespace Place

/-- The name of the quantity at a place. -/
def name : allocation.Place → String
  | given supplier requisition =>
    quantityName allocation.suppliers[supplier].identifier
      allocation.requisitions[requisition].identifier
  | unmet requisition => unmetName allocation.requisitions[requisition].identifier

/-- A place is open unless it is for what stays unmet where that is not allowed. -/
def IsOpen : allocation.Place → Prop
  | given _ _ => True
  | unmet _ => allocation.penalty.isSome = true

/-- Where no two items share a key, a position is told by the key of its item. -/
theorem eq_of_key_eq
    {β : Type}
    {key : β → String}
    {items : List β}
    (distinct : (items.map key).Nodup)
    {position other : Fin items.length}
    (sameKey : key items[position] = key items[other]) :
    position = other := by
  have sameImage :
      (items.map key).get (position.cast (List.length_map key).symm) =
        (items.map key).get (other.cast (List.length_map key).symm) := by
    simpa using sameKey
  exact Fin.cast_injective _ (List.nodup_iff_injective_get.mp distinct sameImage)

/-- Where no two quantities share a name, a place is told by its name. -/
theorem name_injective
    (wellNamed : allocation.IsWellNamed) :
    Function.Injective (name : allocation.Place → String) := by
  intro place other sameName
  cases place with
  | given supplier requisition =>
      cases other with
      | given otherSupplier otherRequisition =>
          have sameCell :=
            List.inj_on_of_nodup_map wellNamed.quantities
              (mem_combinations.mpr
                ⟨List.getElem_mem supplier.2, List.getElem_mem requisition.2⟩)
              (mem_combinations.mpr
                ⟨List.getElem_mem otherSupplier.2, List.getElem_mem otherRequisition.2⟩) sameName
          obtain ⟨sameSupplier, sameRequisition⟩ := Prod.mk.inj sameCell
          obtain rfl := eq_of_key_eq wellNamed.suppliers (congrArg (·.identifier) sameSupplier)
          obtain rfl :=
            eq_of_key_eq wellNamed.requisitions (congrArg (·.identifier) sameRequisition)
          rfl
      | unmet otherRequisition =>
          exact (quantityName_ne_unmetName _ _ _ sameName).elim
  | unmet requisition =>
      cases other with
      | given otherSupplier otherRequisition =>
          exact (quantityName_ne_unmetName _ _ _ sameName.symm).elim
      | unmet otherRequisition =>
          rw [eq_of_key_eq wellNamed.requisitions (unmetName_injective sameName)]

end Place

/-- A unit at a place costs what its supplier asks for, or the penalty where it stays unmet. -/
theorem exists_place_of_mem_costs
    (wellNamed : allocation.IsWellNamed)
    {term : String × α}
    (member : term ∈ allocation.costs.entries) :
    ∃ place : allocation.Place,
      place.IsOpen ∧ place.name = term.1 ∧
        ((∃ supplier ∈ allocation.suppliers, supplier.unitCost = term.2) ∨
          allocation.penalty = some term.2) := by
  rw [entries_costs wellNamed] at member
  rcases List.mem_append.mp member with isGiven | isUnmet
  · obtain ⟨⟨supplier, requisition⟩, isCell, rfl⟩ := List.mem_map.mp isGiven
    obtain ⟨isSupplier, isRequisition⟩ := mem_combinations.mp isCell
    obtain ⟨position, isPosition, rfl⟩ := List.getElem_of_mem isSupplier
    obtain ⟨other, isOther, rfl⟩ := List.getElem_of_mem isRequisition
    exact ⟨.given ⟨position, isPosition⟩ ⟨other, isOther⟩, trivial, rfl, .inl ⟨_, isSupplier, rfl⟩⟩
  · cases isPenalty : allocation.penalty with
    | none =>
        rw [isPenalty] at isUnmet
        cases isUnmet
    | some penalty =>
        rw [isPenalty] at isUnmet
        obtain ⟨requisition, isRequisition, rfl⟩ := List.mem_map.mp isUnmet
        obtain ⟨position, isPosition, rfl⟩ := List.getElem_of_mem isRequisition
        refine ⟨.unmet ⟨position, isPosition⟩, ?_, rfl, .inr rfl⟩
        exact (congrArg Option.isSome isPenalty).trans rfl

end Places

end Allocation

variable {α : Type} [Scalar α]

namespace Allocation

variable {allocation : Allocation α}

/-- What each supplier gives to each demand, and how much of each demand stays unmet. -/
@[ext]
structure Plan (allocation : Allocation α) where
  given : Fin allocation.suppliers.length → Fin allocation.requisitions.length → α
  unmet : Fin allocation.requisitions.length → α

/-- The plan that numbers tell; nothing stays unmet where that is not allowed. -/
def planOf (allocation : Allocation α) (numbers : String → α) : allocation.Plan where
  given supplier requisition := numbers (Place.given supplier requisition).name
  unmet requisition :=
    if allocation.penalty.isSome then numbers (Place.unmet requisition).name else 0

theorem unmet_planOf
    (numbers : String → α)
    (requisition : Fin allocation.requisitions.length)
    (mayStay : allocation.penalty.isSome = true) :
    (allocation.planOf numbers).unmet requisition = numbers (Place.unmet requisition).name :=
  if_pos mayStay

/-- The largest quantity that may be at a place: a supplier without a skill gives nothing. -/
def Place.limit : allocation.Place → Option α
  | given supplier requisition =>
    if allocation.requisitions[requisition].accepts allocation.suppliers[supplier] then none
    else some 0
  | unmet _ => none

namespace Plan

/-- The quantity at a place of a plan. -/
def quantityAt (plan : allocation.Plan) : allocation.Place → α
  | .given supplier requisition => plan.given supplier requisition
  | .unmet requisition => plan.unmet requisition

/-- The numbers that tell a plan. -/
noncomputable def numbers (plan : allocation.Plan) : String → α :=
  Function.extend Place.name plan.quantityAt fun _ => 0

/-- The numbers that tell a plan are found under the names of its places. -/
theorem numbers_name
    (wellNamed : allocation.IsWellNamed)
    (plan : allocation.Plan)
    (place : allocation.Place) :
    plan.numbers place.name = plan.quantityAt place :=
  (Place.name_injective wellNamed).extend_apply _ _ place

variable [ArithmeticScalar α]

/-- A plan serves all demands: suppliers without a skill that is asked for give nothing, none
gives more than its capacity, and each demand gets its quantity except for what stays unmet. -/
structure Serves (plan : allocation.Plan) : Prop where
  finite_given : ∀ supplier requisition, Scalar.isFinite (plan.given supplier requisition) = true
  finite_unmet : ∀ requisition, Scalar.isFinite (plan.unmet requisition) = true
  given_nonneg : ∀ supplier requisition, 0 ≤ plan.given supplier requisition
  unmet_nonneg : ∀ requisition, 0 ≤ plan.unmet requisition
  given_eq_zero : ∀ supplier requisition,
    allocation.requisitions[requisition].accepts allocation.suppliers[supplier] = false →
      plan.given supplier requisition = 0
  unmet_eq_zero : allocation.penalty = none → ∀ requisition, plan.unmet requisition = 0
  within_capacity : ∀ supplier,
    ∑ requisition, plan.given supplier requisition ≤ allocation.suppliers[supplier].capacity
  meets_quantity : ∀ requisition,
    ∑ supplier, plan.given supplier requisition + plan.unmet requisition =
      allocation.requisitions[requisition].quantity

/-- The cost of a plan: that of each unit given, and the penalty on each unit that stays unmet. -/
def cost (plan : allocation.Plan) : α :=
  ∑ supplier, ∑ requisition,
      allocation.suppliers[supplier].unitCost * plan.given supplier requisition
    + match allocation.penalty with
      | none => 0
      | some penalty => ∑ requisition, penalty * plan.unmet requisition

end Plan

/-- The limits of the program are those of the open places. -/
theorem mem_limits_iff
    {entry : String × Option α} :
    entry ∈ allocation.limits ↔
      ∃ place : allocation.Place, place.IsOpen ∧ entry = (place.name, place.limit) := by
  constructor
  · intro member
    rcases List.mem_append.mp member with isGiven | isUnmet
    · obtain ⟨⟨supplier, requisition⟩, isCell, rfl⟩ := List.mem_map.mp isGiven
      obtain ⟨isSupplier, isRequisition⟩ := mem_combinations.mp isCell
      obtain ⟨position, isPosition, rfl⟩ := List.getElem_of_mem isSupplier
      obtain ⟨other, isOther, rfl⟩ := List.getElem_of_mem isRequisition
      exact ⟨.given ⟨position, isPosition⟩ ⟨other, isOther⟩, trivial, rfl⟩
    · unfold unmetLimits at isUnmet
      split at isUnmet
      · rename_i mayStay
        obtain ⟨requisition, isRequisition, rfl⟩ := List.mem_map.mp isUnmet
        obtain ⟨position, isPosition, rfl⟩ := List.getElem_of_mem isRequisition
        exact ⟨.unmet ⟨position, isPosition⟩, mayStay, rfl⟩
      · cases isUnmet
  · rintro ⟨place, isOpen, rfl⟩
    cases place with
    | given supplier requisition =>
        apply List.mem_append_left
        exact List.mem_map.mpr ⟨_, mem_combinations.mpr
          ⟨List.getElem_mem supplier.2, List.getElem_mem requisition.2⟩, rfl⟩
    | unmet requisition =>
        apply List.mem_append_right
        rw [unmetLimits, if_pos (show allocation.penalty.isSome = true from isOpen)]
        exact List.mem_map.mpr ⟨_, List.getElem_mem requisition.2, rfl⟩

/-- The columns and rows of a program are those of an allocation. -/
structure IsProgram (allocation : Allocation α) (program : LinearProgram α) : Prop where
  columns :
    program.columns.entries =
      allocation.limits.map fun (name, upper) => (name, ⟨some 0, upper, false⟩)
  rows :
    program.rows = allocation.suppliers.map allocation.cap
      ++ allocation.requisitions.map allocation.ask

namespace IsProgram

variable {program : LinearProgram α}

/-- There is a column for each open place. -/
theorem mem_columns_iff
    (isProgram : allocation.IsProgram program)
    {entry : String × Column α} :
    entry ∈ program.columns.entries ↔
      ∃ place : allocation.Place,
        place.IsOpen ∧ entry = (place.name, ⟨some 0, place.limit, false⟩) := by
  rw [isProgram.columns, List.mem_map]
  constructor
  · rintro ⟨limit, isLimit, rfl⟩
    obtain ⟨place, isOpen, rfl⟩ := mem_limits_iff.mp isLimit
    exact ⟨place, isOpen, rfl⟩
  · rintro ⟨place, isOpen, rfl⟩
    exact ⟨_, mem_limits_iff.mpr ⟨place, isOpen, rfl⟩, rfl⟩

theorem mem_names_iff
    (isProgram : allocation.IsProgram program)
    {name : String} :
    name ∈ program.columns.names ↔
      ∃ place : allocation.Place, place.IsOpen ∧ place.name = name := by
  rw [Table.names, List.mem_map]
  constructor
  · rintro ⟨entry, member, rfl⟩
    obtain ⟨place, isOpen, rfl⟩ := isProgram.mem_columns_iff.mp member
    exact ⟨place, isOpen, rfl⟩
  · rintro ⟨place, isOpen, rfl⟩
    exact ⟨_, isProgram.mem_columns_iff.mpr ⟨place, isOpen, rfl⟩, rfl⟩

end IsProgram

/-- The names of the open places are columns. -/
theorem contains_of_mem_limits
    (wellNamed : allocation.IsWellNamed)
    (fresh : Nat → String) :
    ∀ name ∈ allocation.limits.map (·.1),
      (LinearProgram.columnsOf (allocation.decisions fresh)).contains name = true := by
  intro name member
  rw [Table.contains_iff_mem_names, names_columnsOf_decisions wellNamed, ← names_limits]
  exact member

/-- An assignment that binds the open places to numbers. -/
theorem exists_assignment_binds
    {numbers : String → α}
    (areFinite : ∀ place : allocation.Place,
      place.IsOpen → Scalar.isFinite (numbers place.name) = true) :
    ∃ assignment : Assignment α, assignment.Binds numbers (allocation.limits.map (·.1)) := by
  apply Assignment.exists_binds
  intro name member
  obtain ⟨limit, isLimit, rfl⟩ := List.mem_map.mp member
  obtain ⟨place, isOpen, rfl⟩ := mem_limits_iff.mp isLimit
  exact areFinite place isOpen

section Rows

variable [ArithmeticScalar α] {numbers : String → α}

/-- What a supplier gives is what its row in a plan adds up to. -/
theorem sum_namesOfSupplier
    (supplier : Fin allocation.suppliers.length) :
    ((allocation.namesOfSupplier allocation.suppliers[supplier]).map numbers).sum =
      ∑ requisition, (allocation.planOf numbers).given supplier requisition := by
  rw [namesOfSupplier, List.map_map]
  exact (Fin.sum_univ_fun_getElem allocation.requisitions _).symm

/-- What a demand gets and what is left of it is what its column in a plan adds up to. -/
theorem sum_namesOfRequisition
    (requisition : Fin allocation.requisitions.length) :
    ((allocation.namesOfRequisition allocation.requisitions[requisition]).map numbers).sum =
      ∑ supplier, (allocation.planOf numbers).given supplier requisition
        + (allocation.planOf numbers).unmet requisition := by
  rw [namesOfRequisition, List.map_append, List.sum_append, List.map_map]
  congr 1
  · exact (Fin.sum_univ_fun_getElem allocation.suppliers _).symm
  · unfold planOf
    split
    · simp [Place.name]
    · rfl

/-- The row of a supplier holds where the plan is within its capacity. -/
theorem cap_holds_iff
    (supplier : Fin allocation.suppliers.length)
    (areFinite : ∀ requisition,
      Scalar.isFinite ((allocation.planOf numbers).given supplier requisition) = true) :
    (allocation.cap allocation.suppliers[supplier]).Holds numbers ↔
      ∑ requisition, (allocation.planOf numbers).given supplier requisition ≤
        allocation.suppliers[supplier].capacity := by
  have namesFinite :
      ∀ name ∈ allocation.namesOfSupplier allocation.suppliers[supplier],
        Scalar.isFinite (numbers name) = true := by
    intro name member
    obtain ⟨requisition, isRequisition, rfl⟩ := List.mem_map.mp member
    obtain ⟨position, isPosition, rfl⟩ := List.getElem_of_mem isRequisition
    exact areFinite ⟨position, isPosition⟩
  rw [← sum_namesOfSupplier, ← valueOn_sumForm namesFinite]
  rfl

/-- The row of a demand holds where the plan meets its quantity. -/
theorem ask_holds_iff
    (requisition : Fin allocation.requisitions.length)
    (areFinite : ∀ supplier,
      Scalar.isFinite ((allocation.planOf numbers).given supplier requisition) = true)
    (isFinite : Scalar.isFinite ((allocation.planOf numbers).unmet requisition) = true) :
    (allocation.ask allocation.requisitions[requisition]).Holds numbers ↔
      ∑ supplier, (allocation.planOf numbers).given supplier requisition
          + (allocation.planOf numbers).unmet requisition =
        allocation.requisitions[requisition].quantity := by
  have namesFinite :
      ∀ name ∈ allocation.namesOfRequisition allocation.requisitions[requisition],
        Scalar.isFinite (numbers name) = true := by
    intro name member
    rcases List.mem_append.mp member with isGiven | isUnmet
    · obtain ⟨supplier, isSupplier, rfl⟩ := List.mem_map.mp isGiven
      obtain ⟨position, isPosition, rfl⟩ := List.getElem_of_mem isSupplier
      exact areFinite ⟨position, isPosition⟩
    · split at isUnmet
      · rename_i mayStay
        rw [unmet_planOf numbers requisition mayStay] at isFinite
        rw [List.mem_singleton.mp isUnmet]
        exact isFinite
      · cases isUnmet
  rw [← sum_namesOfRequisition, ← valueOn_sumForm namesFinite]
  rfl

end Rows

namespace IsProgram

variable [ArithmeticScalar α] {program : LinearProgram α} {numbers : String → α}

/-- Numbers that the program allows tell a plan that serves all demands. -/
theorem serves_planOf
    (isProgram : allocation.IsProgram program)
    (isFeasible : program.IsFeasible numbers) :
    (allocation.planOf numbers).Serves := by
  have admits (place : allocation.Place) (isOpen : place.IsOpen) :
      Column.Admits ⟨some 0, place.limit, false⟩ (numbers place.name) :=
    isFeasible.columns _ (isProgram.mem_columns_iff.mpr ⟨place, isOpen, rfl⟩)
  have finiteGiven supplier requisition :=
    (admits (.given supplier requisition) trivial).isFinite
  have finiteUnmet (requisition) :
      Scalar.isFinite ((allocation.planOf numbers).unmet requisition) = true := by
    unfold planOf
    split
    · rename_i mayStay
      exact (admits (.unmet requisition) mayStay).isFinite
    · exact Scalar.isFinite_zero
  refine ⟨finiteGiven, finiteUnmet, ?_, ?_, ?_, ?_, ?_, ?_⟩
  · intro supplier requisition
    exact (admits (.given supplier requisition) trivial).lower 0 rfl
  · intro requisition
    unfold planOf
    split
    · rename_i mayStay
      exact (admits (.unmet requisition) mayStay).lower 0 rfl
    · exact le_rfl
  · intro supplier requisition lacksSkill
    have isAllowed := admits (.given supplier requisition) trivial
    have isLimited : (Place.given supplier requisition).limit = some 0 :=
      if_neg (by rw [lacksSkill]; exact Bool.false_ne_true)
    apply ExactScalar.le_antisymm
    · exact isAllowed.upper 0 isLimited
    · exact isAllowed.lower 0 rfl
  · intro noPenalty requisition
    simp [planOf, noPenalty]
  · intro supplier
    apply (cap_holds_iff supplier (finiteGiven supplier)).mp
    apply isFeasible.rows
    rw [isProgram.rows]
    exact List.mem_append_left _ (List.mem_map_of_mem (List.getElem_mem supplier.2))
  · intro requisition
    apply (ask_holds_iff requisition (finiteGiven · requisition) (finiteUnmet requisition)).mp
    apply isFeasible.rows
    rw [isProgram.rows]
    exact List.mem_append_right _ (List.mem_map_of_mem (List.getElem_mem requisition.2))

/-- Numbers that tell a plan that serves all demands are allowed by the program. -/
theorem isFeasible_of_serves
    (isProgram : allocation.IsProgram program)
    (elsewhere : ∀ name ∉ program.columns.names, numbers name = 0)
    (serves : (allocation.planOf numbers).Serves) :
    program.IsFeasible numbers := by
  refine ⟨elsewhere, ?_, ?_⟩
  · intro entry member
    obtain ⟨place, isOpen, rfl⟩ := isProgram.mem_columns_iff.mp member
    cases place with
    | given supplier requisition =>
        refine ⟨serves.finite_given supplier requisition, ?_, ?_, nofun⟩
        · rintro bound ⟨⟩
          exact serves.given_nonneg supplier requisition
        · intro bound isBound
          cases lacksSkill : allocation.requisitions[requisition].accepts
              allocation.suppliers[supplier] with
          | true =>
              rw [Place.limit, lacksSkill] at isBound
              cases isBound
          | false =>
              rw [Place.limit, lacksSkill] at isBound
              cases isBound
              exact (serves.given_eq_zero supplier requisition lacksSkill).le
    | unmet requisition =>
        have isLeft := unmet_planOf numbers requisition isOpen
        refine ⟨?_, ?_, nofun, nofun⟩
        · rw [← isLeft]
          exact serves.finite_unmet requisition
        · rintro bound ⟨⟩
          rw [← isLeft]
          exact serves.unmet_nonneg requisition
  · intro row member
    rw [isProgram.rows] at member
    rcases List.mem_append.mp member with isCap | isAsk
    · obtain ⟨supplier, isSupplier, rfl⟩ := List.mem_map.mp isCap
      obtain ⟨position, isPosition, rfl⟩ := List.getElem_of_mem isSupplier
      exact (cap_holds_iff ⟨position, isPosition⟩ (serves.finite_given _)).mpr
        (serves.within_capacity _)
    · obtain ⟨requisition, isRequisition, rfl⟩ := List.mem_map.mp isAsk
      obtain ⟨position, isPosition, rfl⟩ := List.getElem_of_mem isRequisition
      exact (ask_holds_iff ⟨position, isPosition⟩ (serves.finite_given · _)
        (serves.finite_unmet _)).mpr (serves.meets_quantity _)

/-- The numbers that tell a plan that serves all demands tell just that plan. -/
theorem planOf_numbers
    (wellNamed : allocation.IsWellNamed)
    {plan : allocation.Plan}
    (serves : plan.Serves) :
    allocation.planOf plan.numbers = plan := by
  apply Plan.ext
  · funext supplier requisition
    exact plan.numbers_name wellNamed (.given supplier requisition)
  · funext requisition
    cases isPenalty : allocation.penalty with
    | none =>
        rw [serves.unmet_eq_zero isPenalty requisition]
        simp [planOf, isPenalty]
    | some penalty =>
        rw [unmet_planOf _ _ (by rw [isPenalty]; rfl)]
        exact plan.numbers_name wellNamed (.unmet requisition)

/-- The numbers that tell a plan that serves all demands are zero off the columns. -/
theorem numbers_eq_zero
    (isProgram : allocation.IsProgram program)
    (wellNamed : allocation.IsWellNamed)
    {plan : allocation.Plan}
    (serves : plan.Serves)
    {name : String}
    (isElsewhere : name ∉ program.columns.names) :
    plan.numbers name = 0 := by
  by_cases isPlace : ∃ place : allocation.Place, place.name = name
  · obtain ⟨place, rfl⟩ := isPlace
    have isClosed : ¬ place.IsOpen := fun isOpen =>
      isElsewhere (isProgram.mem_names_iff.mpr ⟨place, isOpen, rfl⟩)
    rw [plan.numbers_name wellNamed]
    cases place with
    | given supplier requisition =>
        exact (isClosed trivial).elim
    | unmet requisition =>
        exact serves.unmet_eq_zero (Option.not_isSome_iff_eq_none.mp isClosed) requisition
  · exact Function.extend_apply' _ _ _ isPlace

/-- The numbers that the program allows are the plans that serve all demands, each once. -/
theorem bijOn_planOf
    (isProgram : allocation.IsProgram program)
    (wellNamed : allocation.IsWellNamed) :
    Set.BijOn allocation.planOf {numbers | program.IsFeasible numbers} {plan | plan.Serves} := by
  refine ⟨fun numbers isFeasible => isProgram.serves_planOf isFeasible, ?_, ?_⟩
  · intro numbers isFeasible others isFeasibleToo samePlan
    funext name
    by_cases isColumn : name ∈ program.columns.names
    · obtain ⟨place, isOpen, rfl⟩ := isProgram.mem_names_iff.mp isColumn
      cases place with
      | given supplier requisition =>
          exact congrFun (congrFun (congrArg Plan.given samePlan) supplier) requisition
      | unmet requisition =>
          have sameLeft := congrFun (congrArg Plan.unmet samePlan) requisition
          rwa [unmet_planOf _ _ isOpen, unmet_planOf _ _ isOpen] at sameLeft
    · rw [isFeasible.elsewhere name isColumn, isFeasibleToo.elsewhere name isColumn]
  · intro plan serves
    have isPlan := planOf_numbers wellNamed serves
    refine ⟨plan.numbers, ?_, isPlan⟩
    apply isProgram.isFeasible_of_serves
    · exact fun name isElsewhere => isProgram.numbers_eq_zero wellNamed serves isElsewhere
    · rwa [isPlan]

end IsProgram

end Allocation

end Optima
