import Mathlib.Algebra.BigOperators.Fin
import Optima.Allocation
import Optima.Proofs.Linear.Meaning

namespace Optima

/-!
# What the program of an allocation is made of

Where no two quantities share a name, nothing is overwritten when the program is collected
in tables: each quantity has a column and a cost of its own, it counts in the row of its
supplier and in that of its demand, and in no other.
-/

namespace Allocation

variable {α : Type}

/-- The names of all quantities between suppliers and demands. -/
def givenNames (allocation : Allocation α) : List String :=
  allocation.combinations.map fun (supplier, requisition) =>
    quantityName supplier.identifier requisition.identifier

/-- The names of what is left of the demands. -/
def unmetNames (allocation : Allocation α) : List String :=
  allocation.requisitions.map fun requisition => unmetName requisition.identifier

/-- No two suppliers, no two demands and no two quantities between them share a name. -/
structure IsWellNamed (allocation : Allocation α) : Prop where
  suppliers : (allocation.suppliers.map (·.identifier)).Nodup
  requisitions : (allocation.requisitions.map (·.identifier)).Nodup
  quantities : allocation.givenNames.Nodup

/-- The names of what a supplier gives. -/
def namesOfSupplier (allocation : Allocation α) (supplier : Supplier α) : List String :=
  allocation.requisitions.map fun requisition =>
    quantityName supplier.identifier requisition.identifier

/-- The names of what a demand gets, with what is left of it where that is allowed. -/
def namesOfRequisition (allocation : Allocation α) (requisition : Requisition α) : List String :=
  (allocation.suppliers.map fun supplier =>
      quantityName supplier.identifier requisition.identifier)
    ++ if allocation.penalty.isSome then [unmetName requisition.identifier] else []

section Names

/-- What is given and what stays unmet are told apart by the first letter of their names. -/
theorem quantityName_ne_unmetName
    (supplier requisition other : String) :
    quantityName supplier requisition ≠ unmetName other := by
  intro sameName
  have sameLetters := congrArg (fun name => name.toList.head?) sameName
  simp [quantityName, unmetName, String.toList_append] at sameLetters

theorem unmetName_injective :
    Function.Injective unmetName := by
  intro first second sameName
  have sameLetters := congrArg String.toList sameName
  simp only [unmetName, String.toList_append, List.append_cancel_left_eq] at sameLetters
  exact String.toList_inj.mp sameLetters

variable {allocation : Allocation α}

theorem mem_combinations
    {supplier : Supplier α}
    {requisition : Requisition α} :
    (supplier, requisition) ∈ allocation.combinations ↔
      supplier ∈ allocation.suppliers ∧ requisition ∈ allocation.requisitions := by
  simp [combinations]

theorem mem_givenNames
    {supplier : Supplier α}
    {requisition : Requisition α}
    (isSupplier : supplier ∈ allocation.suppliers)
    (isRequisition : requisition ∈ allocation.requisitions) :
    quantityName supplier.identifier requisition.identifier ∈ allocation.givenNames :=
  List.mem_map.mpr ⟨(supplier, requisition), mem_combinations.mpr ⟨isSupplier, isRequisition⟩, rfl⟩

theorem nodup_unmetNames
    (wellNamed : allocation.IsWellNamed) :
    allocation.unmetNames.Nodup := by
  have distinct := wellNamed.requisitions.map unmetName_injective
  rwa [List.map_map] at distinct

/-- What is given and what stays unmet have distinct names. -/
theorem nodup_names
    (wellNamed : allocation.IsWellNamed) :
    (allocation.givenNames ++ allocation.unmetNames).Nodup := by
  rw [List.nodup_append]
  refine ⟨wellNamed.quantities, nodup_unmetNames wellNamed, ?_⟩
  intro name isGiven other isUnmet
  obtain ⟨⟨supplier, requisition⟩, -, rfl⟩ := List.mem_map.mp isGiven
  obtain ⟨left, -, rfl⟩ := List.mem_map.mp isUnmet
  exact quantityName_ne_unmetName _ _ _

/-- Letters without an underscore are what comes before the first one. -/
theorem takeWhile_underscore
    {letters : List Char}
    (noUnderscore : '_' ∉ letters)
    {rest : List Char} :
    (letters ++ ("_".toList ++ rest)).takeWhile (· != '_') = letters := by
  have areOther : ∀ letter ∈ letters, (letter != '_') = true := by
    intro letter member
    rw [bne_iff_ne]
    rintro rfl
    exact noUnderscore member
  rw [List.takeWhile_append_of_pos areOther]
  simp

/-- Where no identifier of a supplier has an underscore, the names of quantities are distinct if
those of suppliers and demands are. -/
theorem isWellNamed_of_no_underscore
    (suppliersDistinct : (allocation.suppliers.map (·.identifier)).Nodup)
    (requisitionsDistinct : (allocation.requisitions.map (·.identifier)).Nodup)
    (noUnderscore : ∀ supplier ∈ allocation.suppliers, '_' ∉ supplier.identifier.toList) :
    allocation.IsWellNamed := by
  refine ⟨suppliersDistinct, requisitionsDistinct, List.Nodup.map_on ?_ ?_⟩
  · rintro ⟨supplier, requisition⟩ isCell ⟨other, wanted⟩ isCellToo sameName
    obtain ⟨isSupplier, isRequisition⟩ := mem_combinations.mp isCell
    obtain ⟨isSupplierToo, isRequisitionToo⟩ := mem_combinations.mp isCellToo
    have sameLetters := congrArg String.toList sameName
    simp only [quantityName, String.toList_append, List.append_assoc,
      List.append_cancel_left_eq] at sameLetters
    have sameSupplier := congrArg (List.takeWhile (· != '_')) sameLetters
    rw [takeWhile_underscore (noUnderscore supplier isSupplier),
      takeWhile_underscore (noUnderscore other isSupplierToo)] at sameSupplier
    rw [sameSupplier, List.append_cancel_left_eq, List.append_cancel_left_eq] at sameLetters
    rw [List.inj_on_of_nodup_map suppliersDistinct isSupplier isSupplierToo
        (String.toList_inj.mp sameSupplier),
      List.inj_on_of_nodup_map requisitionsDistinct isRequisition isRequisitionToo
        (String.toList_inj.mp sameLetters)]
  · exact suppliersDistinct.of_map.product requisitionsDistinct.of_map

end Names

section Tables

variable {allocation : Allocation α}

/-- Where no two quantities share a name, each is entered with its supplier and its demand. -/
theorem entries_pairs
    (wellNamed : allocation.IsWellNamed) :
    allocation.pairs.entries =
      allocation.combinations.map fun (supplier, requisition) =>
        (quantityName supplier.identifier requisition.identifier,
          (supplier.identifier, requisition.identifier)) := by
  apply Table.entries_ofList_of_nodup
  rw [List.map_map]
  exact wellNamed.quantities

/-- What is left of each demand is entered with that demand. -/
theorem entries_unmet
    (wellNamed : allocation.IsWellNamed) :
    allocation.unmet.entries =
      if allocation.penalty.isSome then
        allocation.requisitions.map fun requisition =>
          (unmetName requisition.identifier, requisition.identifier)
      else [] := by
  unfold unmet
  split
  · apply Table.entries_ofList_of_nodup
    rw [List.map_map]
    exact nodup_unmetNames wellNamed
  · rfl

/-- The row of a supplier is about what it gives. -/
theorem names_filter_supplier
    (wellNamed : allocation.IsWellNamed)
    {supplier : Supplier α}
    (member : supplier ∈ allocation.suppliers) :
    (allocation.pairs.filter fun _ pair => pair.1 == supplier.identifier).names =
      allocation.namesOfSupplier supplier := by
  have onlyOwn :
      allocation.combinations.filter (·.1.identifier == supplier.identifier) =
        allocation.requisitions.map fun requisition => (supplier, requisition) := by
    rw [combinations, List.filter_flatMap]
    rw [flatMap_eq_of_mem wellNamed.suppliers member]
    · rw [List.filter_map, List.filter_eq_self.mpr]
      simp
    · intro other isOther
      simp [isOther]
  rw [Table.names, Table.filter, entries_pairs wellNamed, List.filter_map, List.map_map]
  exact (congrArg (List.map _) onlyOwn).trans (List.map_map ..)

/-- The row of a demand is about what it gets and what is left of it. -/
theorem names_filter_requisition
    (wellNamed : allocation.IsWellNamed)
    {requisition : Requisition α}
    (member : requisition ∈ allocation.requisitions) :
    (allocation.pairs.filter fun _ pair => pair.2 == requisition.identifier).names
        ++ (allocation.unmet.filter fun _ identifier =>
            identifier == requisition.identifier).names =
      allocation.namesOfRequisition requisition := by
  have isOnly := filter_key_eq_of_mem wellNamed.requisitions member
  have onlyOwn :
      allocation.combinations.filter (·.2.identifier == requisition.identifier) =
        allocation.suppliers.map fun supplier => (supplier, requisition) := by
    rw [combinations, List.filter_flatMap]
    have each (supplier : Supplier α) :
        (allocation.requisitions.map fun other => (supplier, other)).filter
            (·.2.identifier == requisition.identifier) = [(supplier, requisition)] := by
      rw [List.filter_map]
      exact congrArg (List.map _) isOnly
    simp only [each]
    exact List.map_eq_flatMap.symm
  have ownGiven :
      (allocation.pairs.filter fun _ pair => pair.2 == requisition.identifier).names =
        allocation.suppliers.map fun supplier =>
          quantityName supplier.identifier requisition.identifier := by
    rw [Table.names, Table.filter, entries_pairs wellNamed, List.filter_map, List.map_map]
    exact (congrArg (List.map _) onlyOwn).trans (List.map_map ..)
  have ownUnmet :
      (allocation.unmet.filter fun _ identifier => identifier == requisition.identifier).names =
        if allocation.penalty.isSome then [unmetName requisition.identifier] else [] := by
    rw [Table.names, Table.filter, entries_unmet wellNamed]
    split
    · rw [List.filter_map, List.map_map]
      exact congrArg (List.map _) isOnly
    · rfl
  rw [ownGiven, ownUnmet, namesOfRequisition]

/-- A unit of each quantity has its cost. -/
theorem entries_costs
    (wellNamed : allocation.IsWellNamed) :
    allocation.costs.entries =
      (allocation.combinations.map fun (supplier, requisition) =>
          (quantityName supplier.identifier requisition.identifier, supplier.unitCost))
        ++ match allocation.penalty with
          | none => []
          | some penalty => allocation.requisitions.map fun requisition =>
            (unmetName requisition.identifier, penalty) := by
  have distinct :
      ((allocation.combinations.map fun (supplier, requisition) =>
          (quantityName supplier.identifier requisition.identifier, supplier.unitCost)).map
        (·.1)).Nodup := by
    rw [List.map_map]
    exact wellNamed.quantities
  have givenEntries := Table.entries_ofList_of_nodup distinct
  refine (Table.entries_insertAll_of_nodup ?_).trans (congrArg (· ++ _) givenEntries)
  rw [Table.names, givenEntries, List.map_map]
  refine List.Nodup.sublist ?_ (nodup_names wellNamed)
  refine List.Sublist.append_left ?_ allocation.givenNames
  split
  · exact List.nil_sublist _
  · rw [List.map_map]
    exact List.Sublist.refl _

variable [Scalar α]

/-- The names of the variables are those of what is given and of what may stay unmet. -/
theorem names_limits :
    allocation.limits.map (·.1) =
      allocation.givenNames ++ if allocation.penalty.isSome then allocation.unmetNames else [] := by
  rw [limits, List.map_append, givenLimits, List.map_map]
  refine congrArg (allocation.givenNames ++ ·) ?_
  unfold unmetLimits
  split
  · exact List.map_map ..
  · rfl

/-- The names of the variables are distinct. -/
theorem nodup_limits
    (wellNamed : allocation.IsWellNamed) :
    (allocation.limits.map (·.1)).Nodup := by
  refine List.Nodup.sublist ?_ (nodup_names wellNamed)
  rw [names_limits]
  apply List.Sublist.append_left
  split
  · exact List.Sublist.refl _
  · exact List.nil_sublist _

/-- The columns are those of the quantities, with their limits. -/
theorem entries_columnsOf_decisions
    (wellNamed : allocation.IsWellNamed)
    (fresh : Nat → String) :
    (LinearProgram.columnsOf (allocation.decisions fresh)).entries =
      allocation.limits.map fun (name, upper) => (name, ⟨some 0, upper, false⟩) := by
  have areColumns :
      (allocation.decisions fresh).map
          (fun decision => (decision.name, Column.ofVariable decision)) =
        allocation.limits.map fun (name, upper) => (name, ⟨some 0, upper, false⟩) := by
    rw [decisions, List.map_map]
    conv_rhs => rw [← List.zipIdx_map_fst 0 allocation.limits, List.map_map]
    rfl
  rw [LinearProgram.columnsOf, areColumns]
  apply Table.entries_ofList_of_nodup
  rw [List.map_map]
  exact nodup_limits wellNamed

/-- The columns have the names of what is given and of what may stay unmet. -/
theorem names_columnsOf_decisions
    (wellNamed : allocation.IsWellNamed)
    (fresh : Nat → String) :
    (LinearProgram.columnsOf (allocation.decisions fresh)).names =
      allocation.givenNames ++ if allocation.penalty.isSome then allocation.unmetNames else [] := by
  rw [Table.names, entries_columnsOf_decisions wellNamed, List.map_map, ← names_limits]
  rfl

end Tables

section Rows

variable [Scalar α] [ArithmeticScalar α] {columns : Table (Column α)} {names : List String}

/-- The linear form of a sum of quantities. -/
def sumForm (names : List String) : LinearForm α :=
  ⟨⟨names.map fun name => (name, 1)⟩, 0⟩

/-- A sum of columns is taken over as it is. -/
theorem formOf_sumOf
    (areColumns : ∀ name ∈ names, columns.contains name = true)
    (noun name : String) :
    LinearProgram.formOf columns noun name (.expression (sumOf names)) =
      .ok (sumForm names : LinearForm α) := by
  have noStray :
      ((⟨names.map fun name => (name, (1 : α))⟩ : Table α).names.find?
        fun name => !columns.contains name) = none := by
    rw [List.find?_eq_none]
    intro name member
    obtain ⟨entry, isEntry, rfl⟩ := List.mem_map.mp member
    obtain ⟨name, isName, rfl⟩ := List.mem_map.mp isEntry
    simp [areColumns name isName]
  have noneInfinite :
      ((⟨names.map fun name => (name, (1 : α))⟩ : Table α).values.any
        fun value => !Scalar.isFinite value) = false := by
    rw [List.any_eq_false]
    intro value member
    obtain ⟨entry, isEntry, rfl⟩ := List.mem_map.mp member
    obtain ⟨name, -, rfl⟩ := List.mem_map.mp isEntry
    simp [Scalar.isFinite_one]
  simp [LinearProgram.formOf, Rule.linearForm?, Expr.linearForm?, sumOf, sumForm, settled, noStray,
    noneInfinite, Scalar.isFinite_zero, bind, Except.bind, pure, Except.pure]

/-- One times a finite number is that number. -/
theorem one_mul_of_isFinite
    {value : α}
    (isFinite : Scalar.isFinite value = true) :
    1 * value = value := by
  obtain ⟨isFiniteProduct, isProduct⟩ := Scalar.fraction_mul Scalar.isFinite_one isFinite
  apply Scalar.eq_of_fraction_eq isFiniteProduct isFinite
  rw [isProduct, Scalar.fraction_one, one_mul]

/-- On finite numbers the form of a sum is their sum. -/
theorem valueOn_sumForm
    {numbers : String → α}
    (areFinite : ∀ name ∈ names, Scalar.isFinite (numbers name) = true) :
    (sumForm names).valueOn numbers = (names.map numbers).sum := by
  rw [← Scalar.total_eq_sum, LinearForm.valueOn, Scalar.total, sumForm, List.foldl_map,
    List.foldl_map]
  apply List.foldl_ext
  intro total name member
  rw [one_mul_of_isFinite (areFinite name member)]

end Rows

end Allocation

namespace Allocation

variable {α : Type} [Scalar α] {allocation : Allocation α}

/-- What a supplier gives are columns. -/
theorem contains_of_mem_namesOfSupplier
    (wellNamed : allocation.IsWellNamed)
    (fresh : Nat → String)
    {supplier : Supplier α}
    (isSupplier : supplier ∈ allocation.suppliers) :
    ∀ name ∈ allocation.namesOfSupplier supplier,
      (LinearProgram.columnsOf (allocation.decisions fresh)).contains name = true := by
  intro name member
  obtain ⟨requisition, isRequisition, rfl⟩ := List.mem_map.mp member
  rw [Table.contains_iff_mem_names, names_columnsOf_decisions wellNamed]
  exact List.mem_append_left _ (mem_givenNames isSupplier isRequisition)

/-- What a demand gets and what is left of it are columns. -/
theorem contains_of_mem_namesOfRequisition
    (wellNamed : allocation.IsWellNamed)
    (fresh : Nat → String)
    {requisition : Requisition α}
    (isRequisition : requisition ∈ allocation.requisitions) :
    ∀ name ∈ allocation.namesOfRequisition requisition,
      (LinearProgram.columnsOf (allocation.decisions fresh)).contains name = true := by
  intro name member
  rw [Table.contains_iff_mem_names, names_columnsOf_decisions wellNamed]
  rcases List.mem_append.mp member with isGiven | isUnmet
  · obtain ⟨supplier, isSupplier, rfl⟩ := List.mem_map.mp isGiven
    exact List.mem_append_left _ (mem_givenNames isSupplier isRequisition)
  · apply List.mem_append_right
    split at isUnmet
    · rename_i mayStay
      rw [if_pos mayStay, List.mem_singleton.mp isUnmet]
      exact List.mem_map_of_mem isRequisition
    · cases isUnmet

/-- The row that caps what a supplier gives. -/
def cap (allocation : Allocation α) (supplier : Supplier α) : Row α :=
  ⟨sumForm (allocation.namesOfSupplier supplier), .atMost, supplier.capacity⟩

/-- The row that asks for the quantity of a demand. -/
def ask (allocation : Allocation α) (requisition : Requisition α) : Row α :=
  ⟨sumForm (allocation.namesOfRequisition requisition), .equal, requisition.quantity⟩

/-- There is a row for each supplier and for each demand. -/
theorem rowsOf_rows
    [ArithmeticScalar α]
    (wellNamed : allocation.IsWellNamed)
    (fresh : Nat → String)
    (tolerance : α) :
    LinearProgram.rowsOf (LinearProgram.columnsOf (allocation.decisions fresh)) tolerance
        allocation.rows =
      .ok (allocation.suppliers.map allocation.cap
        ++ allocation.requisitions.map allocation.ask) := by
  apply LinearProgram.rowsOf_append
  · apply LinearProgram.rowsOf_map fun supplier => sumForm (allocation.namesOfSupplier supplier)
    intro supplier isSupplier
    rw [capacityRow, names_filter_supplier wellNamed isSupplier]
    exact formOf_sumOf (contains_of_mem_namesOfSupplier wellNamed fresh isSupplier) _ _
  · apply LinearProgram.rowsOf_map fun requisition =>
      sumForm (allocation.namesOfRequisition requisition)
    intro requisition isRequisition
    rw [demandRow, names_filter_requisition wellNamed isRequisition]
    exact formOf_sumOf (contains_of_mem_namesOfRequisition wellNamed fresh isRequisition) _ _

end Allocation

end Optima
