import Optima.Linear.Solve
import Optima.Problem.Decoding
import Optima.Scalar.Basic

namespace Optima

/-!
# Allocation

Resources with a capacity and a unit cost cover demands, where they have the
skills that a demand asks for.
-/

/-- A supplier of capacity at a unit cost. -/
structure Supplier (α : Type) where
  identifier : String
  name : String
  capacity : α
  unitCost : α
  skills : List String
  deriving Repr

/-- A quantity that suppliers have to cover. -/
structure Requisition (α : Type) where
  identifier : String
  name : String
  quantity : α
  requiredSkills : List String
  priority : Int
  deriving Repr

namespace Requisition

variable {α : Type}

/-- Whether a supplier has every skill that is asked for. -/
def accepts (requisition : Requisition α) (supplier : Supplier α) : Bool :=
  requisition.requiredSkills.all supplier.skills.contains

end Requisition

/-!
## Allocation in documents
-/

namespace Supplier

/-- A supplier. -/
def decoder : Decoder (Supplier Float) :=
  .record fun fields => do
    let identifier? ← fields.identifier "resource_id"
    let name? ← fields.textOr "name" ""
    let capacity? ← fields.required "capacity" (.numberFrom 0)
    let cost? ← fields.defaulted "unit_cost" .number 0
    let skills? ← fields.listOf "skills" .text
    return do return ⟨← identifier?, ← name?, ← capacity?, ← cost?, ← skills?⟩

/-- A supplier as a document. -/
def toDocument {α : Type} (supplier : Supplier α) : Document α :=
  .mapping [("resource_id", .text supplier.identifier), ("name", .text supplier.name),
    ("capacity", .number supplier.capacity), ("unit_cost", .number supplier.unitCost),
    ("skills", .texts supplier.skills)]

end Supplier

namespace Requisition

/-- A requisition. -/
def decoder : Decoder (Requisition Float) :=
  .record fun fields => do
    let identifier? ← fields.identifier "demand_id"
    let name? ← fields.textOr "name" ""
    let quantity? ← fields.required "quantity" (.numberFrom 0)
    let skills? ← fields.listOf "required_skills" .text
    let priority? ← fields.defaulted "priority" .integer 0
    return do return ⟨← identifier?, ← name?, ← quantity?, ← skills?, ← priority?⟩

/-- A requisition as a document. -/
def toDocument {α : Type} (requisition : Requisition α) : Document α :=
  .mapping [("demand_id", .text requisition.identifier), ("name", .text requisition.name),
    ("quantity", .number requisition.quantity),
    ("required_skills", .texts requisition.requiredSkills),
    ("priority", .integer requisition.priority)]

end Requisition

/-!
## The allocation program

What each supplier gives to each demand is a variable.  A row caps what a supplier
gives, another asks that a demand gets its quantity, and the cost of all that is
given is minimized.  Where demand may stay unmet, what is left of it is a variable
with a penalty.
-/

/-- Suppliers and the demands that they have to cover. -/
structure Allocation (α : Type) where
  suppliers : List (Supplier α)
  requisitions : List (Requisition α)
  /-- The cost of a unit of unmet demand; none where all demand has to be met. -/
  penalty : Option α
  deriving Repr

namespace Allocation

variable {α : Type}

/-- The name of the quantity that a supplier gives to a demand. -/
def quantityName (supplier requisition : String) : String :=
  "allocation_" ++ supplier ++ "_" ++ requisition

/-- The name of what is left unmet of a demand. -/
def unmetName (requisition : String) : String :=
  "unmet_" ++ requisition

/-- The identifier of the row of a supplier. -/
def capacityName (supplier : String) : String :=
  "capacity_" ++ supplier

/-- The identifier of the row of a demand. -/
def demandName (requisition : String) : String :=
  "demand_" ++ requisition

/-- Every supplier with every demand. -/
def combinations (allocation : Allocation α) : List (Supplier α × Requisition α) :=
  allocation.suppliers.flatMap fun supplier =>
    allocation.requisitions.map fun requisition => (supplier, requisition)

/-- The identifiers of supplier and demand by the name of the quantity between them. -/
def pairs (allocation : Allocation α) : Table (String × String) :=
  Table.ofList (allocation.combinations.map fun (supplier, requisition) =>
    (quantityName supplier.identifier requisition.identifier,
      (supplier.identifier, requisition.identifier)))

/-- The identifiers of the demands that may stay unmet, by the name of what is left. -/
def unmet (allocation : Allocation α) : Table String :=
  if allocation.penalty.isSome then
    Table.ofList (allocation.requisitions.map fun requisition =>
      (unmetName requisition.identifier, requisition.identifier))
  else {}

variable [Scalar α]

/-- The quantities between suppliers and demands; a supplier without a skill gives nothing. -/
def givenLimits (allocation : Allocation α) : List (String × Option α) :=
  allocation.combinations.map fun (supplier, requisition) =>
    (quantityName supplier.identifier requisition.identifier,
      if requisition.accepts supplier then none else some 0)

/-- The quantities that may stay unmet. -/
def unmetLimits (allocation : Allocation α) : List (String × Option α) :=
  if allocation.penalty.isSome then
    allocation.requisitions.map fun requisition => (unmetName requisition.identifier, none)
  else []

/-- The names of the variables with their upper bounds. -/
def limits (allocation : Allocation α) : List (String × Option α) :=
  allocation.givenLimits ++ allocation.unmetLimits

/-- A quantity as a variable. -/
def quantity (identifier name : String) (upper : Option α) : Variable α where
  identifier := identifier
  name := name
  kind := .continuous
  lower := some 0
  upper := upper
  initial := none
  categories := none
  description := ""

/-- The variables, given a supply of identifiers. -/
def decisions (allocation : Allocation α) (fresh : Nat → String) : List (Variable α) :=
  allocation.limits.zipIdx.map fun ((name, upper), index) => quantity (fresh index) name upper

/-- The cost of a unit of each quantity. -/
def costs (allocation : Allocation α) : Table α :=
  (Table.ofList (allocation.combinations.map fun (supplier, requisition) =>
      (quantityName supplier.identifier requisition.identifier, supplier.unitCost))).insertAll
    (match allocation.penalty with
      | none => []
      | some penalty => allocation.requisitions.map fun requisition =>
        (unmetName requisition.identifier, penalty))

/-- The sum of quantities as an expression. -/
def sumOf (names : List String) : Expr α :=
  .linear ⟨names.map fun name => (name, 1)⟩ 0

/-- A row of the program. -/
def row (name : String) (kind : ConstraintKind) (comparison : Comparison) (target : α)
    (names : List String) : Constraint α where
  rule := .expression (sumOf names)
  identifier := name
  name := name
  kind := kind
  comparison := comparison
  target := target
  tolerance := none
  description := ""

/-- The row that caps what a supplier gives. -/
def capacityRow (allocation : Allocation α) (supplier : Supplier α) : Constraint α :=
  row (capacityName supplier.identifier) .inequality .atMost supplier.capacity
    (allocation.pairs.filter fun _ pair => pair.1 == supplier.identifier).names

/-- The row that asks for the quantity of a demand. -/
def demandRow (allocation : Allocation α) (requisition : Requisition α) : Constraint α :=
  row (demandName requisition.identifier) .equality .equal requisition.quantity
    ((allocation.pairs.filter fun _ pair => pair.2 == requisition.identifier).names
      ++ (allocation.unmet.filter fun _ identifier => identifier == requisition.identifier).names)

/-- The rows of the program. -/
def rows (allocation : Allocation α) : List (Constraint α) :=
  allocation.suppliers.map allocation.capacityRow
    ++ allocation.requisitions.map allocation.demandRow

/-- The cost of all that is given and of all that stays unmet. -/
def totalCost (allocation : Allocation α) (identifier : String) : Objective α where
  rule := .expression (.linear allocation.costs 0)
  identifier := identifier
  name := "total_cost"
  direction := .minimize
  weight := 1
  priority := 0
  description := ""

/-- The number of identifiers that a program needs. -/
def identifierCount (allocation : Allocation α) : Nat :=
  allocation.limits.length + 1

/-- The problem that asks for the cheapest allocation, on top of what it asks already. -/
def problem (allocation : Allocation α) (fresh : Nat → String) (base : Problem α) : Problem α :=
  { base with
    kind := .resourceAllocation
    objectives := allocation.totalCost (fresh allocation.limits.length) :: base.objectives
    constraints := allocation.rows ++ base.constraints
    decisions := allocation.decisions fresh ++ base.decisions }

/-- The capacity of all suppliers. -/
def totalCapacity (allocation : Allocation α) : α :=
  Scalar.total (allocation.suppliers.map (·.capacity))

/-- The quantity of all demands. -/
def totalDemand (allocation : Allocation α) : α :=
  Scalar.total (allocation.requisitions.map (·.quantity))

/-- Whether all capacity together cannot cover what has to be covered. -/
def isShort (allocation : Allocation α) : Bool :=
  allocation.penalty.isNone && allocation.totalCapacity < allocation.totalDemand

/-- The totals of capacity and demand as details. -/
def totals (allocation : Allocation α) : List (String × Document α) :=
  [("total_capacity", .number allocation.totalCapacity),
    ("total_demand", .number allocation.totalDemand)]

/-- The violation of a lack of capacity. -/
def shortfall (allocation : Allocation α) : Violation α :=
  let missing := allocation.totalDemand - allocation.totalCapacity
  let capacity? := if allocation.suppliers.isEmpty then none else some allocation.totalCapacity
  { identifier := "total_capacity"
    magnitude := missing
    severity := .ofMagnitude missing allocation.totalDemand
    reason := some (.capacityShort capacity? allocation.totalDemand) }

/-- The number that a solution gives to a name. -/
def numberOf (solution : Solution α) (name : String) : α :=
  match solution.variableValues.get? name with
  | some (.number value) => value
  | _ => 0

/-- The demand that a solution leaves unmet. -/
def unmetDemand (allocation : Allocation α) (solution : Solution α) : α :=
  Scalar.total (allocation.unmet.names.map (numberOf solution))

/-- What a solution gives from which supplier to which demand, where it is worth mentioning. -/
def transfers (allocation : Allocation α) (tolerance : α) (solution : Solution α) :
    List (Document α) :=
  allocation.pairs.entries.filterMap fun (name, (supplier, requisition)) =>
    let given := numberOf solution name
    if tolerance < given then
      some (.mapping [("resource_id", .text supplier), ("demand_id", .text requisition),
        ("quantity", .number given)])
    else none

/-- A solution of the program told as an allocation. -/
def told (allocation : Allocation α) (tolerance : α) (solution : Solution α) : Solution α :=
  let unmet := allocation.unmetDemand solution
  { solution with
    objectiveValues := solution.objectiveValues.insert "unmet_demand" unmet
    account := { solution.account with
      details := solution.account.details.insertAll
        ([("allocations", .list (allocation.transfers tolerance solution)),
          ("unmet_demand", .number unmet)] ++ allocation.totals) } }

/-- The allocation that parameters ask for. -/
def ofParameters (parameters : LinearProgrammingParameters α) (suppliers : List (Supplier α))
    (requisitions : List (Requisition α)) : Allocation α :=
  ⟨suppliers, requisitions,
    if parameters.allowPartial then some parameters.unmetPenalty else none⟩

/-- Find the cheapest allocation. -/
def solve (allocation : Allocation α) (base : Problem α)
    (parameters : LinearProgrammingParameters α) (fresh : Nat → String) (watch : Watch α) :
    Except (SolveFailure α) (Solution α) := do
  if allocation.isShort then
    return LinearProgramming.withoutValues base .infeasible 0 [allocation.shortfall]
      allocation.totals
  else
    let solution ← LinearProgramming.solve (allocation.problem fresh base) parameters watch
    if solution.variableValues.entries.isEmpty then return solution
    else return allocation.told parameters.tolerance solution

end Allocation

end Optima
