import Optima.Scalar.Basic
import Optima.Scheduling.Problem

namespace Optima

/-!
# Calendars

A calendar holds the placements that are booked on resources.  A booking occupies
its resources from its start up to, but not including, its end.  What is used of a
resource only grows where a booking starts, so its peak within an interval is
found at the start of the interval or at the start of a booking.
-/

/-- A task booked on resources from a start to an end. -/
structure Placement (α : Type) where
  task : String
  start : α
  finish : α
  /-- The quantity of each resource in use. -/
  resources : List (String × α)
  cost : α
  /-- Whether the task misses its preferred windows. -/
  missesPreference : Bool
  deriving Repr

namespace Placement

variable {α : Type} [Scalar α]

/-- The numbers of a placement. -/
def numbers (placement : Placement α) : List α :=
  placement.start :: placement.finish :: placement.cost :: placement.resources.map (·.2)

/-- Whether two placements are the same in everything. -/
def isSame (first second : Placement α) : Bool :=
  first.task == second.task
    && first.resources.map (·.1) == second.resources.map (·.1)
    && (List.zipWith Scalar.same first.numbers second.numbers).all id
    && first.missesPreference == second.missesPreference

instance : BEq (Placement α) := ⟨isSame⟩

/-- Whether a placement uses a resource. -/
def uses (placement : Placement α) (resource : String) : Bool :=
  placement.resources.any (·.1 == resource)

/-- The quantity of a resource in use. -/
def quantityOf (placement : Placement α) (resource : String) : α :=
  (placement.resources.lookup resource).getD 0

/-- Whether a placement overlaps an interval by more than the slack. -/
def overlaps (placement : Placement α) (start finish : α) : Bool :=
  placement.start < finish - Scalar.slack && start + Scalar.slack < placement.finish

/-- Whether a placement is under way at a moment. -/
def isActive (placement : Placement α) (moment : α) : Bool :=
  placement.start ≤ moment && decide (moment < placement.finish)

/-- The time from start to end. -/
def length (placement : Placement α) : α :=
  placement.finish - placement.start

end Placement

/-- The bookings on resources, in the order in which they were made. -/
structure Calendar (α : Type) where
  resources : List (Resource α)
  /-- Whether several bookings may use a resource at a time. -/
  allowSharing : Bool
  bookings : List (Placement α)
  deriving Repr

namespace Resource

variable {α : Type} [Scalar α]

/-- The capacity for a whole interval; none if the resource is not there. -/
def capacityIn (resource : Resource α) (start finish : α) : Option α :=
  if resource.availability.isEmpty then some resource.capacity
  else (resource.availability.find? fun window =>
    window.start ≤ start + Scalar.slack && finish ≤ window.finish + Scalar.slack).map (·.capacity)

end Resource

namespace Calendar

variable {α : Type}

/-- A calendar without bookings. -/
def empty (resources : List (Resource α)) (allowSharing : Bool) : Calendar α :=
  ⟨resources, allowSharing, []⟩

/-- The resource of an identifier. -/
def resource? (calendar : Calendar α) (identifier : String) : Option (Resource α) :=
  calendar.resources.find? (·.identifier == identifier)

/-- Make a booking. -/
def book (calendar : Calendar α) (placement : Placement α) : Calendar α :=
  { calendar with bookings := calendar.bookings ++ [placement] }

variable [Scalar α]

/-- Whether a placement is booked. -/
def isBooked (calendar : Calendar α) (placement : Placement α) : Bool :=
  calendar.bookings.contains placement

/-- Take back a booking. -/
def release (calendar : Calendar α) (placement : Placement α) : Calendar α :=
  { calendar with bookings := calendar.bookings.erase placement }

/-- The bookings on a resource. -/
def bookingsOn (calendar : Calendar α) (resource : String) : List (Placement α) :=
  calendar.bookings.filter (·.uses resource)

/-- What some bookings use of a resource at a moment. -/
def usageAt (bookings : List (Placement α)) (resource : String) (moment : α) : α :=
  Scalar.total ((bookings.filter (·.isActive moment)).map (·.quantityOf resource))

/-- The most that is used of a resource at a time within an interval. -/
def peakUsage (calendar : Calendar α) (resource : String) (start finish : α) : α :=
  let overlapping := (calendar.bookingsOn resource).filter (·.overlaps start finish)
  let moments := start :: (overlapping.map (·.start)).filter fun moment => start < moment
  (Scalar.largest? (moments.map (usageAt overlapping resource))).getD 0

/-- Whether a quantity of a resource is free for a whole interval. -/
def hasRoom (calendar : Calendar α) (resource : Resource α) (quantity start finish : α) : Bool :=
  match resource.capacityIn start finish with
  | none => false
  | some capacity =>
    let usage := calendar.peakUsage resource.identifier start finish
    if !calendar.allowSharing && 0 < usage then false
    else usage + quantity ≤ capacity + Scalar.slack

/-- Whether a quantity of the resource of an identifier is free for a whole interval. -/
def fits (calendar : Calendar α) (identifier : String) (quantity start finish : α) : Bool :=
  match calendar.resource? identifier with
  | none => false
  | some resource => calendar.hasRoom resource quantity start finish

/-- The moments at which more of a resource may become free. -/
def releasePoints (calendar : Calendar α) (identifier : String) : List α :=
  (calendar.bookingsOn identifier).map (·.finish)
    ++ (((calendar.resource? identifier).map (·.availability)).getD []).map (·.start)

/-- The time for which a resource is booked. -/
def busyTime (calendar : Calendar α) (identifier : String) : α :=
  Scalar.total ((calendar.bookingsOn identifier).map (·.length))

end Calendar

end Optima
