import Optima.Problem.Decoding
import Optima.Routing.Problem

namespace Optima

/-!
# Routing problems in documents
-/

namespace TimeWindow

/-- The message of a window that ends before it starts. -/
def orderMessage? (noun : String) (start finish : Float) : Option String :=
  if finish < start then
    some (noun ++ " starts at " ++ Decimal.shortestText start ++ " after it ends at "
      ++ Decimal.shortestText finish)
  else none

/-- A time window. -/
def decoder : Decoder (TimeWindow Float) :=
  .checkedRecord (fun window => orderMessage? "time window" window.start window.finish)
    fun fields => do
      let start? ← fields.required "start" .number
      let finish? ← fields.required "end" .number
      let kind? ← fields.defaulted "type" .choice .required
      return do return ⟨← start?, ← finish?, ← kind?⟩

/-- A time window as a document. -/
def toDocument {α : Type} (window : TimeWindow α) : Document α :=
  .mapping [("start", .number window.start), ("end", .number window.finish),
    ("type", .labelled window.kind)]

end TimeWindow

namespace Coordinates

/-- A place on the globe. -/
def decoder : Decoder (Coordinates Float) :=
  .record fun fields => do
    let latitude? ← fields.required "lat" (.numberBetween (-90) 90)
    let longitude? ← fields.required "lng" (.numberBetween (-180) 180)
    return do return ⟨← latitude?, ← longitude?⟩

/-- A place on the globe as a document. -/
def toDocument {α : Type} (place : Coordinates α) : Document α :=
  .mapping [("lat", .number place.latitude), ("lng", .number place.longitude)]

end Coordinates

namespace Location

/-- A location. -/
def decoder : Decoder (Location Float) :=
  .record fun fields => do
    let identifier? ← fields.identifier "location_id"
    let name? ← fields.textOr "name" ""
    let coordinates? ← fields.optional "coordinates" Coordinates.decoder
    let windows? ← fields.listOf "time_windows" TimeWindow.decoder
    let service? ← fields.defaulted "service_time" (.numberFrom 0) 0
    return do return ⟨← identifier?, ← name?, ← coordinates?, ← windows?, ← service?⟩

/-- A location as a document. -/
def toDocument {α : Type} (location : Location α) : Document α :=
  .mapping [("location_id", .text location.identifier), ("name", .text location.name),
    ("coordinates", .optional Coordinates.toDocument location.coordinates),
    ("time_windows", .listOf TimeWindow.toDocument location.windows),
    ("service_time", .number location.serviceTime)]

end Location

namespace VehicleCost

/-- The cost of driving without any. -/
def nothing : VehicleCost Float := ⟨0, 0, 0, 0⟩

/-- The cost of driving a vehicle. -/
def decoder : Decoder (VehicleCost Float) :=
  .record fun fields => do
    let fixed? ← fields.defaulted "fixed" (.numberFrom 0) 0
    let distance? ← fields.defaulted "per_distance" (.numberFrom 0) 0
    let time? ← fields.defaulted "per_time" (.numberFrom 0) 0
    let overtime? ← fields.defaulted "overtime" (.numberFrom 0) 0
    return do return ⟨← fixed?, ← distance?, ← time?, ← overtime?⟩

/-- The cost as a document. -/
def toDocument {α : Type} (cost : VehicleCost α) : Document α :=
  .mapping [("fixed", .number cost.fixed), ("per_distance", .number cost.perDistance),
    ("per_time", .number cost.perTime), ("overtime", .number cost.overtime)]

end VehicleCost

namespace Vehicle

/-- A vehicle. -/
def decoder : Decoder (Vehicle Float) :=
  .record fun fields => do
    let identifier? ← fields.identifier "vehicle_id"
    let capacity? ← fields.required "capacity" (.numberFrom 0)
    let distance? ← fields.optional "max_distance" (.numberFrom 0)
    let time? ← fields.optional "max_time" (.numberFrom 0)
    let regular? ← fields.optional "regular_time" (.numberFrom 0)
    let cost? ← fields.defaulted "cost" VehicleCost.decoder .nothing
    let availability? ← fields.listOf "availability" TimeWindow.decoder
    let skills? ← fields.listOf "skills" .text
    return do
      return ⟨← identifier?, ← capacity?, ← distance?, ← time?, ← regular?, ← cost?,
        ← availability?, ← skills?⟩

/-- A vehicle as a document. -/
def toDocument {α : Type} (vehicle : Vehicle α) : Document α :=
  .mapping [("vehicle_id", .text vehicle.identifier), ("capacity", .number vehicle.capacity),
    ("max_distance", .optional .number vehicle.maxDistance),
    ("max_time", .optional .number vehicle.maxTime),
    ("regular_time", .optional .number vehicle.regularTime),
    ("cost", vehicle.cost.toDocument),
    ("availability", .listOf TimeWindow.toDocument vehicle.availability),
    ("skills", .texts vehicle.skills)]

end Vehicle

namespace Demand

/-- A demand. -/
def decoder : Decoder (Demand Float) :=
  .record fun fields => do
    let identifier? ← fields.identifier "demand_id"
    let location? ← fields.required "location_id" .text
    let quantity? ← fields.required "quantity" (.numberFrom 0)
    let priority? ← fields.defaulted "priority" .integer 0
    let skills? ← fields.listOf "skills" .text
    let windows? ← fields.listOf "time_windows" TimeWindow.decoder
    return do
      return ⟨← identifier?, ← location?, ← quantity?, ← priority?, ← skills?, ← windows?⟩

/-- A demand as a document. -/
def toDocument {α : Type} (demand : Demand α) : Document α :=
  .mapping [("demand_id", .text demand.identifier), ("location_id", .text demand.location),
    ("quantity", .number demand.quantity), ("priority", .integer demand.priority),
    ("skills", .texts demand.skills),
    ("time_windows", .listOf TimeWindow.toDocument demand.windows)]

end Demand

namespace RoutingProblem

/-- A routing problem with the usual objectives where it gives none. -/
def completed (problem : RoutingProblem Float) : Decode (Option (RoutingProblem Float)) := do
  if problem.objectives.isEmpty then
    let cost? ← Decode.freshIdentifier
    let distance? ← Decode.freshIdentifier
    return do
      let objectives := usualObjectives (← cost?) (← distance?)
      return { problem with objectives := objectives }
  else return some problem

/-- A routing problem. -/
def decoder (closures : Closures) : Decoder (RoutingProblem Float) :=
  fun place document => do
    let decoded? ← (Decoder.checkedRecord (β := RoutingProblem Float)
      (fun problem => problem.fault?.map NetworkFault.message) fun fields => do
        let problem? ← Problem.decode closures fields .routeOptimization
        let depot? ← fields.required "depot" Location.decoder
        let locations? ← fields.listOf "locations" Location.decoder
        let vehicles? ← fields.required "vehicles" (.nonemptyList Vehicle.decoder)
        let demands? ← fields.listOf "demands" Demand.decoder
        let distances? ← fields.optional "distance_matrix" (.list (.list .number))
        let times? ← fields.optional "time_matrix" (.list (.list .number))
        return do
          return ⟨← problem?, ← depot?, ← locations?, ← vehicles?, ← demands?, ← distances?,
            ← times?⟩) place document
    match decoded? with
    | some problem => completed problem
    | none => return none

/-- A matrix of numbers as a document. -/
def matrixDocument {α : Type} (matrix : List (List α)) : Document α :=
  .listOf (Document.listOf .number) matrix

/-- A routing problem as a document. -/
def toDocument {α : Type} (problem : RoutingProblem α) : Document α :=
  .mapping (problem.fields ++
    [("depot", problem.depot.toDocument),
     ("locations", .listOf Location.toDocument problem.locations),
     ("vehicles", .listOf Vehicle.toDocument problem.vehicles),
     ("demands", .listOf Demand.toDocument problem.demands),
     ("distance_matrix", .optional matrixDocument problem.distanceMatrix),
     ("time_matrix", .optional matrixDocument problem.timeMatrix)])

end RoutingProblem

end Optima
