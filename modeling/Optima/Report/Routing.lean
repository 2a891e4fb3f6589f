import Optima.Document.Basic
import Optima.Routing.Construction
import Optima.Routing.Drive

namespace Optima

/-!
# Reports on routing

What a network, a plan and a drive along a route look like as documents.
-/

/-- A plan as a document. -/
def Plan.toDocument {α : Type} (plan : Plan) : Document α :=
  .listOf .naturals plan

namespace Network

variable {α : Type}

/-- A network as a document. -/
def toDocument (network : Network α) : Document α :=
  .mapping [("distance", .listOf .numbers network.distances),
    ("time", .listOf .numbers network.times),
    ("load", .numbers (network.stops.map (·.load)))]

/-- How a vehicle drives a route, or what keeps it from doing so, as a document. -/
def report [Scalar α] (network : Network α) (vehicle : Vehicle α) (route : List Nat) :
    Document α :=
  let drive := network.drive vehicle route
  let (load, reason) :=
    match network.evaluate vehicle route with
    | .ok found => (found.load, "")
    | .error obstacle => (network.loadOf route, label obstacle)
  .mapping [("feasible", .boolean reason.isEmpty), ("distance", .number drive.distance),
    ("duration", .number drive.duration), ("cost", .number drive.cost), ("load", .number load),
    ("starts", .numbers drive.starts), ("reason", .text reason)]

end Network

end Optima
