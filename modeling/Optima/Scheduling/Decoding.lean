import Optima.Routing.Decoding
import Optima.Scheduling.Problem

namespace Optima

/-!
# Scheduling problems in documents
-/

namespace Requirement

/-- A requirement of a task. -/
def decoder : Decoder (Requirement Float) :=
  .record fun fields => do
    let kind? ← fields.required "resource_type" .choice
    let quantity? ← fields.defaulted "quantity" (.numberAbove 0) 1
    let skills? ← fields.listOf "skills" .text
    let alternatives? ← fields.listOf "alternatives" .text
    return do return ⟨← kind?, ← quantity?, ← skills?, ← alternatives?⟩

/-- A requirement as a document. -/
def toDocument {α : Type} (requirement : Requirement α) : Document α :=
  .mapping [("resource_type", .labelled requirement.kind),
    ("quantity", .number requirement.quantity), ("skills", .texts requirement.skills),
    ("alternatives", .texts requirement.alternatives)]

end Requirement

namespace AvailabilityWindow

/-- A window of availability. -/
def decoder : Decoder (AvailabilityWindow Float) :=
  .checkedRecord
    (fun window => TimeWindow.orderMessage? "availability window" window.start window.finish)
    fun fields => do
      let start? ← fields.required "start" .number
      let finish? ← fields.required "end" .number
      let capacity? ← fields.required "capacity" (.numberFrom 0)
      return do return ⟨← start?, ← finish?, ← capacity?⟩

/-- A window of availability as a document. -/
def toDocument {α : Type} (window : AvailabilityWindow α) : Document α :=
  .mapping [("start", .number window.start), ("end", .number window.finish),
    ("capacity", .number window.capacity)]

end AvailabilityWindow

namespace Task

/-- A task. -/
def decoder : Decoder (Task Float) :=
  .record fun fields => do
    let identifier? ← fields.identifier "task_id"
    let name? ← fields.textOr "name" ""
    let duration? ← fields.required "duration" (.numberAbove 0)
    let priority? ← fields.defaulted "priority" .integer 0
    let dependencies? ← fields.listOf "dependencies" .text
    let requirements? ← fields.listOf "resource_requirements" Requirement.decoder
    let windows? ← fields.listOf "time_windows" TimeWindow.decoder
    let skills? ← fields.listOf "skills" .text
    return do
      return ⟨← identifier?, ← name?, ← duration?, ← priority?, ← dependencies?, ← requirements?,
        ← windows?, ← skills?⟩

/-- A task as a document. -/
def toDocument {α : Type} (task : Task α) : Document α :=
  .mapping [("task_id", .text task.identifier), ("name", .text task.name),
    ("duration", .number task.duration), ("priority", .integer task.priority),
    ("dependencies", .texts task.dependencies),
    ("resource_requirements", .listOf Requirement.toDocument task.requirements),
    ("time_windows", .listOf TimeWindow.toDocument task.windows), ("skills", .texts task.skills)]

end Task

namespace Resource

/-- A resource. -/
def decoder : Decoder (Resource Float) :=
  .record fun fields => do
    let identifier? ← fields.identifier "resource_id"
    let name? ← fields.textOr "name" ""
    let kind? ← fields.defaulted "type" .choice .human
    let capacity? ← fields.defaulted "capacity" (.numberFrom 0) 1
    let availability? ← fields.listOf "availability" AvailabilityWindow.decoder
    let skills? ← fields.listOf "skills" .text
    let cost? ← fields.defaulted "cost" (.numberFrom 0) 0
    let regular? ← fields.optional "regular_time" (.numberFrom 0)
    return do
      return ⟨← identifier?, ← name?, ← kind?, ← capacity?, ← availability?, ← skills?, ← cost?,
        ← regular?⟩

/-- A resource as a document. -/
def toDocument {α : Type} (resource : Resource α) : Document α :=
  .mapping [("resource_id", .text resource.identifier), ("name", .text resource.name),
    ("type", .labelled resource.kind), ("capacity", .number resource.capacity),
    ("availability", .listOf AvailabilityWindow.toDocument resource.availability),
    ("skills", .texts resource.skills), ("cost", .number resource.cost),
    ("regular_time", .optional .number resource.regularTime)]

end Resource

namespace Horizon

/-- A horizon. -/
def decoder : Decoder (Horizon Float) :=
  .checkedRecord
    (fun horizon =>
      if horizon.finish ≤ horizon.start then some "time horizon must end after it starts" else none)
    fun fields => do
      let start? ← fields.defaulted "start" .number 0
      let finish? ← fields.required "end" .number
      let granularity? ← fields.defaulted "granularity" .choice .hour
      return do return ⟨← start?, ← finish?, ← granularity?⟩

/-- A horizon as a document. -/
def toDocument {α : Type} (horizon : Horizon α) : Document α :=
  .mapping [("start", .number horizon.start), ("end", .number horizon.finish),
    ("granularity", .labelled horizon.granularity)]

end Horizon

namespace Preferences

/-- The preferences of a problem that states none. -/
def usual : Preferences := ⟨false, false, true, true, true⟩

/-- Preferences. -/
def decoder : Decoder Preferences :=
  .record fun fields => do
    let balance? ← fields.defaulted "balance_workload" .boolean usual.balanceWorkload
    let overtime? ← fields.defaulted "minimize_overtime" .boolean usual.minimizeOvertime
    let skills? ← fields.defaulted "respect_skill_matching" .boolean usual.respectSkills
    let sharing? ← fields.defaulted "allow_resource_sharing" .boolean usual.allowSharing
    let urgent? ← fields.defaulted "prioritize_urgent_tasks" .boolean usual.urgentFirst
    return do return ⟨← balance?, ← overtime?, ← skills?, ← sharing?, ← urgent?⟩

/-- Preferences as a document. -/
def toDocument {α : Type} (preferences : Preferences) : Document α :=
  .mapping [("balance_workload", .boolean preferences.balanceWorkload),
    ("minimize_overtime", .boolean preferences.minimizeOvertime),
    ("respect_skill_matching", .boolean preferences.respectSkills),
    ("allow_resource_sharing", .boolean preferences.allowSharing),
    ("prioritize_urgent_tasks", .boolean preferences.urgentFirst)]

end Preferences

namespace SchedulingProblem

/-- A scheduling problem with the usual objective where it gives none. -/
def completed (problem : SchedulingProblem Float) :
    Decode (Option (SchedulingProblem Float)) := do
  if problem.objectives.isEmpty then
    let identifier? ← Decode.freshIdentifier
    return do
      let objectives := usualObjectives (← identifier?)
      return { problem with objectives := objectives }
  else return some problem

/-- A scheduling problem. -/
def decoder (closures : Closures) : Decoder (SchedulingProblem Float) :=
  fun place document => do
    let decoded? ← (Decoder.checkedRecord (β := SchedulingProblem Float)
      (fun problem => problem.fault?.map ReferenceFault.message) fun fields => do
        let problem? ← Problem.decode closures fields .scheduling
        let tasks? ← fields.required "tasks" (.nonemptyList Task.decoder)
        let resources? ← fields.listOf "resources" Resource.decoder
        let horizon? ← fields.required "time_horizon" Horizon.decoder
        let preferences? ← fields.defaulted "preferences" Preferences.decoder .usual
        return do return ⟨← problem?, ← tasks?, ← resources?, ← horizon?, ← preferences?⟩)
      place document
    match decoded? with
    | some problem => completed problem
    | none => return none

/-- A scheduling problem as a document. -/
def toDocument {α : Type} (problem : SchedulingProblem α) : Document α :=
  .mapping (problem.fields ++
    [("tasks", .listOf Task.toDocument problem.tasks),
     ("resources", .listOf Resource.toDocument problem.resources),
     ("time_horizon", problem.horizon.toDocument),
     ("preferences", problem.preferences.toDocument)])

end SchedulingProblem

end Optima
