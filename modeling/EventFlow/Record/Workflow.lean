import EventFlow.Json.Shape

/-!
# Workflows

A workflow is a named sequence of steps that an event of one type starts. An active workflow is
the only one that may run.
-/

set_option autoImplicit false

namespace EventFlow

/-- The stages in the life of a workflow. -/
inductive WorkflowStatus where
  | draft
  | active
  | disabled
deriving DecidableEq

namespace WorkflowStatus

/-- The name of a status. -/
def name : WorkflowStatus → String
  | draft => "draft"
  | active => "active"
  | disabled => "disabled"

/-- The status of a name. -/
def ofName? (text : String) : Option WorkflowStatus :=
  [draft, active, disabled].find? (·.name == text)

/-- The status of a name, or why there is none. -/
def parse (text : String) : Except String WorkflowStatus :=
  match ofName? text with
  | some status => .ok status
  | none => .error s!"unknown workflow status: {text}"

theorem ofName?_name (status : WorkflowStatus) : ofName? status.name = some status := by
  cases status <;> decide

end WorkflowStatus

/-- A named, triggerable sequence of steps. -/
structure Workflow where
  id : String
  name : String
  description : String
  status : WorkflowStatus
  triggerEventType : String
  stepIds : List String
  defaults : Json
  createdAt : Instant
  updatedAt : Instant
  createdBy : String
deriving DecidableEq

namespace Workflow

/-- The fields of a workflow in order of declaration, and what may be written for them. -/
def fieldShapes : List (String × Shape) :=
  [("id", .text), ("name", .text), ("description", .text),
    ("status", .oneOf WorkflowStatus.ofName?), ("trigger_event_type", .text), ("step_ids", .texts),
    ("variables", .free), ("created_at", .instant), ("updated_at", .instant),
    ("created_by", .text)]

/-- The fields of a workflow in order of declaration. -/
def fieldNames : List String := fieldShapes.map (·.1)

/-- What may be written for a workflow. -/
def shape : Shape := .record fieldShapes

/-- A workflow as it is written. -/
def document (w : Workflow) : Document :=
  .object [("id", .string w.id), ("name", .string w.name), ("description", .string w.description),
    ("status", .string w.status.name), ("trigger_event_type", .string w.triggerEventType),
    ("step_ids", .ofStrings w.stepIds), ("variables", .ofJson w.defaults),
    ("created_at", .ofInstant w.createdAt), ("updated_at", .ofInstant w.updatedAt),
    ("created_by", .string w.createdBy)]

/-- A workflow that is read. -/
def read (d : Document) : Reading Workflow := do
  let fields ← Fields.ofDocument fieldNames d
  let id ← fields.text "id" ""
  let name ← fields.required "name" Document.readString
  let description ← fields.text "description" ""
  let status ← fields.orElse "status" (Document.readName WorkflowStatus.ofName?) (pure .draft)
  let triggerEventType ← fields.required "trigger_event_type" Document.readString
  let stepIds ← fields.texts "step_ids"
  let defaults ← fields.json "variables" .emptyObject
  let createdAt ← fields.instant "created_at"
  let updatedAt ← fields.instant "updated_at"
  let createdBy ← fields.text "created_by" anonymous
  return ⟨id, name, description, status, triggerEventType, stepIds, defaults, createdAt,
    updatedAt, createdBy⟩

/-- Whether a workflow may run. -/
def isActive (w : Workflow) : Bool := w.status == .active

end Workflow

/-- The fields of a workflow that a partial update sets. -/
structure WorkflowUpdate where
  name : Option String
  description : Option String
  status : Option WorkflowStatus
  triggerEventType : Option String
  stepIds : Option (List String)
  defaults : Option Json
deriving DecidableEq

namespace WorkflowUpdate

/-- The update that sets nothing. -/
def empty : WorkflowUpdate := ⟨none, none, none, none, none, none⟩

/-- The fields of an update in order of declaration, and what may be written for them. -/
def fieldShapes : List (String × Shape) :=
  [("name", .optional .text), ("description", .optional .text),
    ("status", .optional (.oneOf WorkflowStatus.ofName?)),
    ("trigger_event_type", .optional .text), ("step_ids", .optional .texts),
    ("variables", .optional .free)]

/-- The fields of an update in order of declaration. -/
def fieldNames : List String := fieldShapes.map (·.1)

/-- What may be written for an update. -/
def shape : Shape := .record fieldShapes

/-- An update as it is written. -/
def document (u : WorkflowUpdate) : Document :=
  .object [("name", .ofOption .string u.name), ("description", .ofOption .string u.description),
    ("status", .ofOption (fun s => .string s.name) u.status),
    ("trigger_event_type", .ofOption .string u.triggerEventType),
    ("step_ids", .ofOption .ofStrings u.stepIds), ("variables", .ofOption .ofJson u.defaults)]

/-- An update that is read. -/
def read (d : Document) : Reading WorkflowUpdate := do
  let fields ← Fields.ofDocument fieldNames d
  let name ← fields.optional "name" Document.readString
  let description ← fields.optional "description" Document.readString
  let status ← fields.optional "status" (Document.readName WorkflowStatus.ofName?)
  let triggerEventType ← fields.optional "trigger_event_type" Document.readString
  let stepIds ← fields.optional "step_ids" (Document.readList Document.readString)
  let defaults ← fields.optional "variables" Document.readJson
  return ⟨name, description, status, triggerEventType, stepIds, defaults⟩

/-- The workflow with the fields of an update set, updated at a point of time. -/
def apply (u : WorkflowUpdate) (time : Instant) (w : Workflow) : Workflow :=
  { w with
    name := u.name.getD w.name
    description := u.description.getD w.description
    status := u.status.getD w.status
    triggerEventType := u.triggerEventType.getD w.triggerEventType
    stepIds := u.stepIds.getD w.stepIds
    defaults := u.defaults.getD w.defaults
    updatedAt := time }

end WorkflowUpdate

/-- What a list of workflows is narrowed to. -/
structure WorkflowFilter where
  status : Option WorkflowStatus
  trigger : Option String
  search : Option String
deriving DecidableEq

namespace WorkflowFilter

/-- The fields of a filter in order of declaration. -/
def fieldNames : List String := ["status", "trigger", "search"]

/-- A filter as it is written. -/
def document (f : WorkflowFilter) : Document :=
  .object [("status", .ofOption (fun s => .string s.name) f.status),
    ("trigger", .ofOption .string f.trigger), ("search", .ofOption .string f.search)]

/-- A filter that is read. -/
def read (d : Document) : Reading WorkflowFilter := do
  let fields ← Fields.ofDocument fieldNames d
  let status ← fields.optional "status" (Document.readName WorkflowStatus.ofName?)
  let trigger ← fields.optional "trigger" Document.readString
  let search ← fields.optional "search" Document.readString
  return ⟨status, trigger, search⟩

end WorkflowFilter

end EventFlow
