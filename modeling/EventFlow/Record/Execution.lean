import EventFlow.Record.Step
import EventFlow.Record.Workflow

/-!
# Executions

An execution is one run of a workflow over the data of one event. It begins running; results and
errors are added at the end of their lists, and `finish` moves it once to a terminal status.
-/

set_option autoImplicit false

namespace EventFlow

/-- The states of an execution. -/
inductive ExecutionStatus where
  | running
  | completed
  | stopped
  | failed
deriving DecidableEq

namespace ExecutionStatus

/-- The name of a status. -/
def name : ExecutionStatus → String
  | running => "running"
  | completed => "completed"
  | stopped => "stopped"
  | failed => "failed"

/-- The status of a name. -/
def ofName? (text : String) : Option ExecutionStatus :=
  [running, completed, stopped, failed].find? (·.name == text)

/-- The status of a name, or why there is none. -/
def parse (text : String) : Except String ExecutionStatus :=
  match ofName? text with
  | some status => .ok status
  | none => .error s!"unknown execution status: {text}"

/-- Whether an execution in this status is over. -/
def isTerminal (status : ExecutionStatus) : Bool := status != .running

theorem ofName?_name (status : ExecutionStatus) : ofName? status.name = some status := by
  cases status <;> decide

end ExecutionStatus

/-- The output of one step that ran. -/
structure StepResult where
  stepId : String
  stepName : String
  output : Json
  timestamp : Instant
deriving DecidableEq

/-- A failure at a position of the workflow's step list. -/
structure ExecutionError where
  stepIndex : Nat
  stepId : String
  message : String
  timestamp : Instant
deriving DecidableEq

/-- One run of a workflow over one event's data. -/
structure Execution where
  id : Uuid
  workflowId : String
  workflowName : String
  data : Json
  status : ExecutionStatus
  currentStepIndex : Nat
  results : List StepResult
  errors : List ExecutionError
  startedAt : Instant
  completedAt : Option Instant
  createdBy : String
deriving DecidableEq

namespace StepResult

/-- The fields of a result in order of declaration. -/
def fieldNames : List String := ["step_id", "step_name", "output", "timestamp"]

/-- A result as it is written. -/
def document (r : StepResult) : Document :=
  .object [("step_id", .string r.stepId), ("step_name", .string r.stepName),
    ("output", .ofJson r.output), ("timestamp", .ofInstant r.timestamp)]

/-- A result that is read. -/
def read (d : Document) : Reading StepResult := do
  let fields ← Fields.ofDocument fieldNames d
  let stepId ← fields.required "step_id" Document.readString
  let stepName ← fields.required "step_name" Document.readString
  let output ← fields.required "output" Document.readJson
  let timestamp ← fields.required "timestamp" Document.readInstant
  return ⟨stepId, stepName, output, timestamp⟩

end StepResult

namespace ExecutionError

/-- The fields of an error in order of declaration. -/
def fieldNames : List String := ["step_index", "step_id", "message", "timestamp"]

/-- An error as it is written. -/
def document (e : ExecutionError) : Document :=
  .object [("step_index", .ofNat e.stepIndex), ("step_id", .string e.stepId),
    ("message", .string e.message), ("timestamp", .ofInstant e.timestamp)]

/-- An error that is read. -/
def read (d : Document) : Reading ExecutionError := do
  let fields ← Fields.ofDocument fieldNames d
  let stepIndex ← fields.required "step_index" (Document.readNat UInt64.size)
  let stepId ← fields.required "step_id" Document.readString
  let message ← fields.required "message" Document.readString
  let timestamp ← fields.required "timestamp" Document.readInstant
  return ⟨stepIndex, stepId, message, timestamp⟩

end ExecutionError

namespace Execution

/-- The fields of an execution in order of declaration. -/
def fieldNames : List String :=
  ["id", "workflow_id", "workflow_name", "data", "status", "current_step_index", "results",
    "errors", "started_at", "completed_at", "created_by"]

/-- An execution as it is written. -/
def document (e : Execution) : Document :=
  .object [("id", .string e.id.text), ("workflow_id", .string e.workflowId),
    ("workflow_name", .string e.workflowName), ("data", .ofJson e.data),
    ("status", .string e.status.name), ("current_step_index", .ofNat e.currentStepIndex),
    ("results", .array (e.results.map StepResult.document)),
    ("errors", .array (e.errors.map ExecutionError.document)),
    ("started_at", .ofInstant e.startedAt), ("completed_at", .ofOption .ofInstant e.completedAt),
    ("created_by", .string e.createdBy)]

/-- An execution that is read. -/
def read (d : Document) : Reading Execution := do
  let fields ← Fields.ofDocument fieldNames d
  let id ← fields.required "id" Document.readUuid
  let workflowId ← fields.required "workflow_id" Document.readString
  let workflowName ← fields.required "workflow_name" Document.readString
  let data ← fields.required "data" Document.readJson
  let status ← fields.required "status" (Document.readName ExecutionStatus.ofName?)
  let currentStepIndex ← fields.required "current_step_index" (Document.readNat UInt64.size)
  let results ← fields.required "results" (Document.readList StepResult.read)
  let errors ← fields.required "errors" (Document.readList ExecutionError.read)
  let startedAt ← fields.required "started_at" Document.readInstant
  let completedAt ← fields.optional "completed_at" Document.readInstant
  let createdBy ← fields.required "created_by" Document.readString
  return ⟨id, workflowId, workflowName, data, status, currentStepIndex, results, errors,
    startedAt, completedAt, createdBy⟩

/-- A running execution of a workflow over data, with an identifier of its own. -/
def begin (workflow : Workflow) (data : Json) (createdBy : String) (supply : Supply) :
    Execution × Supply :=
  let (id, supply) := supply.freshId
  let (startedAt, supply) := supply.now
  (⟨id, workflow.id, workflow.name, data, .running, 0, [], [], startedAt, none, createdBy⟩, supply)

/-- The execution with one more result. -/
def pushResult (stepId stepName : String) (output : Json) (time : Instant) (e : Execution) :
    Execution :=
  { e with results := e.results ++ [⟨stepId, stepName, output, time⟩] }

/-- The execution with one more error. -/
def pushError (index : Nat) (stepId message : String) (time : Instant) (e : Execution) :
    Execution :=
  { e with errors := e.errors ++ [⟨index, stepId, message, time⟩] }

/-- Whether an execution can be moved to a status: it is running and the status is terminal. -/
def canFinish (status : ExecutionStatus) (e : Execution) : Bool :=
  !e.status.isTerminal && status.isTerminal

/-- The execution moved to a terminal status; it stays as it is if it cannot be. -/
def finish (status : ExecutionStatus) (time : Instant) (e : Execution) : Execution :=
  if e.canFinish status then { e with status := status, completedAt := some time } else e

theorem finish_of_canFinish {status : ExecutionStatus} {e : Execution} (time : Instant)
    (h : e.canFinish status = true) :
    e.finish status time = { e with status := status, completedAt := some time } := by
  simp [finish, h]

theorem finish_of_not_canFinish {status : ExecutionStatus} {e : Execution} (time : Instant)
    (h : e.canFinish status = false) : e.finish status time = e := by
  simp [finish, h]

end Execution

/-- What a query of past executions is narrowed to; both bounds are inclusive. -/
structure ExecutionFilter where
  workflowId : Option String
  status : Option ExecutionStatus
  startedFrom : Option Instant
  startedTo : Option Instant
deriving DecidableEq

namespace ExecutionFilter

/-- The fields of a filter in order of declaration. -/
def fieldNames : List String := ["workflow_id", "status", "started_from", "started_to"]

/-- A filter as it is written. -/
def document (f : ExecutionFilter) : Document :=
  .object [("workflow_id", .ofOption .string f.workflowId),
    ("status", .ofOption (fun s => .string s.name) f.status),
    ("started_from", .ofOption .ofInstant f.startedFrom),
    ("started_to", .ofOption .ofInstant f.startedTo)]

/-- A filter that is read. -/
def read (d : Document) : Reading ExecutionFilter := do
  let fields ← Fields.ofDocument fieldNames d
  let workflowId ← fields.optional "workflow_id" Document.readString
  let status ← fields.optional "status" (Document.readName ExecutionStatus.ofName?)
  let startedFrom ← fields.optional "started_from" Document.readInstant
  let startedTo ← fields.optional "started_to" Document.readInstant
  return ⟨workflowId, status, startedFrom, startedTo⟩

/-- Whether an execution is within all bounds that are given. -/
def admits (f : ExecutionFilter) (e : Execution) : Bool :=
  f.workflowId.all (· == e.workflowId) && f.status.all (· == e.status) &&
    f.startedFrom.all (·.notAfter e.startedAt) && f.startedTo.all (e.startedAt.notAfter ·)

end ExecutionFilter

end EventFlow
