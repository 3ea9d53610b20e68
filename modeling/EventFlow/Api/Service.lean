import EventFlow.Api.Records
import EventFlow.Api.Route
import EventFlow.Engine.Trigger
import EventFlow.Engine.Validation
import EventFlow.Store.Bundle

/-!
# The interface

`Api.respond` answers a request. Every path that leads somewhere takes the methods listed for it
and no others; a `HEAD` request is a `GET` request whose response has no body, and an `OPTIONS`
request is granted everywhere.
-/

set_option autoImplicit false

namespace EventFlow.Api

open Http (Request Response Target)
open Serving

variable {σ : Type}

/-! ## Workflows -/

/-- Workflows as they are read and written. -/
def workflows : Codec Workflow := ⟨Workflow.shape, Workflow.read, Workflow.document⟩

/-- Shows a workflow. -/
def showWorkflow (w : Workflow) : Serving σ Response := showing 200 w.document

/-- Lists the workflows that the query admits. -/
def listWorkflows (t : Target) : Serving σ Response := do
  let filter ← query WorkflowFilter.read t
  listing Workflow.document ((← store).listWorkflows filter)

/-- Adds the workflow in the body. -/
def createWorkflow (request : Request) : Serving σ Response := do
  let w ← body Workflow.shape Workflow.read request
  showing 201 (← changing fun s => s.createWorkflow w).document

/-- Sets the fields of a workflow that the body names. -/
def updateWorkflow (segment : List Char) (request : Request) : Serving σ Response := do
  let id ← identifier segment
  let update ← body WorkflowUpdate.shape WorkflowUpdate.read request
  showWorkflow (← changing fun s => s.updateWorkflow id update)

/-- What may be written for a status in a body. -/
def statusShape : Shape := .record [("status", .oneOf WorkflowStatus.ofName?)]

/-- The status in a body. -/
def readStatus (d : Document) : Reading WorkflowStatus := do
  let fields ← Fields.ofDocument ["status"] d
  fields.required "status" (Document.readName WorkflowStatus.ofName?)

/-- Sets the status of a workflow. -/
def setStatus (segment : List Char) (request : Request) : Serving σ Response := do
  let id ← identifier segment
  let status ← body statusShape readStatus request
  showWorkflow (← changing fun s => s.setWorkflowStatus id status)

/-- Lists the steps of a workflow. -/
def listSteps (segment : List Char) : Serving σ Response := do
  let id ← identifier segment
  let _ ← finding (Store.get Workflow · id)
  listing Step.document ((← store).stepsOf id)

/-- Says whether a workflow is valid, its steps and its problems. -/
def validate (engine : Engine σ) (segment : List Char) : Serving σ Response := do
  let id ← identifier segment
  let w ← finding (Store.get Workflow · id)
  let (stepIds, issues) := match engine.validate (← store).collections w with
    | .ok stepIds => (stepIds, [])
    | .error issues => (w.stepIds, issues)
  showing 200 (.object [("valid", .bool issues.isEmpty), ("step_ids", .ofStrings stepIds),
    ("issues", .array (issues.map Issue.document))])

/-- Runs a workflow over the data in the body. -/
def execute (engine : Engine σ) (segment : List Char) (request : Request) :
    Serving σ Response := do
  let id ← identifier segment
  let data ← body .free Document.readJson request
  match ← running (engine.execute id data) with
  | .ok e => showing 200 e.document
  | .error e => throw (.engine e)

/-! ## Events -/

/-- What may be written for an event in a body. -/
def eventShape : Shape := .record [("event_type", .text), ("data", .free)]

/-- The type and the data of an event in a body. -/
def readEvent (d : Document) : Reading (String × Json) := do
  let fields ← Fields.ofDocument ["event_type", "data"] d
  let eventType ← fields.required "event_type" Document.readString
  let data ← fields.json "data" .null
  return (eventType, data)

/-- What was started, as it is written. -/
def startedDocument (s : Started) : Document :=
  .object [("workflow_id", .string s.workflowId), ("execution_id", .string s.executionId.text)]

/-- Starts the workflows that an event triggers, and does not wait for them. -/
def publish (engine : Engine σ) (request : Request) : Serving σ Response := do
  let (eventType, data) ← body eventShape readEvent request
  if Text.isBlankText eventType then throw .blankEventType
  let started ← running (engine.dispatch eventType data)
  showing 202 (.object [("event_type", .string eventType),
    ("executions", .array (started.map startedDocument))])

/-! ## The ledger and the exports -/

/-- The bounds in a query of executions. -/
def readExecutionQuery (d : Document) : Reading ExecutionFilter := do
  let fields ← Fields.ofDocument ["workflow_id", "status", "from", "to"] d
  let workflowId ← fields.optional "workflow_id" Document.readString
  let status ← fields.optional "status" (Document.readName ExecutionStatus.ofName?)
  let startedFrom ← fields.optional "from" Document.readInstant
  let startedTo ← fields.optional "to" Document.readInstant
  return ⟨workflowId, status, startedFrom, startedTo⟩

/-- Lists the executions that the query admits. -/
def listExecutions (t : Target) : Serving σ Response := do
  let filter ← query readExecutionQuery t
  listing Execution.document ((← store).query filter)

/-- Shows an execution. -/
def showExecution (segment : List Char) : Serving σ Response := do
  match Uuid.read? (← identifier segment) with
  | some id => showing 200 (← finding (·.getExecution id)).document
  | none => refuse .badIdentifier

/-- The format and the collection in the query of an export. -/
def readExport (d : Document) : Reading (ExportFormat × ExportTarget) := do
  let fields ← Fields.ofDocument ["format", "collection"] d
  let format ← fields.orElse "format" (Document.readName ExportFormat.ofName?) (pure .json)
  let collection ←
    fields.orElse "collection" (Document.readName ExportTarget.ofName?) (pure .workflows)
  return (format, collection)

/-- The content type of an export. -/
def exportType : ExportFormat → String
  | .json => Response.jsonType
  | .csv => "text/csv; charset=utf-8"

/-- Exports a collection. -/
def exportAll (t : Target) : Serving σ Response := do
  let (format, collection) ← query readExport t
  let text ← running fun m =>
    let (text, supply) := m.store.exportText format collection m.supply
    (text, { m with supply })
  return ⟨200, some (exportType format), text⟩

/-! ## Every route -/

/-- Answers a request with a method to a route. -/
def serve (engine : Engine σ) (request : Request) (t : Target) :
    Route → Http.Method → Serving σ Response
  | .workflows, .get => listWorkflows t
  | .workflows, .post => createWorkflow request
  | .workflow id, .get => workflows.get id
  | .workflow id, .put => updateWorkflow id request
  | .workflow id, .delete => workflows.delete id
  | .status id, .post => setStatus id request
  | .steps id, .get => listSteps id
  | .validation id, .get => validate engine id
  | .execute id, .post => execute engine id request
  | .records .step, method => steps.all request method
  | .records .condition, method => conditions.all request method
  | .records .action, method => actions.all request method
  | .record .step id, method => steps.one id request method
  | .record .condition id, method => conditions.one id request method
  | .record .action id, method => actions.one id request method
  | .events, .post => publish engine request
  | .executions, .get => listExecutions t
  | .execution id, .get => showExecution id
  | .statistics, .get => do showing 200 (← store).statistics.document
  | .exports, .get => exportAll t
  | _, _ => refuse .wrongMethod

/-- Answers a request with a method to a target. -/
def serveTarget (engine : Engine σ) (request : Request) (method : Http.Method) :
    Serving σ Response :=
  let t := Target.ofText request.target
  match Route.ofTarget? t with
  | some route => serve engine request t route method
  | none => refuse .unknownPath

/-- The response to a request, and the machine after it. -/
def respond (engine : Engine σ) (request : Request) (m : Machine σ) : Response × Machine σ :=
  let answer (method : Http.Method) : Response × Machine σ :=
    let (result, m) := (serveTarget engine request method).run.run m
    match result with
    | .ok response => (response, m)
    | .error f => (f.response, m)
  match request.method with
  | .options => (.empty 200, m)
  | .head =>
    let (response, m) := answer .get
    ({ response with body := "" }, m)
  | method => answer method

end EventFlow.Api
