import EventFlow.Engine.Validation
import EventFlow.Handler.Outbox
import EventFlow.Store.Bundle
import EventFlow.Text.Columns
import EventFlow.Text.Quoted

/-!
# What commands print

The lines that commands print, without the line feeds that end them.
-/

set_option autoImplicit false

namespace EventFlow.CommandLine

/-- A list of texts, each between quotation marks. -/
def quotedList (texts : List String) : String :=
  "[" ++ String.intercalate ", " (texts.map Text.quoted) ++ "]"

/-- What is said of a bundle that was loaded into the store of a path. -/
def loadedLine (report : SeedReport) (path : String) : String :=
  let created := report.created
  let skipped := report.skipped
  s!"Loaded {created} definition(s), {skipped} already present ({path})"

/-- What is said of a workflow that was validated. -/
def validationLines (id : String) : Except (List Issue) (List String) → List String
  | .ok order => [s!"✅ {id} is valid. Step order: " ++ quotedList order]
  | .error issues =>
    let count := issues.length
    s!"❌ {id} has {count} issue(s):" :: issues.map fun issue => "   - " ++ issue.message

/-- A step of a workflow, and whether the workflow lists it. -/
def stepLine (w : Workflow) (s : Step) : String :=
  let order := s.order.toNat
  let id := s.id
  let kind := s.kind.name
  let name := s.name
  let listed := if w.stepIds.contains s.id then "" else " (not in step_ids)"
  s!"  #{order} {id} [{kind}] {name}{listed}"

/-- A workflow and its steps. -/
def workflowLines (w : Workflow) (steps : List Step) : List String :=
  let id := w.id
  let name := w.name
  let status := w.status.name
  let trigger := w.triggerEventType
  let title := s!"{name} ({id}) [{status}] on '{trigger}'"
  let description := if w.description.isEmpty then [] else ["  " ++ w.description]
  title :: (description ++ steps.map (stepLine w))

/-- An error of an execution. -/
def errorLine (e : ExecutionError) : String :=
  let index := e.stepIndex
  let id := e.stepId
  let message := e.message
  s!"    step {index} [{id}]: {message}"

/-- An execution that an event started, and its errors. -/
def startedLines (e : Execution) : List String :=
  let id := e.id.text
  let workflow := e.workflowId
  let status := e.status.name
  let results := e.results.length
  let errors := e.errors.length
  s!"  {id} {workflow} {status} ({results} results, {errors} errors)" :: e.errors.map errorLine

/-- A message that waits in the outbox. -/
def messageLine (m : Message) : String := "  outbox: " ++ m.document.compact

/-- An execution of the ledger. -/
def executionLine (e : Execution) : String :=
  let id := e.id.text
  let workflow := Text.filled 24 e.workflowId
  let status := Text.filled 9 e.status.name
  let started := e.startedAt.offsetText
  let results := e.results.length
  let errors := e.errors.length
  s!"{id} {workflow} {status} {started} results={results} errors={errors}"

end EventFlow.CommandLine
