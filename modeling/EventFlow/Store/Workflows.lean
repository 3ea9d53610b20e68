import EventFlow.Store.Definitions
import EventFlow.Text.Lowercase

/-!
# Workflows in a store

Workflows are listed newest first. A partial update sets the fields it names and the time of the
update, and leaves the others.
-/

set_option autoImplicit false

namespace EventFlow

/-- Whether a workflow has the status, the trigger and the search text of a filter; the search
ignores case and looks into name and description. -/
def WorkflowFilter.admits (f : WorkflowFilter) (w : Workflow) : Bool :=
  f.status.all (· == w.status) && f.trigger.all (· == w.triggerEventType) &&
    f.search.all fun text =>
      let wanted := Text.lowercase text.toList
      Text.occursIn wanted (Text.lowercase w.name.toList) ||
        Text.occursIn wanted (Text.lowercase w.description.toList)

namespace Store

/-- Workflows sorted by the time of creation, newest first; ties keep their order. -/
def newestFirst (workflows : List Workflow) : List Workflow :=
  workflows.mergeSort fun a b => b.createdAt.notAfter a.createdAt

/-- The workflows that a filter admits, newest first. -/
def listWorkflows (s : Store) (filter : WorkflowFilter) : List Workflow :=
  newestFirst ((s.list Workflow).filter filter.admits)

/-- The active workflows that an event type triggers, newest first. -/
def findActive (s : Store) (eventType : String) : List Workflow :=
  s.listWorkflows ⟨some .active, some eventType, none⟩

/-- Adds a workflow, last updated when it was created. -/
def createWorkflow (s : Store) (w : Workflow) (supply : Supply) :
    Except StoreError Workflow × Store × Supply :=
  s.create { w with updatedAt := w.createdAt } supply

/-- Sets the fields of a workflow that an update names, and the time of the update. -/
def updateWorkflow (s : Store) (id : String) (update : WorkflowUpdate) (supply : Supply) :
    Except StoreError Workflow × Store × Supply :=
  let (time, later) := supply.now
  let (answer, s) := s.modify id (update.apply time)
  (answer, s, later)

/-- Sets the status of a workflow. -/
def setWorkflowStatus (s : Store) (id : String) (status : WorkflowStatus) (supply : Supply) :
    Except StoreError Workflow × Store × Supply :=
  s.updateWorkflow id { WorkflowUpdate.empty with status } supply

/-- The steps of a workflow, by order index and then by identifier. -/
def stepsOf (s : Store) (workflowId : String) : List Step :=
  ((s.list Step).filter (·.workflowId == workflowId)).mergeSort fun a b => a.order ≤ b.order

end Store

end EventFlow
