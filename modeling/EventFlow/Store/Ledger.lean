import EventFlow.Store.Basic

/-!
# The ledger of executions

Finished executions are appended once and never change. A query lists them newest first, the one
recorded later before the one recorded earlier where they started at the same time.
-/

set_option autoImplicit false

namespace EventFlow

/-- Counts over the workflows and the ledger. -/
structure Statistics where
  totalWorkflows : Nat
  activeWorkflows : Nat
  totalExecutions : Nat
  completedExecutions : Nat
  stoppedExecutions : Nat
  failedExecutions : Nat
  /-- The percentage of executions that completed. -/
  successRate : Binary64
deriving DecidableEq

namespace Statistics

/-- The fields of the statistics in order of declaration. -/
def fieldNames : List String :=
  ["total_workflows", "active_workflows", "total_executions", "completed_executions",
    "stopped_executions", "failed_executions", "success_rate"]

/-- Statistics as they are written. -/
def document (s : Statistics) : Document :=
  .object [("total_workflows", .ofNat s.totalWorkflows),
    ("active_workflows", .ofNat s.activeWorkflows),
    ("total_executions", .ofNat s.totalExecutions),
    ("completed_executions", .ofNat s.completedExecutions),
    ("stopped_executions", .ofNat s.stoppedExecutions),
    ("failed_executions", .ofNat s.failedExecutions),
    ("success_rate", .number (.float s.successRate))]

/-- Statistics that are read. -/
def read (d : Document) : Reading Statistics := do
  let fields ← Fields.ofDocument fieldNames d
  let count := Document.readNat UInt64.size
  let totalWorkflows ← fields.required "total_workflows" count
  let activeWorkflows ← fields.required "active_workflows" count
  let totalExecutions ← fields.required "total_executions" count
  let completedExecutions ← fields.required "completed_executions" count
  let stoppedExecutions ← fields.required "stopped_executions" count
  let failedExecutions ← fields.required "failed_executions" count
  let successRate ← fields.required "success_rate" Document.readFloat
  return ⟨totalWorkflows, activeWorkflows, totalExecutions, completedExecutions,
    stoppedExecutions, failedExecutions, successRate⟩

/-- A part of a whole in percent, zero of nothing: the quotient is rounded to a double, and so is
its product with a hundred. -/
def percentage (part whole : Nat) : Binary64 :=
  let double (n : Nat) := (Binary64.ofNat n).toFinite?.getD Binary64.zero
  if whole = 0 then Binary64.zero
  else
    let quotient := ((double part).div (double whole)).toFinite?.getD Binary64.zero
    (quotient.mul (double 100)).toFinite?.getD Binary64.zero

end Statistics

namespace Store

/-- The change that appends a finished execution. -/
def recording (e : Execution) : Change Unit := fun c =>
  if c.executions.any (·.id == e.id) then (.error (.alreadyRecorded e.id), c)
  else (.ok (), { c with executions := c.executions ++ [e] })

/-- Appends a finished execution to the ledger. -/
def record (s : Store) (e : Execution) : Except StoreError Unit × Store :=
  if e.status.isTerminal then s.commit (recording e) else (.error (.notTerminal e.id), s)

/-- The recorded execution of an identifier. -/
def getExecution (s : Store) (id : Uuid) : Except StoreError Execution :=
  match s.collections.executions.find? (·.id == id) with
  | some e => .ok e
  | none => .error (.notFound "execution" id.text)

/-- The recorded executions that a filter admits, newest first. -/
def query (s : Store) (filter : ExecutionFilter) : List Execution :=
  (s.collections.executions.reverse.filter filter.admits).mergeSort
    fun a b => b.startedAt.notAfter a.startedAt

/-- Counts over the workflows and the ledger. -/
def statistics (s : Store) : Statistics :=
  let executions := s.collections.executions
  let workflows := s.collections.workflows.records
  let count (status : ExecutionStatus) := executions.countP (·.status == status)
  ⟨workflows.length, workflows.countP Workflow.isActive, executions.length, count .completed,
    count .stopped, count .failed, Statistics.percentage (count .completed) executions.length⟩

end Store

end EventFlow
