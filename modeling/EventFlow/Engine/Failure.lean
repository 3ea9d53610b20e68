import EventFlow.Condition.Evaluate
import EventFlow.Handler.Basic
import EventFlow.Json.Printer
import EventFlow.Record.Step

/-!
# Failures of the engine

Why an attempt at a step fails, and why a workflow cannot be run at all. A failing attempt never
is an error of the run: it is recorded in the execution.
-/

set_option autoImplicit false

namespace EventFlow

/-- Why an attempt at a step fails. -/
inductive StepError where
  | missingStep (id : String)
  | missingAction (id : String)
  | missingCondition (id : String)
  /-- The duration of a wait is not a natural number. -/
  | invalidDuration (stepId : String) (value : Json)
  | condition (id : String) (error : ConditionError)
  /-- Steps of the kind have no interpretation of their own. -/
  | unsupportedKind (kind : StepKind)
  | action (id : String) (error : DispatchError)
  | timeout (stepId : String) (limit : UInt64)
deriving DecidableEq

namespace StepError

/-- What a reader is told. -/
def message : StepError → String
  | missingStep id => s!"step '{id}' not found"
  | missingAction id => s!"action '{id}' not found"
  | missingCondition id => s!"condition '{id}' not found"
  | invalidDuration stepId value =>
    let text := value.compact
    s!"invalid config for step '{stepId}': duration must be a non-negative integer, got {text}"
  | condition id error =>
    let text := error.message
    s!"condition '{id}': {text}"
  | unsupportedKind kind =>
    let name := kind.name
    s!"step kind '{name}' cannot be interpreted on its own"
  | action id error =>
    let text := error.message
    s!"action '{id}': {text}"
  | timeout stepId limit => s!"step '{stepId}' timed out after {limit}ms"

end StepError

/-- Why a workflow is not run. -/
inductive EngineError where
  | workflowNotFound (id : String)
  | workflowInactive (id : String)
deriving DecidableEq

namespace EngineError

/-- What a caller is told. -/
def message : EngineError → String
  | workflowNotFound id => s!"workflow '{id}' not found"
  | workflowInactive id => s!"workflow '{id}' is not active"

end EngineError

end EventFlow
