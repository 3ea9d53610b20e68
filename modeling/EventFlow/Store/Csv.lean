import EventFlow.Record.Execution

/-!
# Tables of cells as comma-separated text

Each record ends with a line feed. A cell that holds a comma, a quote, a line feed or a carriage
return stands between quotes, its own quotes doubled.
-/

set_option autoImplicit false

namespace EventFlow.Csv

/-- A text with every quote doubled. -/
def doubleQuotes : List Char → List Char
  | [] => []
  | c :: rest => if c = '"' then '"' :: '"' :: doubleQuotes rest else c :: doubleQuotes rest

/-- Whether a cell has to stand between quotes. -/
def needsQuotes (cell : List Char) : Bool :=
  cell.any fun c => c == ',' || c == '"' || c == '\n' || c == '\r'

/-- A cell as it is written. -/
def writeCell (cell : String) : List Char :=
  if needsQuotes cell.toList then '"' :: (doubleQuotes cell.toList ++ ['"']) else cell.toList

/-- Cells with commas between them. -/
def writeCells : List String → List Char
  | [] => []
  | [cell] => writeCell cell
  | cell :: rest => writeCell cell ++ ',' :: writeCells rest

/-- A record: its cells and a line feed. -/
def writeRecord (cells : List String) : List Char := writeCells cells ++ ['\n']

/-- A table: one record after the other. -/
def write (records : List (List String)) : String := String.ofList (records.flatMap writeRecord)

/-- The columns of a table of workflows. -/
def workflowColumns : List String :=
  ["id", "name", "description", "status", "trigger", "steps", "created"]

/-- The cells of a workflow. -/
def workflowCells (w : Workflow) : List String :=
  [w.id, w.name, w.description, w.status.name, w.triggerEventType, toString w.stepIds.length,
    w.createdAt.dateText]

/-- A table of workflows with its header. -/
def workflows (rows : List Workflow) : String := write (workflowColumns :: rows.map workflowCells)

/-- The columns of a table of executions. -/
def executionColumns : List String :=
  ["id", "workflow_id", "workflow_name", "status", "started_at", "completed_at", "results",
    "errors", "created_by"]

/-- The cells of an execution. -/
def executionCells (e : Execution) : List String :=
  [e.id.text, e.workflowId, e.workflowName, e.status.name, e.startedAt.offsetText,
    (e.completedAt.map Instant.offsetText).getD "", toString e.results.length,
    toString e.errors.length, e.createdBy]

/-- A table of executions with its header. -/
def executions (rows : List Execution) : String :=
  write (executionColumns :: rows.map executionCells)

end EventFlow.Csv
