import EventFlow.Store.Csv
import EventFlow.Store.Definitions
import EventFlow.Store.Ledger
import EventFlow.Store.Workflows

/-!
# Bundles of definitions

The definitions of a store are exported as a bundle, which `seed` adds to another store: records
whose identifiers are taken are skipped, all others created. The ledger is exported newest first.
-/

set_option autoImplicit false

namespace EventFlow

/-- Every definition of a store, and the time of the export. -/
structure DefinitionsExport where
  workflows : List Workflow
  steps : List Step
  conditions : List Condition
  actions : List Action
  exportDate : Instant
deriving DecidableEq

namespace DefinitionsExport

/-- The fields of an export in order of declaration. -/
def fieldNames : List String := ["workflows", "steps", "conditions", "actions", "export_date"]

/-- An export as it is written. -/
def document (x : DefinitionsExport) : Document :=
  .object [("workflows", .array (x.workflows.map Workflow.document)),
    ("steps", .array (x.steps.map Step.document)),
    ("conditions", .array (x.conditions.map Condition.document)),
    ("actions", .array (x.actions.map Action.document)),
    ("export_date", .ofInstant x.exportDate)]

/-- An export that is read. -/
def read (d : Document) : Reading DefinitionsExport := do
  let fields ← Fields.ofDocument fieldNames d
  let workflows ← fields.required "workflows" (Document.readList Workflow.read)
  let steps ← fields.required "steps" (Document.readList Step.read)
  let conditions ← fields.required "conditions" (Document.readList Condition.read)
  let actions ← fields.required "actions" (Document.readList Action.read)
  let exportDate ← fields.required "export_date" Document.readInstant
  return ⟨workflows, steps, conditions, actions, exportDate⟩

end DefinitionsExport

/-- The formats of an export. -/
inductive ExportFormat where
  | json
  | csv
deriving DecidableEq

/-- What is exported. -/
inductive ExportTarget where
  | workflows
  | executions
deriving DecidableEq

namespace ExportFormat

/-- The name of a format. -/
def name : ExportFormat → String
  | json => "json"
  | csv => "csv"

/-- The format of a name. -/
def ofName? (text : String) : Option ExportFormat := [json, csv].find? (·.name == text)

end ExportFormat

namespace ExportTarget

/-- The name of a target. -/
def name : ExportTarget → String
  | workflows => "workflows"
  | executions => "executions"

/-- The target of a name. -/
def ofName? (text : String) : Option ExportTarget := [workflows, executions].find? (·.name == text)

end ExportTarget

/-- How many records of a bundle were created and how many were there already. -/
structure SeedReport where
  created : Nat
  skipped : Nat
deriving DecidableEq

namespace Store

/-- Every definition of the store, stamped with a time. -/
def definitions (s : Store) (time : Instant) : DefinitionsExport :=
  ⟨s.list Workflow, s.list Step, s.list Condition, s.list Action, time⟩

/-- The text of an export. -/
def exportText (s : Store) (format : ExportFormat) (target : ExportTarget) (supply : Supply) :
    String × Supply :=
  match target, format with
  | .workflows, .json =>
    let (time, supply) := supply.now
    ((s.definitions time).document.pretty, supply)
  | .workflows, .csv => (Csv.workflows (s.list Workflow), supply)
  | .executions, .json =>
    ((Document.array ((s.query ⟨none, none, none, none⟩).map Execution.document)).pretty, supply)
  | .executions, .csv => (Csv.executions (s.query ⟨none, none, none, none⟩), supply)

/-- A store while a bundle is added to it. -/
structure Seeding where
  store : Store
  supply : Supply
  report : SeedReport

/-- Adds one record: a duplicate counts as skipped, any other error ends the seeding. -/
def seedRecord {α : Type} (add : Store → α → Supply → Except StoreError α × Store × Supply)
    (x : Seeding) (record : α) : Except StoreError Unit × Seeding :=
  let (answer, store, supply) := add x.store record x.supply
  match answer with
  | .ok _ => (.ok (), ⟨store, supply, { x.report with created := x.report.created + 1 }⟩)
  | .error (.duplicate _ _) =>
    (.ok (), ⟨store, supply, { x.report with skipped := x.report.skipped + 1 }⟩)
  | .error e => (.error e, { x with store, supply })

/-- Adds records one after the other, up to the first error. -/
def seedRecords {α : Type} (add : Store → α → Supply → Except StoreError α × Store × Supply) :
    List α → Seeding → Except StoreError Unit × Seeding
  | [], x => (.ok (), x)
  | record :: rest, x =>
    match seedRecord add x record with
    | (.ok (), x) => seedRecords add rest x
    | (.error e, x) => (.error e, x)

/-- Adds a bundle: workflows first, then steps, conditions and actions. -/
def seed (s : Store) (bundle : Collections) (supply : Supply) :
    Except StoreError SeedReport × Store × Supply :=
  let start : Seeding := ⟨s, supply, ⟨0, 0⟩⟩
  let workflows := seedRecords createWorkflow bundle.workflows.records
  let steps := seedRecords create bundle.steps.records
  let conditions := seedRecords create bundle.conditions.records
  let actions := seedRecords create bundle.actions.records
  let (answer, x) := chain [workflows, steps, conditions, actions] start
  (answer.map fun () => x.report, x.store, x.supply)
where
  /-- Runs parts one after the other, up to the first error. -/
  chain : List (Seeding → Except StoreError Unit × Seeding) → Seeding →
      Except StoreError Unit × Seeding
    | [], x => (.ok (), x)
    | part :: rest, x =>
      match part x with
      | (.ok (), x) => chain rest x
      | (.error e, x) => (.error e, x)

end Store

end EventFlow
