import EventFlow.Record.Action
import EventFlow.Record.Condition
import EventFlow.Record.Execution
import EventFlow.Record.Step
import EventFlow.Record.Workflow

/-!
# The five collections

Four tables of definitions keyed by record identifier, and the ledger of executions in the order
of recording. They are written as one object of five lists; where a list names an identifier
twice, the later record is kept.
-/

set_option autoImplicit false

namespace EventFlow

/-- Records in ascending order of their identifiers. -/
abbrev Table (α : Type) := List (String × α)

/-- The records of a table in order. -/
def Table.records {α : Type} (table : Table α) : List α := table.map (·.2)

/-- Everything a store holds. -/
structure Collections where
  workflows : Table Workflow
  steps : Table Step
  conditions : Table Condition
  actions : Table Action
  executions : List Execution
deriving DecidableEq

/-- A record that a store keeps in a table of its own. -/
class Definition (α : Type) where
  /-- The word for a record of the kind, in errors. -/
  collection : String
  /-- The word that generated identifiers begin with. -/
  idWord : String
  id : α → String
  withId : String → α → α
  table : Collections → Table α
  setTable : Table α → Collections → Collections

namespace Definition

instance : Definition Workflow where
  collection := "workflow"
  idWord := "workflow"
  id := Workflow.id
  withId id w := { w with id }
  table := Collections.workflows
  setTable t c := { c with workflows := t }

instance : Definition Step where
  collection := "step"
  idWord := "step"
  id := Step.id
  withId id s := { s with id }
  table := Collections.steps
  setTable t c := { c with steps := t }

instance : Definition Condition where
  collection := "condition"
  idWord := "condition"
  id := Condition.id
  withId id x := { x with id }
  table := Collections.conditions
  setTable t c := { c with conditions := t }

instance : Definition Action where
  collection := "action"
  idWord := "action"
  id := Action.id
  withId id a := { a with id }
  table := Collections.actions
  setTable t c := { c with actions := t }

end Definition

/-- A list of records as a table; of two with one identifier the later is kept. -/
def Table.ofRecords {α : Type} [Definition α] (records : List α) : Table α :=
  Assoc.ofList (records.map fun r => (Definition.id r, r))

namespace Collections

/-- Collections that hold nothing. -/
def empty : Collections := ⟨[], [], [], [], []⟩

instance : Inhabited Collections := ⟨empty⟩

/-- The fields of the collections in order of declaration. -/
def fieldNames : List String := ["workflows", "steps", "conditions", "actions", "executions"]

/-- The collections as they are written. -/
def document (c : Collections) : Document :=
  .object [("workflows", .array (c.workflows.records.map Workflow.document)),
    ("steps", .array (c.steps.records.map Step.document)),
    ("conditions", .array (c.conditions.records.map Condition.document)),
    ("actions", .array (c.actions.records.map Action.document)),
    ("executions", .array (c.executions.map Execution.document))]

/-- Collections that are read. -/
def read (d : Document) : Reading Collections := do
  let fields ← Fields.ofDocument fieldNames d
  let workflows ← fields.orElse "workflows" (Document.readList Workflow.read) (pure [])
  let steps ← fields.orElse "steps" (Document.readList Step.read) (pure [])
  let conditions ← fields.orElse "conditions" (Document.readList Condition.read) (pure [])
  let actions ← fields.orElse "actions" (Document.readList Action.read) (pure [])
  let executions ← fields.orElse "executions" (Document.readList Execution.read) (pure [])
  return ⟨.ofRecords workflows, .ofRecords steps, .ofRecords conditions, .ofRecords actions,
    executions⟩

end Collections

end EventFlow
