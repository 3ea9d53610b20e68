import EventFlow.Proofs.Data.Uuid
import EventFlow.Proofs.Store.Mutation
import EventFlow.Proofs.Store.Tables

/-!
# Requests for definitions

A `Store.Request` is one of the calls by which definitions are put into a store, looked up, changed
and taken out. Each of them keeps what the change it makes keeps, whether or not the store takes the
change (`Store.keeps_commit`). So the tables stay tidy, with a record under its own identifier and
the identifiers ascending (`Store.Request.tidy_perform`), no identifier becomes blank
(`Store.Request.named_perform`), and the ledger is never touched
(`Store.Request.executions_perform`). The calls are those of `EventFlow.Store.Definitions` and
`EventFlow.Store.Workflows`.
-/

set_option autoImplicit false

namespace EventFlow

/-! ## Kinds of definitions -/

/-- The kinds of definitions. -/
inductive Kind where
  | workflow
  | step
  | condition
  | action
deriving DecidableEq

namespace Kind

/-- The records of a kind. -/
abbrev Record : Kind → Type
  | workflow => Workflow
  | step => Step
  | condition => Condition
  | action => Action

instance : (k : Kind) → Definition k.Record
  | workflow => inferInstanceAs (Definition Workflow)
  | step => inferInstanceAs (Definition Step)
  | condition => inferInstanceAs (Definition Condition)
  | action => inferInstanceAs (Definition Action)

@[simp] theorem id_withId {k : Kind} (id : String) (r : k.Record) :
    Definition.id (Definition.withId id r) = id := by
  cases k <;> rfl

end Kind

namespace Collections

/-- The table of a kind. -/
def table (k : Kind) (c : Collections) : Table k.Record := Definition.table c

@[simp] theorem table_setTable {k : Kind} (t : Table k.Record) (c : Collections) :
    (Definition.setTable t c).table k = t := by
  cases k <;> rfl

/-- A table that is set is nothing to those of other kinds. -/
theorem table_setTable_of_ne {k other : Kind} (apart : other ≠ k) (t : Table k.Record)
    (c : Collections) : (Definition.setTable t c).table other = c.table other := by
  cases k <;> cases other <;> simp at apart <;> rfl

theorem setTable_table (k : Kind) (c : Collections) : Definition.setTable (c.table k) c = c := by
  cases k <;> rfl

/-- Of two tables of one kind the later counts. -/
theorem setTable_setTable {k : Kind} (t t' : Table k.Record) (c : Collections) :
    Definition.setTable t' (Definition.setTable t c) = Definition.setTable t' c := by
  cases k <;> rfl

/-- Collections with the same tables and the same ledger are the same. -/
theorem ext_tables {c c' : Collections} (tables : ∀ k, c.table k = c'.table k)
    (executions : c.executions = c'.executions) : c = c' := by
  obtain ⟨workflows, steps, conditions, actions, runs⟩ := c
  obtain rfl : workflows = c'.workflows := tables .workflow
  obtain rfl : steps = c'.steps := tables .step
  obtain rfl : conditions = c'.conditions := tables .condition
  obtain rfl : actions = c'.actions := tables .action
  obtain rfl : runs = c'.executions := executions
  rfl

/-- No table of definitions is the ledger. -/
@[simp] theorem executions_setTable {k : Kind} (t : Table k.Record) (c : Collections) :
    (Definition.setTable t c).executions = c.executions := by
  cases k <;> rfl

end Collections

/-! ## Tidy tables -/

/-- Records in ascending order of their identifiers, each under its own. -/
structure Table.Tidy {α : Type} [Definition α] (table : Table α) : Prop where
  ascending : Assoc.Ascending table
  keyed : table.Keyed

namespace Table.Tidy

variable {α : Type} [Definition α] {table : Table α}

/-- An empty table is tidy. -/
theorem nil : Table.Tidy ([] : Table α) := ⟨Assoc.ascending_nil, nofun⟩

/-- A record that is put under its own identifier leaves a table tidy. -/
theorem insert (h : table.Tidy) (r : α) :
    Table.Tidy (Assoc.insert (Definition.id r) r table) := by
  refine ⟨Assoc.ascending_insert _ r h.ascending, fun entry hentry => ?_⟩
  rcases Assoc.mem_insert hentry with rfl | old
  · rfl
  · exact h.keyed entry old

/-- A table that loses a record stays tidy. -/
theorem erase (h : table.Tidy) (key : String) : Table.Tidy (Assoc.erase key table) :=
  ⟨Assoc.ascending_erase key h.ascending, fun entry hentry =>
    h.keyed entry (Assoc.mem_of_mem_erase hentry)⟩

end Table.Tidy

/-- All tables are tidy. -/
def Collections.Tidy (c : Collections) : Prop := ∀ k, (c.table k).Tidy

/-- No identifier in the tables is blank. -/
def Collections.Named (c : Collections) : Prop :=
  ∀ k, ∀ entry ∈ c.table k, Text.isBlankText entry.1 = false

namespace Collections

variable {c : Collections} {k : Kind}

/-- Collections with another table in the place of one are tidy if it is. -/
theorem Tidy.setTable (h : c.Tidy) {t : Table k.Record} (tidy : t.Tidy) :
    (Definition.setTable t c).Tidy := by
  intro other
  by_cases same : other = k
  · subst same
    rwa [table_setTable]
  · rw [table_setTable_of_ne same]
    exact h other

/-- Identifiers stay unblank if those of the new table are. -/
theorem Named.setTable (h : c.Named) {t : Table k.Record}
    (named : ∀ entry ∈ t, Text.isBlankText entry.1 = false) : (Definition.setTable t c).Named := by
  intro other
  by_cases same : other = k
  · subst same
    rwa [table_setTable]
  · rw [table_setTable_of_ne same]
    exact h other

end Collections

/-! ## What changes keep -/

namespace Store

variable {k : Kind}

/-- A generated identifier has an underscore in it. -/
theorem isBlankText_recordId (word : String) (supply : Supply) :
    Text.isBlankText (supply.recordId word).1 = false := by
  simp [Supply.recordId, Text.isBlankText, show Text.isBlank '_' = false by decide]

/-- No record is put into a store under a blank identifier. -/
theorem isBlankText_identified (r : k.Record) (supply : Supply) :
    Text.isBlankText (Definition.id (identified r supply).1) = false := by
  unfold identified
  split
  · rw [Kind.id_withId]
    exact isBlankText_recordId _ supply
  · next named => exact Bool.eq_false_iff.2 named

/-- To add a record keeps the tables tidy, or is refused. -/
theorem tidy_creation (r : k.Record) : (creation r).Keeps Collections.Tidy := by
  intro c h
  unfold creation
  split
  · exact h
  · exact h.setTable ((h k).insert r)

/-- To edit a record keeps the tables tidy: the record keeps its identifier. -/
theorem tidy_modification (key : String) (edit : k.Record → k.Record) :
    (modification key edit).Keeps Collections.Tidy := by
  intro c h
  unfold modification
  split
  · next r _ =>
    have inserted := (h k).insert (Definition.withId key (edit r))
    rw [Kind.id_withId] at inserted
    exact h.setTable inserted
  · exact h

/-- To delete a record keeps the tables tidy. -/
theorem tidy_deletion (key : String) : (deletion k.Record key).Keeps Collections.Tidy := by
  intro c h
  unfold deletion
  split
  · exact h.setTable ((h k).erase key)
  · exact h

/-- A record with an identifier that is not blank may be added. -/
theorem named_creation {r : k.Record} (named : Text.isBlankText (Definition.id r) = false) :
    (creation r).Keeps Collections.Named := by
  intro c h
  unfold creation
  split
  · exact h
  · refine h.setTable fun entry hentry => ?_
    rcases Assoc.mem_insert hentry with rfl | old
    · exact named
    · exact h k entry old

theorem named_modification (key : String) (edit : k.Record → k.Record) :
    (modification key edit).Keeps Collections.Named := by
  intro c h
  unfold modification
  split
  · next r found =>
    -- The key is one that the table has already.
    refine h.setTable fun entry hentry => ?_
    rcases Assoc.mem_insert hentry with rfl | old
    · exact h k (key, r) (Assoc.mem_of_find? found)
    · exact h k entry old
  · exact h

theorem named_deletion (key : String) : (deletion k.Record key).Keeps Collections.Named := by
  intro c h
  unfold deletion
  split
  · exact h.setTable fun entry hentry => h k entry (Assoc.mem_of_mem_erase hentry)
  · exact h

/-- No table is touched by recording an execution. -/
theorem table_record (s : Store) (e : Execution) (k : Kind) :
    (s.record e).2.collections.table k = s.collections.table k := by
  refine keeps_record (P := fun c => c.table k = s.collections.table k) ?_ rfl
  intro c h
  unfold recording
  split
  · exact h
  · cases k <;> exact h

section Ledger

variable (ledger : List Execution)

/-- To add a record is nothing to the ledger. -/
theorem executions_creation (r : k.Record) :
    (creation r).Keeps fun c => c.executions = ledger := by
  rintro c rfl
  unfold creation
  split
  · rfl
  · exact Collections.executions_setTable _ c

/-- To edit a record is nothing to the ledger. -/
theorem executions_modification (key : String) (edit : k.Record → k.Record) :
    (modification key edit).Keeps fun c => c.executions = ledger := by
  rintro c rfl
  unfold modification
  split
  · exact Collections.executions_setTable _ c
  · rfl

/-- To delete a record is nothing to the ledger, even if it is a workflow that has run. -/
theorem executions_deletion (key : String) :
    (deletion k.Record key).Keeps fun c => c.executions = ledger := by
  rintro c rfl
  unfold deletion
  split
  · exact Collections.executions_setTable _ c
  · rfl

end Ledger

end Store

/-! ## Requests -/

/-- A call on the definitions of a store. -/
inductive Store.Request where
  | create (k : Kind) (r : k.Record)
  | createWorkflow (w : Workflow)
  | get (k : Kind) (id : String)
  | list (k : Kind)
  | replace (k : Kind) (id : String) (r : k.Record)
  | modify (k : Kind) (id : String) (edit : k.Record → k.Record)
  | updateWorkflow (id : String) (update : WorkflowUpdate)
  | setWorkflowStatus (id : String) (status : WorkflowStatus)
  | delete (k : Kind) (id : String)

/-- What a request is answered. -/
inductive Answer where
  | record (k : Kind) (r : k.Record)
  | records (k : Kind) (rs : List k.Record)
  | refused (e : StoreError)

/-- The answer of a call that ends with a record or an error. -/
def Answer.ofResult (k : Kind) : Except StoreError k.Record → Answer
  | .ok r => .record k r
  | .error e => .refused e

namespace Store.Request

/-- The kind and the identifier of the record that a request may add, change or take out. -/
def subject? (supply : Supply) : Request → Option (Kind × String)
  | create k r => some (k, Definition.id (Store.identified r supply).1)
  | createWorkflow w =>
    some (.workflow, (Store.identified { w with updatedAt := w.createdAt } supply).1.id)
  | get _ _ => none
  | list _ => none
  | replace k id _ => some (k, id)
  | modify k id _ => some (k, id)
  | updateWorkflow id _ => some (.workflow, id)
  | setWorkflowStatus id _ => some (.workflow, id)
  | delete k id => some (k, id)

/-- The answer of a store to a request, and the store after it. -/
def perform (s : Store) (supply : Supply) : Request → Answer × Store × Supply
  | create k r =>
    let (answer, s, supply) := s.create r supply
    (.ofResult k answer, s, supply)
  | createWorkflow w =>
    let (answer, s, supply) := s.createWorkflow w supply
    (.ofResult .workflow answer, s, supply)
  | get k id => (.ofResult k (s.get k.Record id), s, supply)
  | list k => (.records k (s.list k.Record), s, supply)
  | replace k id r =>
    let (answer, s) := s.replace id r
    (.ofResult k answer, s, supply)
  | modify k id edit =>
    let (answer, s) := s.modify id edit
    (.ofResult k answer, s, supply)
  | updateWorkflow id update =>
    let (answer, s, supply) := s.updateWorkflow id update supply
    (.ofResult .workflow answer, s, supply)
  | setWorkflowStatus id status =>
    let (answer, s, supply) := s.setWorkflowStatus id status supply
    (.ofResult .workflow answer, s, supply)
  | delete k id =>
    let (answer, s) := s.delete k.Record id
    (.ofResult k answer, s, supply)

/-- The answers of a store to requests, one after the other, and the store after them. -/
def performAll : List Request → Store → Supply → List Answer × Store × Supply
  | [], s, supply => ([], s, supply)
  | request :: rest, s, supply =>
    let (answer, s, supply) := request.perform s supply
    let (answers, s, supply) := performAll rest s supply
    (answer :: answers, s, supply)

/-- What adding, editing and removing a record keep is kept by every request. -/
theorem keeps_perform {P : Collections → Prop}
    (creation : ∀ {k : Kind} {r : k.Record}, Text.isBlankText (Definition.id r) = false →
      (Store.creation r).Keeps P)
    (modification : ∀ {k : Kind} (id : String) (edit : k.Record → k.Record),
      (Store.modification id edit).Keeps P)
    (deletion : ∀ {k : Kind} (id : String), (Store.deletion k.Record id).Keeps P)
    (request : Request) {s : Store} (supply : Supply) (h : P s.collections) :
    P (request.perform s supply).2.1.collections := by
  cases request with
  | create k r => exact Store.keeps_commit (creation (Store.isBlankText_identified r supply)) h
  | createWorkflow w =>
    exact Store.keeps_commit
      (creation (k := .workflow) (Store.isBlankText_identified (k := .workflow) _ supply)) h
  | get k id => exact h
  | list k => exact h
  | replace k id r => exact Store.keeps_commit (modification id fun _ => r) h
  | modify k id edit => exact Store.keeps_commit (modification id edit) h
  | updateWorkflow id update => exact Store.keeps_commit (modification (k := .workflow) id _) h
  | setWorkflowStatus id status =>
    exact Store.keeps_commit (modification (k := .workflow) id _) h
  | delete k id => exact Store.keeps_commit (deletion id) h

variable (request : Request) {s : Store} (supply : Supply)

/-- A request leaves the tables tidy. -/
theorem tidy_perform (h : s.collections.Tidy) : (request.perform s supply).2.1.collections.Tidy :=
  request.keeps_perform (fun _ => Store.tidy_creation _) Store.tidy_modification
    Store.tidy_deletion supply h

/-- No request puts a blank identifier into the tables. -/
theorem named_perform (h : s.collections.Named) :
    (request.perform s supply).2.1.collections.Named :=
  request.keeps_perform Store.named_creation Store.named_modification Store.named_deletion supply h

/-- No request touches the ledger. -/
theorem executions_perform (s : Store) :
    (request.perform s supply).2.1.collections.executions = s.collections.executions :=
  request.keeps_perform (fun _ => Store.executions_creation _ _) (Store.executions_modification _)
    (Store.executions_deletion _) supply rfl

/-- Requests one after the other keep the tables tidy. -/
theorem tidy_performAll (requests : List Request) {s : Store} (supply : Supply)
    (h : s.collections.Tidy) : (performAll requests s supply).2.1.collections.Tidy := by
  induction requests generalizing s supply with
  | nil => exact h
  | cons request rest ih => exact ih _ (request.tidy_perform supply h)

/-- Requests one after the other put no blank identifier into the tables. -/
theorem named_performAll (requests : List Request) {s : Store} (supply : Supply)
    (h : s.collections.Named) : (performAll requests s supply).2.1.collections.Named := by
  induction requests generalizing s supply with
  | nil => exact h
  | cons request rest ih => exact ih _ (request.named_perform supply h)

end Store.Request

end EventFlow
