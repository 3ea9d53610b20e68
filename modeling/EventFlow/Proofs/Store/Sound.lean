import EventFlow.Proofs.Record.Sound
import EventFlow.Proofs.Store.Mutation
import EventFlow.Proofs.Store.Tables

/-!
# Stores stay sound

The collections of a store are sound if their tables are in order and every record is sound
(`Collections.Sound`). So are collections that are read, and a mutation keeps them so, if what it
puts into them is sound (`Mutation.Sound`, `sound_apply`). Collections are read by
`Collections.read`, in `EventFlow.Store.Collections`.
-/

set_option autoImplicit false

namespace EventFlow

variable {α : Type}

/-- Sound records in ascending order of their identifiers. -/
structure Table.Sound [Definition α] [Content α] (Timely : Instant → Prop) (table : Table α) :
    Prop where
  ascending : Assoc.Ascending table
  keyed : table.Keyed
  records : ∀ r ∈ table.records, EventFlow.Sound Timely r

/-- All that collections hold is sound and in order. -/
structure Collections.Sound (Timely : Instant → Prop) (c : Collections) : Prop where
  workflows : Table.Sound Timely c.workflows
  steps : Table.Sound Timely c.steps
  conditions : Table.Sound Timely c.conditions
  actions : Table.Sound Timely c.actions
  executions : ∀ e ∈ c.executions, EventFlow.Sound Timely e

/-- Every free value that collections hold. -/
def Collections.values (c : Collections) : List Json :=
  c.workflows.records.flatMap Content.values ++ (c.steps.records.flatMap Content.values ++
    (c.conditions.records.flatMap Content.values ++ (c.actions.records.flatMap Content.values ++
      c.executions.flatMap Content.values)))

/-- Every point of time that collections hold. -/
def Collections.times (c : Collections) : List Instant :=
  c.workflows.records.flatMap Content.times ++ (c.steps.records.flatMap Content.times ++
    (c.conditions.records.flatMap Content.times ++ (c.actions.records.flatMap Content.times ++
      c.executions.flatMap Content.times)))

/-! ## Tables -/

namespace Table.Sound

variable [Definition α] [Content α] {Timely Timely' : Instant → Prop} {table : Table α}

theorem imp (h : Table.Sound Timely table)
    (timely : ∀ t ∈ table.records.flatMap Content.times, Timely t → Timely' t) :
    Table.Sound Timely' table :=
  ⟨h.ascending, h.keyed, fun r hr => (h.records r hr).imp fun t ht =>
    timely t (List.mem_flatMap.2 ⟨r, hr, ht⟩)⟩

theorem ofRecords {records : List α} (h : ∀ r ∈ records, EventFlow.Sound Timely r) :
    Table.Sound Timely (Table.ofRecords records) := by
  refine ⟨Assoc.ascending_ofList _, Table.keyed_ofRecords records, fun r hr => ?_⟩
  obtain ⟨entry, hentry, rfl⟩ := List.mem_map.1 hr
  obtain ⟨r, listed, rfl⟩ := List.mem_map.1 (Assoc.mem_ofList hentry)
  exact h r listed

theorem insert (h : Table.Sound Timely table) {r : α} (sound : EventFlow.Sound Timely r) :
    Table.Sound Timely (Assoc.insert (Definition.id r) r table) := by
  refine ⟨Assoc.ascending_insert _ r h.ascending, fun entry hentry => ?_, fun other hother => ?_⟩
  · rcases Assoc.mem_insert hentry with rfl | old
    · rfl
    · exact h.keyed entry old
  · obtain ⟨entry, hentry, rfl⟩ := List.mem_map.1 hother
    rcases Assoc.mem_insert hentry with rfl | old
    · exact sound
    · exact h.records _ (List.mem_map_of_mem old)

theorem erase (h : Table.Sound Timely table) (key : String) :
    Table.Sound Timely (Assoc.erase key table) := by
  refine ⟨Assoc.ascending_erase key h.ascending, fun entry hentry => ?_, fun r hr => ?_⟩
  · exact h.keyed entry (Assoc.mem_of_mem_erase hentry)
  · obtain ⟨entry, hentry, rfl⟩ := List.mem_map.1 hr
    exact h.records _ (List.mem_map_of_mem (Assoc.mem_of_mem_erase hentry))

theorem of_find? (h : Table.Sound Timely table) {key : String} {r : α}
    (found : Assoc.find? key table = some r) : EventFlow.Sound Timely r :=
  h.records r (List.mem_map_of_mem (Assoc.mem_of_find? found))

end Table.Sound

/-- A kind of definitions that is read, and that collections keep soundly. -/
class Stored (α : Type) [Definition α] [Content α] where
  read : Document → Reading α
  sound_read : ∀ d, (read d).Ensures (EventFlow.Sound Instant.Regular)
  id_withId : ∀ (key : String) (r : α), Definition.id (Definition.withId key r) = key
  sound_withId : ∀ {Timely : Instant → Prop} (key : String) {r : α}, EventFlow.Sound Timely r →
    EventFlow.Sound Timely (Definition.withId key r)
  sound_table : ∀ {Timely : Instant → Prop} {c : Collections}, c.Sound Timely →
    Table.Sound Timely (Definition.table c : Table α)
  sound_setTable : ∀ {Timely : Instant → Prop} {c : Collections} {table : Table α},
    c.Sound Timely → Table.Sound Timely table → (Definition.setTable table c).Sound Timely

instance : Stored Workflow where
  read := Workflow.read
  sound_read := Workflow.sound_read
  id_withId _ _ := rfl
  sound_withId _ _ h := ⟨h.values, h.times, h.indices⟩
  sound_table h := h.workflows
  sound_setTable h table := ⟨table, h.steps, h.conditions, h.actions, h.executions⟩

instance : Stored Step where
  read := Step.read
  sound_read := Step.sound_read
  id_withId _ _ := rfl
  sound_withId _ _ h := ⟨h.values, h.times, h.indices⟩
  sound_table h := h.steps
  sound_setTable h table := ⟨h.workflows, table, h.conditions, h.actions, h.executions⟩

instance : Stored Condition where
  read := Condition.read
  sound_read := Condition.sound_read
  id_withId _ _ := rfl
  sound_withId _ _ h := ⟨h.values, h.times, h.indices⟩
  sound_table h := h.conditions
  sound_setTable h table := ⟨h.workflows, h.steps, table, h.actions, h.executions⟩

instance : Stored Action where
  read := Action.read
  sound_read := Action.sound_read
  id_withId _ _ := rfl
  sound_withId _ _ h := ⟨h.values, h.times, h.indices⟩
  sound_table h := h.actions
  sound_setTable h table := ⟨h.workflows, h.steps, h.conditions, table, h.executions⟩

/-! ## Collections -/

namespace Collections

variable {Timely Timely' : Instant → Prop} {c : Collections}

theorem Sound.imp (h : c.Sound Timely) (timely : ∀ t ∈ c.times, Timely t → Timely' t) :
    c.Sound Timely' := by
  simp only [times, List.forall_mem_append] at timely
  obtain ⟨workflows, steps, conditions, actions, executions⟩ := timely
  exact ⟨h.workflows.imp workflows, h.steps.imp steps, h.conditions.imp conditions,
    h.actions.imp actions, fun e he => (h.executions e he).imp fun t ht =>
      executions t (List.mem_flatMap.2 ⟨e, he, ht⟩)⟩

theorem sound_empty : empty.Sound Timely := by
  have none {α : Type} [Definition α] [Content α] : Table.Sound Timely ([] : Table α) :=
    ⟨Assoc.ascending_nil, nofun, nofun⟩
  exact ⟨none, none, none, none, nofun⟩

/-- Collections that are read are sound. -/
theorem sound_read (d : Document) : (Collections.read d).Ensures (Sound Instant.Regular) := by
  have nothing {α : Type} [Content α] :
      (pure [] : Reading (List α)).Ensures fun list =>
        ∀ r ∈ list, EventFlow.Sound Instant.Regular r :=
    Reading.ensures_pure nofun
  refine .bind (Fields.ensures_ofDocument _ d) fun fields _ => ?_
  refine .bind (fields.ensures_orElse _ (Document.ensures_readList Workflow.sound_read) nothing)
    fun workflows sound_workflows => ?_
  refine .bind (fields.ensures_orElse _ (Document.ensures_readList Step.sound_read) nothing)
    fun steps sound_steps => ?_
  refine .bind (fields.ensures_orElse _ (Document.ensures_readList Condition.sound_read) nothing)
    fun conditions sound_conditions => ?_
  refine .bind (fields.ensures_orElse _ (Document.ensures_readList Action.sound_read) nothing)
    fun actions sound_actions => ?_
  refine .bind (fields.ensures_orElse _ (Document.ensures_readList Execution.sound_read) nothing)
    fun executions sound_executions => ?_
  exact Reading.ensures_pure ⟨.ofRecords sound_workflows, .ofRecords sound_steps,
    .ofRecords sound_conditions, .ofRecords sound_actions, sound_executions⟩

end Collections

/-! ## Changes -/

namespace Store

variable {Timely : Instant → Prop}

section Definitions

variable [Definition α] [Content α] [Stored α]

theorem keepsSound_creation {r : α} (sound : EventFlow.Sound Timely r) :
    (creation r).Keeps (Collections.Sound Timely) := by
  intro c h
  unfold creation
  split
  · exact h
  · exact Stored.sound_setTable h ((Stored.sound_table h).insert sound)

theorem keepsSound_modification (key : String) {edit : α → α}
    (keeps : ∀ r, EventFlow.Sound Timely r → EventFlow.Sound Timely (edit r)) :
    (modification key edit).Keeps (Collections.Sound Timely) := by
  intro c h
  unfold modification
  split
  · next r found =>
    have tables : Table.Sound Timely (Definition.table c : Table α) := Stored.sound_table h
    have edited := Stored.sound_withId key (keeps r (tables.of_find? found))
    have inserted := tables.insert edited
    rw [Stored.id_withId] at inserted
    exact Stored.sound_setTable h inserted
  · exact h

theorem keepsSound_deletion (key : String) :
    (deletion α key).Keeps (Collections.Sound Timely) := by
  intro c h
  unfold deletion
  split
  · exact Stored.sound_setTable h ((Stored.sound_table (α := α) h).erase key)
  · exact h

theorem sound_identified {r : α} (sound : EventFlow.Sound Timely r) (supply : Supply) :
    EventFlow.Sound Timely (identified r supply).1 := by
  unfold identified
  split
  · exact Stored.sound_withId _ sound
  · exact sound

end Definitions

theorem keepsSound_recording {e : Execution} (sound : EventFlow.Sound Timely e) :
    (recording e).Keeps (Collections.Sound Timely) := by
  intro c h
  unfold recording
  split
  · exact h
  · refine ⟨h.workflows, h.steps, h.conditions, h.actions, fun other hother => ?_⟩
    rcases List.mem_append.1 hother with old | new
    · exact h.executions other old
    · rw [List.mem_singleton.1 new]
      exact sound

/-- A store that is opened holds sound collections. -/
theorem sound_openFile {b : Backing} {supply later : Supply} {s : Store}
    (clock : supply.clock.Regular) (h : openFile b supply = .ok (s, later)) :
    s.collections.Sound Instant.Regular := by
  unfold openFile at h
  split at h
  · cases h
    exact Collections.sound_empty
  · next text _ =>
    have ensures : (readSnapshot text).Ensures (Collections.Sound Instant.Regular) :=
      (Reading.ensures_ofOption fun _ _ => trivial).bind fun d (_ : True) =>
        Collections.sound_read d
    split at h
    · next read =>
      cases h
      exact (ensures clock read).1
    · cases h

end Store

/-! ## Mutations -/

section Workflows

variable {Timely : Instant → Prop} {w : Workflow}

/-- A workflow is sound as it is created. -/
theorem Workflow.sound_created (h : Sound Timely w) :
    Sound Timely { w with updatedAt := w.createdAt } := by
  obtain ⟨values, created, -⟩ := Workflow.sound_iff.1 h
  exact Workflow.sound_iff.2 ⟨values, created, created⟩

theorem WorkflowUpdate.sound_apply {u : WorkflowUpdate} {time : Instant}
    (values : ∀ v, u.defaults = some v → v.Canonical) (timely : Timely time)
    (h : Sound Timely w) : Sound Timely (u.apply time w) := by
  obtain ⟨defaults, created, -⟩ := Workflow.sound_iff.1 h
  refine Workflow.sound_iff.2 ⟨?_, created, timely⟩
  cases set : u.defaults with
  | none => simpa [apply, set] using defaults
  | some v => simpa [apply, set] using values v set

end Workflows

/-- What a mutation puts into a store is sound. -/
inductive Mutation.Sound : Mutation → Prop
  | create {α : Type} [Definition α] [Content α] [Stored α] {r : α}
      (h : EventFlow.Sound Instant.Regular r) : Mutation.Sound (.create r)
  | createWorkflow {w : Workflow} (h : EventFlow.Sound Instant.Regular w) :
      Mutation.Sound (.createWorkflow w)
  | replace {α : Type} [Definition α] [Content α] [Stored α] (key : String) {r : α}
      (h : EventFlow.Sound Instant.Regular r) : Mutation.Sound (.replace key r)
  | updateWorkflow (id : String) {u : WorkflowUpdate}
      (h : ∀ v, u.defaults = some v → v.Canonical) : Mutation.Sound (.updateWorkflow id u)
  | setWorkflowStatus (id : String) (status : WorkflowStatus) :
      Mutation.Sound (.setWorkflowStatus id status)
  | delete (α : Type) [Definition α] [Content α] [Stored α] (key : String) :
      Mutation.Sound (.delete α key)
  | record {e : Execution} (h : EventFlow.Sound Instant.Regular e) : Mutation.Sound (.record e)

/-- A mutation that puts in what is sound keeps the collections of a store sound. -/
theorem Mutation.sound_apply {m : Mutation} (input : m.Sound) {s : Store} {supply : Supply}
    (clock : supply.clock.Regular) (h : s.collections.Sound Instant.Regular) :
    (m.apply s supply).2.1.collections.Sound Instant.Regular := by
  cases input with
  | create sound =>
    exact Store.keeps_commit (Store.keepsSound_creation (Store.sound_identified sound supply)) h
  | createWorkflow sound =>
    exact Store.keeps_commit
      (Store.keepsSound_creation (Store.sound_identified (Workflow.sound_created sound) supply)) h
  | replace key sound =>
    exact Store.keeps_commit (Store.keepsSound_modification key fun _ _ => sound) h
  | updateWorkflow id values =>
    exact Store.keeps_commit
      (Store.keepsSound_modification id fun _ => WorkflowUpdate.sound_apply values clock) h
  | setWorkflowStatus id status =>
    have values : ∀ v, ({ WorkflowUpdate.empty with status } : WorkflowUpdate).defaults = some v →
        v.Canonical := fun v h => (nomatch h)
    exact Store.keeps_commit
      (Store.keepsSound_modification id fun _ => WorkflowUpdate.sound_apply values clock) h
  | delete α key => exact Store.keeps_commit (Store.keepsSound_deletion key) h
  | record sound => exact Store.keeps_record (Store.keepsSound_recording sound) h

end EventFlow
