import EventFlow.Proofs.Engine.Sound
import EventFlow.Proofs.Record.Depth
import EventFlow.Proofs.Store.Sound

/-!
# Stores are opened again

A snapshot has three levels of its own above the free values of definitions and the data of runs,
and more above recipients and outputs. A reader descends through 127 levels and no further, while
nothing limits a writer. So the snapshot of sound collections is read back if and only if none of
their values is too high for its place (`Collections.Shallow`, `Store.readSnapshot_snapshotText`),
where doubles are read as they were written. Whatever is read from texts or comes out of runs keeps
collections sound (`Mutation.Sourced`, `Store.Reached.sound`), but not shallow: a store may be
written so that it cannot be opened again (`Store.reopens_iff_shallow`). Snapshots are written by
`Store.snapshotText` and read by `Store.readSnapshot`, as `Store.openFile` does
(`EventFlow.Store.Basic`).
-/

set_option autoImplicit false

namespace EventFlow

open Document

/-! ## Collections -/

namespace Collections

/-- No free value that collections hold is too high for its place. -/
structure Shallow (c : Collections) : Prop where
  workflows : ∀ w ∈ c.workflows.records, w.defaults.height ≤ maxNesting - 3
  steps : ∀ s ∈ c.steps.records, s.config.height ≤ maxNesting - 3
  conditions : ∀ x ∈ c.conditions.records, ∀ v ∈ x.kind.values, v.height ≤ maxNesting - 3
  actions : ∀ a ∈ c.actions.records, a.config.height ≤ maxNesting - 3 ∧
    ∀ v ∈ a.recipients, v.height ≤ maxNesting - 4
  executions : ∀ e ∈ c.executions, e.data.height ≤ maxNesting - 3 ∧
    ∀ r ∈ e.results, r.output.height ≤ maxNesting - 5

variable {c : Collections}

/-- Collections are written within the levels of a reader if no value of theirs is too high. -/
theorem height_document_le_iff : c.document.height ≤ maxNesting ↔ c.Shallow := by
  -- A snapshot is an object of lists, so its records may be two levels lower than it.
  have total : c.document.height ≤ 125 + 1 + 1 ↔
      (∀ w ∈ c.workflows.records, w.document.height ≤ 123 + 2) ∧
      (∀ s ∈ c.steps.records, s.document.height ≤ 123 + 2) ∧
      (∀ x ∈ c.conditions.records, x.document.height ≤ 124 + 1) ∧
      (∀ a ∈ c.actions.records, a.document.height ≤ 123 + 2) ∧
      ∀ e ∈ c.executions, e.document.height ≤ 122 + 3 := by
    rw [document, height, Nat.add_le_add_iff_right]
    simp only [membersHeight, Nat.max_le, Nat.zero_le, and_true, height_array_le_iff]
  simp only [Workflow.height_document_le_iff, Step.height_document_le_iff,
    Condition.height_document_le_iff, Action.height_document_le_iff,
    Execution.height_document_le_iff] at total
  rw [maxNesting, total]
  constructor
  · rintro ⟨workflows, steps, conditions, actions, executions⟩
    exact ⟨workflows, steps, conditions, actions, executions⟩
  · rintro ⟨workflows, steps, conditions, actions, executions⟩
    exact ⟨workflows, steps, conditions, actions, executions⟩

theorem printable_document (h : ∀ v ∈ c.values, v.Exact) : c.document.Printable := by
  have each {α : Type} [Content α] {write : α → Document} {list : List α}
      (values : ∀ v ∈ list.flatMap Content.values, Json.Exact v)
      (printable : ∀ a : α, (∀ v ∈ Content.values a, v.Exact) → (write a).Printable) :
      (Document.array (list.map write)).Printable :=
    printable_array fun a ha => printable a fun v hv => values v (List.mem_flatMap.2 ⟨a, ha, hv⟩)
  simp only [values, List.forall_mem_append] at h
  obtain ⟨workflows, steps, conditions, actions, executions⟩ := h
  exact ⟨each workflows fun _ => Workflow.printable_document,
    each steps fun _ => Step.printable_document,
    each conditions fun _ => Condition.printable_document,
    each actions fun _ => Action.printable_document,
    each executions fun _ => Execution.printable_document, trivial⟩

/-- Collections that are sound are read back. -/
theorem yields_document (h : c.Sound Instant.Readable) :
    c.document.Yields Collections.read c := by
  have workflows := Table.ofRecords_records h.workflows.ascending h.workflows.keyed
  have steps := Table.ofRecords_records h.steps.ascending h.steps.keyed
  have conditions := Table.ofRecords_records h.conditions.ascending h.conditions.keyed
  have actions := Table.ofRecords_records h.actions.ascending h.actions.keyed
  apply yields_record fieldNames rfl (by decide)
  intro nesting
  simp only [membersHeight]
  refine .bind (recovers_orElse rfl
    (yields_list fun w hw => Workflow.yields_document (h.workflows.records w hw)) _ _) ?_
  refine .bind (recovers_orElse rfl
    (yields_list fun s hs => Step.yields_document (h.steps.records s hs)) _ _) ?_
  refine .bind (recovers_orElse rfl
    (yields_list fun x hx => Condition.yields_document (h.conditions.records x hx)) _ _) ?_
  refine .bind (recovers_orElse rfl
    (yields_list fun a ha => Action.yields_document (h.actions.records a ha)) _ _) ?_
  refine .bind (recovers_orElse rfl
    (yields_list fun e he => Execution.yields_document (h.executions e he)) _ _) ?_
  rw [workflows, steps, conditions, actions]
  exact Reading.recovers_pure _ _

end Collections

namespace Store

/-- A snapshot is read as the collections it was taken of, if no value of theirs is too high. -/
theorem readSnapshot_snapshotText {c : Collections} (sound : c.Sound Instant.Readable)
    (exact : ∀ v ∈ c.values, v.Exact) (supply : Supply) :
    (c.Shallow → readSnapshot (snapshotText c) supply = some (c, supply)) ∧
      (¬ c.Shallow → readSnapshot (snapshotText c) supply = none) := by
  have text := read?_pretty (Collections.printable_document exact)
  have whole : readSnapshot (snapshotText c) supply =
      if c.document.height ≤ maxNesting then some (c, supply) else none := by
    show (Reading.ofOption (Document.read? c.document.pretty) >>= Collections.read) supply = _
    rw [text]
    exact Collections.yields_document sound maxNesting supply
  rw [whole]
  constructor
  · intro shallow
    rw [if_pos (Collections.height_document_le_iff.2 shallow)]
  · intro deep
    rw [if_neg (mt Collections.height_document_le_iff.1 deep)]

end Store

/-! ## Where the contents of a store come from -/

/-- What a mutation puts into a store was read, or is the execution that a run has left. The
defaults of the workflow that is run have their members in key order, as all that is read has; the
run may be answered anything by a world that keeps to the rules. -/
inductive Mutation.Sourced : Mutation → Prop
  | create {α : Type} [Definition α] [Content α] [Stored α] {d : Document} {r : α}
      {supply later : Supply} (clock : supply.clock.Regular)
      (read : Stored.read d supply = some (r, later)) : Mutation.Sourced (.create r)
  | createWorkflow {d : Document} {w : Workflow} {supply later : Supply}
      (clock : supply.clock.Regular) (read : Workflow.read d supply = some (w, later)) :
      Mutation.Sourced (.createWorkflow w)
  | replace {α : Type} [Definition α] [Content α] [Stored α] (key : String) {d : Document} {r : α}
      {supply later : Supply} (clock : supply.clock.Regular)
      (read : Stored.read d supply = some (r, later)) : Mutation.Sourced (.replace key r)
  | updateWorkflow (id : String) {d : Document} {u : WorkflowUpdate} {supply later : Supply}
      (clock : supply.clock.Regular) (read : WorkflowUpdate.read d supply = some (u, later)) :
      Mutation.Sourced (.updateWorkflow id u)
  | setWorkflowStatus (id : String) (status : WorkflowStatus) :
      Mutation.Sourced (.setWorkflowStatus id status)
  | delete (α : Type) [Definition α] [Content α] [Stored α] (key : String) :
      Mutation.Sourced (.delete α key)
  | record {d : Document} {e : Execution} {supply later : Supply} (clock : supply.clock.Regular)
      (read : Execution.read d supply = some (e, later)) : Mutation.Sourced (.record e)
  | ran {σ : Type} (engine : Engine σ) (c : Collections) {w : Workflow}
      (defaults : w.defaults.Canonical) (short : w.stepIds.length ≤ UInt64.size) {d : Document}
      {data : Json} (read : d.toJson? = some data) {supply : Supply} (clock : supply.clock.Regular)
      {effects : List Effect} (world : ∀ f ∈ effects, f.Sound) {e : Execution}
      (performs : Program.Performs engine.handlers.contains
        (engine.run (Plan.ofCollections c w) (engine.prepare w data supply).1) effects e) :
      Mutation.Sourced (.record e)

theorem Mutation.Sourced.sound {m : Mutation} (h : m.Sourced) : m.Sound := by
  cases h with
  | create clock read => exact .create (Stored.sound_read _ clock read).1
  | createWorkflow clock read => exact .createWorkflow (Workflow.sound_read _ clock read).1
  | replace key clock read => exact .replace key (Stored.sound_read _ clock read).1
  | updateWorkflow id clock read =>
    exact .updateWorkflow id (WorkflowUpdate.canonical_read _ clock read).1
  | setWorkflowStatus id status => exact .setWorkflowStatus id status
  | delete α key => exact .delete α key
  | record clock read => exact .record (Execution.sound_read _ clock read).1
  | ran engine c defaults short read clock world performs =>
    have run := engine.ensures_run defaults (canonical_of_toJson? _ read) clock short c
    exact .record (run.of_performs performs world)

namespace Store

/-- A store that is reached from one that was opened, by mutations that may or may not succeed. -/
inductive Reached : Store → Prop
  | opened {b : Backing} {supply later : Supply} {s : Store} (clock : supply.clock.Regular)
      (h : openFile b supply = .ok (s, later)) : Reached s
  | mutated {s : Store} (h : Reached s) {m : Mutation} (sourced : m.Sourced) {supply : Supply}
      (clock : supply.clock.Regular) : Reached (m.apply s supply).2.1

/-- The collections of a store that is reached are sound. -/
theorem Reached.sound {s : Store} (h : Reached s) : s.collections.Sound Instant.Regular := by
  induction h with
  | opened clock h => exact sound_openFile clock h
  | mutated h sourced clock ih => exact Mutation.sound_apply sourced.sound clock ih

/-- After a mutation that succeeds, a store is opened again from its file as it is in memory, if no
value that it holds is too high for its place, and cannot be opened otherwise. The times it holds
lie in years that are told, as those of a clock do, and its doubles are such as are read back. -/
theorem reopens_iff_shallow {s : Store} (reached : s.Reached) {m : Mutation} (sourced : m.Sourced)
    {supply later : Supply} (clock : supply.clock.Regular) {s' : Store}
    (done : m.apply s supply = (.ok (), s', later)) {b : Backing} (backed : s'.backing = some b)
    (told : ∀ t ∈ s'.collections.times, t.isTold = true)
    (exact : ∀ v ∈ s'.collections.values, v.Exact) (fresh : Supply) :
    (s'.collections.Shallow → openFile b fresh = .ok (s', fresh)) ∧
      (¬ s'.collections.Shallow → openFile b fresh = .error .snapshotText) := by
  have after := reached.mutated sourced clock
  have saved := (m.allOrNothing_apply s supply).all
  rw [done] at after saved
  have content : b.content = some (snapshotText s'.collections) := saved () rfl b backed
  have readable : s'.collections.Sound Instant.Readable :=
    after.sound.imp fun t ht regular => ⟨told t ht, regular⟩
  obtain ⟨shallow, deep⟩ := readSnapshot_snapshotText readable exact fresh
  have whole : (⟨s'.collections, some b⟩ : Store) = s' := by
    rw [← backed]
  unfold openFile
  rw [content]
  constructor
  · intro h
    simp only [shallow h, whole]
  · intro h
    simp only [deep h]

/-! ## A store that cannot be opened -/

/-- A list in a list in a list, and so on. -/
def nested : Nat → Json
  | 0 => .array []
  | n + 1 => .array [nested n]

theorem nested_spec (n : Nat) :
    (nested n).Canonical ∧ (nested n).Exact ∧ (nested n).height = n + 1 := by
  induction n with
  | zero => exact ⟨trivial, trivial, rfl⟩
  | succ n ih =>
    obtain ⟨canonical, exact, high⟩ := ih
    refine ⟨⟨canonical, trivial⟩, ⟨exact, trivial⟩, ?_⟩
    have total : (nested (n + 1)).height = max (nested n).height 0 + 1 := rfl
    rw [total, high, Nat.max_zero]

/-- A workflow with defaults of 125 levels: those of its record are one more. -/
def steep : Workflow :=
  ⟨"steep", "Steep", "", .draft, "hill.climbed", [], nested 124, default, default, anonymous⟩

/-- A store on a file that does not exist, where every write succeeds. -/
def blank : Store := ⟨.empty, some ⟨none, none, fun _ => .written⟩⟩

/-- The record is read, and can be written, but not be read in a snapshot. -/
theorem reopens_iff_shallow_steep :
    Workflow.read (steep.document.pruned maxNesting) default = some (steep, default) ∧
      ∃ s b later, (Mutation.createWorkflow steep).apply blank default = (.ok (), s, later) ∧
        s.backing = some b ∧ openFile b default = .error .snapshotText := by
  obtain ⟨canonical, exact, high⟩ := nested_spec 124
  have now : (default : Instant).Readable := ⟨by decide, fun leap => absurd leap (by decide)⟩
  have sound : Sound Instant.Readable steep := Workflow.sound_iff.2 ⟨canonical, now, now⟩
  -- The record alone is 126 levels high, which a reader descends; a snapshot of it is 128.
  have fits : steep.document.height ≤ 125 + 2 := by
    rw [Workflow.height_document_le_iff]
    show (nested 124).height ≤ 126
    rw [high]
    decide
  have read : Workflow.read (steep.document.pruned maxNesting) default = some (steep, default) :=
    (Workflow.yields_document sound maxNesting default).trans (if_pos fits)
  have opened : openFile ⟨none, none, fun _ => .written⟩ default = .ok (blank, default) := rfl
  have reached : blank.Reached := .opened now.regular opened
  refine ⟨read, _, _, _, rfl, rfl, ?_⟩
  refine (reopens_iff_shallow reached (.createWorkflow now.regular read) now.regular rfl rfl
    ?_ ?_ default).2 ?_
  · show ∀ t ∈ [(default : Instant), default], t.isTold = true
    decide
  · exact List.forall_mem_singleton.2 exact
  · intro shallow
    have low : (nested 124).height ≤ 124 := shallow.workflows steep List.mem_cons_self
    rw [high] at low
    exact absurd low (by decide)

end Store

end EventFlow
