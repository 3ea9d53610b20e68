import EventFlow.Proofs.Store.Seeding
import EventFlow.Proofs.Store.Telling

/-!
# Bundles carry definitions over

The definitions of a store are exported as a bundle. A bundle is read as the tables of the store
(`Store.yields_definitions`), although its date is no field of a snapshot and the ledger is missing
from it. In an empty store no identifier is taken, and none is blank in a store that has grown from
an empty one (`Store.Grown.named`), so seeding the bundle creates every record under its own
identifier, table after table (`Store.Seeding.Run.of_tidy`): the definitions are carried over as
they are, but for the time when a workflow was last updated (`Store.carried_over_of_grown`). The
text is that of `Store.exportText`, and `Store.seed` puts it into a store again
(`EventFlow.Store.Bundle`).
-/

set_option autoImplicit false

namespace EventFlow

open Document

/-! ## Bundles -/

namespace Collections

theorem length_definitions (c : Collections) : c.definitions.length =
    c.workflows.records.length + c.steps.records.length + c.conditions.records.length +
      c.actions.records.length := by
  simp [definitions, Kind.all, table, Definition.table, Nat.add_assoc]

/-- The definitions of collections, with no executions. -/
def withoutRuns (c : Collections) : Collections := { c with executions := [] }

/-- The definitions of collections as a bundle puts them into an empty store: each workflow was last
updated when it was created. -/
def carriedOver (c : Collections) : Collections where
  workflows := c.workflows.map fun (id, w) => (id, { w with updatedAt := w.createdAt })
  steps := c.steps
  conditions := c.conditions
  actions := c.actions
  executions := []

theorem table_carriedOver (c : Collections) (k : Kind) :
    c.carriedOver.table k = k.admittedTable (c.table k) := by
  cases k with
  | workflow => rfl
  | step => exact (List.map_id _).symm
  | condition => exact (List.map_id _).symm
  | action => exact (List.map_id _).symm

end Collections

theorem recovers_orElse_of_absent {α : Type} {members : List (String × Document)} {name : String}
    {read : Document → Reading α} {default : Reading α} {a : α} {height : Nat}
    (absent : Assoc.find? name members = none) (nesting : Nat)
    (h : Reading.Recovers nesting default height a) : Reading.Recovers nesting
      ((Fields.mk (prunedMembers nesting members) false).orElse name read default) height a := by
  rw [Fields.orElse, Fields.find?, find?_prunedMembers, absent]
  exact h

/-- An export is read as a bundle with the tables of the store. -/
theorem Store.yields_definitions {s : Store} (sound : s.collections.Sound Instant.Readable)
    (time : Instant) :
    (s.definitions time).document.Yields Collections.read s.collections.withoutRuns := by
  obtain ⟨c, backing⟩ := s
  have workflows := Table.ofRecords_records sound.workflows.ascending sound.workflows.keyed
  have steps := Table.ofRecords_records sound.steps.ascending sound.steps.keyed
  have conditions := Table.ofRecords_records sound.conditions.ascending sound.conditions.keyed
  have actions := Table.ofRecords_records sound.actions.ascending sound.actions.keyed
  apply yields_record DefinitionsExport.fieldNames rfl (by decide)
  intro nesting
  simp only [membersHeight]
  refine .bind (recovers_orElse rfl
    (yields_list fun w hw => Workflow.yields_document (sound.workflows.records w hw)) _ _) ?_
  refine .bind (recovers_orElse rfl
    (yields_list fun s hs => Step.yields_document (sound.steps.records s hs)) _ _) ?_
  refine .bind (recovers_orElse rfl
    (yields_list fun x hx => Condition.yields_document (sound.conditions.records x hx)) _ _) ?_
  refine .bind (recovers_orElse rfl
    (yields_list fun a ha => Action.yields_document (sound.actions.records a ha)) _ _) ?_
  -- The ledger is missing, and taken as empty; the date is at the place of its height.
  refine .bind (recovers_orElse_of_absent rfl nesting (Reading.recovers_pure nesting [])) ?_
  rw [workflows, steps, conditions, actions]
  exact Reading.recovers_pure _ _

/-- The text of an export is read as the document that was written, if no value in the store is too
high for its place and its doubles are such as are read back. -/
theorem Store.read?_exportText {s : Store} (shallow : s.collections.Shallow)
    (exact : ∀ v ∈ s.collections.values, v.Exact) (supply : Supply) :
    Document.read? (s.exportText .json .workflows supply).1 =
      some (s.definitions supply.clock).document := by
  obtain ⟨workflows, steps, conditions, actions, -⟩ := Collections.printable_document exact
  have printable : (s.definitions supply.clock).document.Printable :=
    ⟨workflows, steps, conditions, actions, trivial, trivial⟩
  have low : (s.definitions supply.clock).document.height ≤ maxNesting := by
    have snapshot := Collections.height_document_le_iff.2 shallow
    show height (.object [("workflows", .array (s.collections.workflows.records.map _)),
      ("steps", .array (s.collections.steps.records.map _)),
      ("conditions", .array (s.collections.conditions.records.map _)),
      ("actions", .array (s.collections.actions.records.map _)),
      ("export_date", .string _)]) ≤ _
    simp only [Collections.document, height, membersHeight, maxNesting] at snapshot ⊢
    omega
  show Document.read? (s.definitions supply.clock).document.pretty = _
  rw [read?_pretty printable, pruned_of_height_le _ low]

/-! ## Stores that have grown from empty ones -/

namespace Kind

instance : (k : Kind) → Content k.Record
  | workflow => inferInstanceAs (Content Workflow)
  | step => inferInstanceAs (Content Step)
  | condition => inferInstanceAs (Content Condition)
  | action => inferInstanceAs (Content Action)

instance : (k : Kind) → Stored k.Record
  | workflow => inferInstanceAs (Stored Workflow)
  | step => inferInstanceAs (Stored Step)
  | condition => inferInstanceAs (Stored Condition)
  | action => inferInstanceAs (Stored Action)

end Kind

namespace Store

/-- What a request puts into a store is sound, and its times can be told. -/
inductive Request.Sound : Request → Prop
  | create (k : Kind) {r : k.Record} (h : EventFlow.Sound Instant.Readable r) :
      Request.Sound (.create k r)
  | createWorkflow {w : Workflow} (h : EventFlow.Sound Instant.Readable w) :
      Request.Sound (.createWorkflow w)
  | get (k : Kind) (id : String) : Request.Sound (.get k id)
  | list (k : Kind) : Request.Sound (.list k)
  | replace (k : Kind) (id : String) {r : k.Record} (h : EventFlow.Sound Instant.Readable r) :
      Request.Sound (.replace k id r)
  | modify (k : Kind) (id : String) {edit : k.Record → k.Record}
      (h : ∀ r, EventFlow.Sound Instant.Readable r → EventFlow.Sound Instant.Readable (edit r)) :
      Request.Sound (.modify k id edit)
  | updateWorkflow (id : String) {u : WorkflowUpdate}
      (h : ∀ v, u.defaults = some v → v.Canonical) : Request.Sound (.updateWorkflow id u)
  | setWorkflowStatus (id : String) (status : WorkflowStatus) :
      Request.Sound (.setWorkflowStatus id status)
  | delete (k : Kind) (id : String) : Request.Sound (.delete k id)

/-- A request that puts in what is sound keeps the collections of a store sound. -/
theorem Request.sound_perform {request : Request} (input : request.Sound) {s : Store}
    {supply : Supply} (clock : supply.clock.Readable)
    (h : s.collections.Sound Instant.Readable) :
    (request.perform s supply).2.1.collections.Sound Instant.Readable := by
  have updates (id : String) {u : WorkflowUpdate}
      (values : ∀ v, u.defaults = some v → v.Canonical) :
      (s.updateWorkflow id u supply).2.1.collections.Sound Instant.Readable :=
    keeps_commit
      (keepsSound_modification id fun _ => WorkflowUpdate.sound_apply values clock) h
  cases input with
  | create k sound => exact keeps_commit (keepsSound_creation (sound_identified sound supply)) h
  | createWorkflow sound =>
    exact keeps_commit
      (keepsSound_creation (sound_identified (Workflow.sound_created sound) supply)) h
  | get k id => exact h
  | list k => exact h
  | replace k id sound => exact keeps_commit (keepsSound_modification id fun _ _ => sound) h
  | modify k id keeps => exact keeps_commit (keepsSound_modification id keeps) h
  | updateWorkflow id values => exact updates id values
  | setWorkflowStatus id status => exact updates id nofun
  | delete k id => exact keeps_commit (keepsSound_deletion id) h

/-- A store that began empty and came here by requests for definitions and by recording executions,
which may or may not have succeeded. What they put in is sound, and all times in it can be told. -/
inductive Grown : Store → Prop
  | empty (backing : Option Backing) : Grown ⟨.empty, backing⟩
  | performed {s : Store} (h : Grown s) {request : Request} (input : request.Sound)
      {supply : Supply} (clock : supply.clock.Readable) : Grown (request.perform s supply).2.1
  | recorded {s : Store} (h : Grown s) {e : Execution}
      (input : EventFlow.Sound Instant.Readable e) : Grown (s.record e).2

namespace Grown

variable {s : Store}

theorem sound (h : s.Grown) : s.collections.Sound Instant.Readable := by
  induction h with
  | empty => exact Collections.sound_empty
  | performed _ input clock ih => exact Request.sound_perform input clock ih
  | recorded _ input ih => exact keeps_record (keepsSound_recording input) ih

/-- No identifier in the store is blank. -/
theorem named (h : s.Grown) : s.collections.Named := by
  induction h with
  | empty => exact fun k entry hentry => by cases k <;> cases hentry
  | @performed _ _ request _ supply _ ih => exact request.named_perform supply ih
  | @recorded s _ e _ ih =>
    intro k
    rw [table_record s e k]
    exact ih k

theorem tidy (h : s.Grown) : s.collections.Tidy := by
  obtain ⟨workflows, steps, conditions, actions, -⟩ := h.sound
  intro k
  cases k with
  | workflow => exact ⟨workflows.ascending, workflows.keyed⟩
  | step => exact ⟨steps.ascending, steps.keyed⟩
  | condition => exact ⟨conditions.ascending, conditions.keyed⟩
  | action => exact ⟨actions.ascending, actions.keyed⟩

end Grown

end Store

/-! ## Bundles in empty stores -/

namespace Store.Seeding

/-- A table that is added after all that is there is put at the end. -/
theorem Run.of_ascending {k : Kind} {entries : Table k.Record} {x x' : Seeding}
    (ascending : Assoc.Ascending entries) (keyed : entries.Keyed)
    (named : ∀ entry ∈ entries, Text.isBlankText entry.1 = false)
    (after : ∀ earlier ∈ x.store.collections.table k, ∀ entry ∈ entries, earlier.1 < entry.1)
    (h : Run (entries.records.map (⟨k, ·⟩)) x x') :
    x'.supply = x.supply ∧ x'.report.skipped = x.report.skipped ∧
      x'.store.collections = Definition.setTable
        (x.store.collections.table k ++ k.admittedTable entries) x.store.collections := by
  induction entries generalizing x with
  | nil =>
    cases h
    refine ⟨rfl, rfl, ?_⟩
    rw [Kind.admittedTable, List.map_nil, List.append_nil, Collections.setTable_table]
  | cons entry rest ih =>
    obtain ⟨key, r⟩ := entry
    obtain ⟨above, rest_ascending⟩ := List.pairwise_cons.1 ascending
    obtain ⟨own, rest_keyed⟩ := List.forall_mem_cons.1 keyed
    obtain ⟨name, rest_named⟩ := List.forall_mem_cons.1 named
    obtain rfl : Definition.id r = key := own
    have last : ∀ earlier ∈ x.store.collections.table k, earlier.1 < Definition.id r :=
      fun earlier there => after earlier there _ List.mem_cons_self
    cases h with
    | @cons _ _ _ x₁ _ first others =>
      -- All that is there lies before the record, so its identifier is free and its place the end.
      have free : Assoc.find? (Definition.id r) (x.store.collections.table k) = none :=
        Assoc.find?_eq_none_of_notMem fun there => by
          obtain ⟨earlier, old, same⟩ := List.mem_map.1 there
          exact String.ne_of_lt (last earlier old) same
      obtain ⟨supply, skipped, put⟩ := first.created_of_free name free
      have table : x₁.store.collections.table k =
          x.store.collections.table k ++ [(Definition.id r, k.admitted r)] := by
        rw [put, Store.put, Collections.table_setTable, Kind.id_admitted]
        exact Assoc.insert_eq_append _ last
      obtain ⟨supply', skipped', collections⟩ := ih rest_ascending rest_keyed rest_named (by
        rw [table]
        intro earlier there entry hentry
        rcases List.mem_append.1 there with old | new
        · exact after earlier old entry (List.mem_cons_of_mem _ hentry)
        · rw [List.mem_singleton.1 new]
          exact above entry hentry) others
      refine ⟨supply'.trans supply, skipped'.trans skipped, ?_⟩
      rw [collections, table, put, Store.put, Collections.setTable_setTable, List.append_assoc]
      rfl

/-- Tables of kinds that are not there yet are added as they are. -/
theorem Run.of_tidy {c : Collections} (tidy : c.Tidy) (named : c.Named) {kinds : List Kind}
    (nodup : kinds.Nodup) {x x' : Seeding}
    (free : ∀ k ∈ kinds, x.store.collections.table k = [])
    (h : Run (kinds.flatMap fun k => (c.table k).records.map (⟨k, ·⟩)) x x') :
    x'.supply = x.supply ∧ x'.report.skipped = x.report.skipped ∧
      x'.store.collections.executions = x.store.collections.executions ∧
      ∀ k, x'.store.collections.table k =
        if k ∈ kinds then k.admittedTable (c.table k) else x.store.collections.table k := by
  induction kinds generalizing x with
  | nil =>
    cases h
    exact ⟨rfl, rfl, rfl, fun k => (if_neg List.not_mem_nil).symm⟩
  | cons k rest ih =>
    obtain ⟨other, rest_nodup⟩ := List.nodup_cons.1 nodup
    obtain ⟨empty, rest_free⟩ := List.forall_mem_cons.1 free
    rw [List.flatMap_cons] at h
    obtain ⟨x₁, first, others⟩ := h.exists_of_append
    obtain ⟨supply, skipped, collections⟩ := first.of_ascending (tidy k).ascending (tidy k).keyed
      (named k) (by rw [empty]; exact nofun)
    rw [empty, List.nil_append] at collections
    have apart {k' : Kind} (ne : k' ≠ k) :
        x₁.store.collections.table k' = x.store.collections.table k' := by
      rw [collections, Collections.table_setTable_of_ne ne]
    obtain ⟨supply', skipped', executions, tables⟩ := ih rest_nodup (fun k' later => by
      rw [apart (fun same => other (same ▸ later))]
      exact rest_free k' later) others
    refine ⟨supply'.trans supply, skipped'.trans skipped, ?_, fun k' => ?_⟩
    · rw [executions, collections, Collections.executions_setTable]
    · rw [tables]
      by_cases later : k' ∈ rest
      · rw [if_pos later, if_pos (List.mem_cons_of_mem k later)]
      · rw [if_neg later]
        by_cases same : k' = k
        · subst same
          rw [if_pos List.mem_cons_self, collections, Collections.table_setTable]
        · rw [if_neg (List.not_mem_cons_of_ne_of_not_mem same later), apart same]

end Store.Seeding

namespace Store

/-- The export of a store that has grown from an empty one is a bundle that carries its definitions
over: where its text is read as the document that was written, it is read as a bundle, and seeding
this bundle creates every record in an empty store, as long as that can write. The definitions are
there as they were, but that each workflow was last updated when it was created, and the ledger is
empty. -/
theorem carried_over_of_grown {s : Store} (grown : s.Grown) {supply : Supply}
    (text : Document.read? (s.exportText .json .workflows supply).1 =
      some (s.definitions supply.clock).document) (loading : Supply) :
    ∃ bundle, readSnapshot (s.exportText .json .workflows supply).1 loading =
        some (bundle, loading) ∧
      ∀ (backing : Option Backing) (seeding : Supply),
        (∃ s', seed ⟨.empty, backing⟩ bundle seeding =
            (.ok ⟨(s.list Workflow).length + (s.list Step).length + (s.list Condition).length +
              (s.list Action).length, 0⟩, s', seeding) ∧
          s'.collections = s.collections.carriedOver) ∨
        ∃ reason s' later, seed ⟨.empty, backing⟩ bundle seeding =
            (.error (.snapshotFile reason), s', later) ∧ ¬ Reliable ⟨.empty, backing⟩ := by
  refine ⟨s.collections.withoutRuns, ?_, fun backing seeding => ?_⟩
  · show (Reading.ofOption (Document.read? _) >>= Collections.read) loading = _
    rw [text]
    exact (s.yields_definitions grown.sound supply.clock).read_eq loading
  have definitions : s.collections.withoutRuns.definitions = s.collections.definitions := rfl
  rcases seed_spec ⟨.empty, backing⟩ s.collections.withoutRuns seeding with
    ⟨x', done, run⟩ | failed
  · rw [definitions] at run
    have counted := run.counted
    obtain ⟨supply, skipped, executions, tables⟩ :=
      Seeding.Run.of_tidy grown.tidy grown.named (by decide) (fun k _ => by cases k <;> rfl) run
    have created : x'.report.created = s.collections.definitions.length :=
      (congrArg (x'.report.created + ·) skipped.symm).trans (counted.trans (Nat.zero_add _))
    have report : x'.report = ⟨s.collections.definitions.length, 0⟩ :=
      congrArg₂ SeedReport.mk created skipped
    rw [Collections.length_definitions] at report
    refine .inl ⟨x'.store, by rw [done, report, supply]; rfl, ?_⟩
    refine Collections.ext_tables (fun k => ?_) executions
    rw [tables, if_pos (by cases k <;> decide), Collections.table_carriedOver]
  · exact .inr failed

/-- A workflow that begins in the evening. -/
def evening : Workflow :=
  ⟨"evening", "Evening", "", .draft, "dusk", ["light"], .object [("colour", .string "red")],
    default, default, anonymous⟩

/-- Its step, -/
def light : Step :=
  ⟨"light", "evening", "Light", "", .action, ["lamp"], ["dark"], .retry 2, Step.defaultTimeoutMs, 1,
    .object [("dimmed", .bool true)], default, anonymous⟩

/-- the condition of the step, -/
def dark : Condition :=
  ⟨"dark", "Dark", "", .fieldCompare "lux" .lessThan (.ofNat 10), default, anonymous⟩

/-- and its action. -/
def lamp : Action :=
  ⟨"lamp", "Lamp", "", "switch", "on", [.string "porch"], .object [("watts", .ofNat 40)], default,
    anonymous⟩

/-- An execution of the evening that has ended. -/
def dusk : Execution :=
  { (Execution.begin evening evening.defaults anonymous default).1 with status := .completed }

/-- A porch where the workflow is made active when all else is there, and has run once. -/
def porch : Store :=
  let perform (request : Request) (s : Store) := (request.perform s ⟨Instant.succ default, 0⟩).2.1
  (perform (.setWorkflowStatus "evening" .active) (perform (.create .action lamp)
    (perform (.create .condition dark) (perform (.create .step light)
      (perform (.createWorkflow evening) ⟨.empty, none⟩))))).record dusk |>.2

theorem porch_grown : porch.Grown := by
  have first : (default : Instant).Readable := ⟨by decide, fun leap => absurd leap (by decide)⟩
  have second : (Instant.succ default).Readable :=
    ⟨by decide, fun leap => absurd leap (by decide)⟩
  have single (key : String) {v : Json} (h : v.Canonical) : (Json.object [(key, v)]).Canonical :=
    ⟨List.pairwise_singleton _ _, h, trivial⟩
  have colour : evening.defaults.Canonical := single "colour" trivial
  have workflow : Sound Instant.Readable evening := Workflow.sound_iff.2 ⟨colour, first, first⟩
  have step : Sound Instant.Readable light := Step.sound_iff.2 ⟨single "dimmed" trivial, first⟩
  have condition : Sound Instant.Readable dark :=
    Condition.sound_iff.2 ⟨List.forall_mem_singleton.2 trivial, first⟩
  have action : Sound Instant.Readable lamp :=
    Action.sound_iff.2 ⟨single "watts" trivial, List.forall_mem_singleton.2 trivial, first⟩
  have run : Sound Instant.Readable dusk :=
    Execution.sound_iff.2 ⟨colour, by decide, nofun, nofun, first, nofun⟩
  exact .recorded (.performed (.performed (.performed (.performed (.performed (.empty none)
    (.createWorkflow workflow) second) (.create .step step) second)
    (.create .condition condition) second) (.create .action action) second)
    (.setWorkflowStatus "evening" .active) second) run

theorem read?_exportText_porch (supply : Supply) :
    Document.read? (porch.exportText .json .workflows supply).1 =
      some (porch.definitions supply.clock).document := by
  have shallow : porch.collections.Shallow :=
    ⟨List.forall_mem_singleton.2 (by decide), List.forall_mem_singleton.2 (by decide),
      List.forall_mem_singleton.2 (List.forall_mem_singleton.2 (by decide)),
      List.forall_mem_singleton.2 ⟨by decide, List.forall_mem_singleton.2 (by decide)⟩,
      List.forall_mem_singleton.2 ⟨by decide, List.forall_mem_nil _⟩⟩
  have values : porch.collections.values = [evening.defaults, light.config, .ofNat 10, lamp.config,
      .string "porch", evening.defaults] := rfl
  have single (key : String) {v : Json} (h : v.Exact) : (Json.object [(key, v)]).Exact :=
    ⟨h, trivial⟩
  refine read?_exportText shallow ?_ supply
  rw [values]
  simp only [List.forall_mem_cons]
  exact ⟨single _ trivial, single _ trivial, trivial, single _ trivial, trivial, single _ trivial,
    List.forall_mem_nil _⟩

theorem carried_over_of_grown_porch :
    porch.collections.workflows.records.map Workflow.updatedAt = [Instant.succ default] ∧
      porch.collections.executions = [dusk] ∧
      ∃ bundle s', readSnapshot (porch.exportText .json .workflows default).1 default =
          some (bundle, default) ∧
        seed ⟨.empty, none⟩ bundle default = (.ok ⟨4, 0⟩, s', default) ∧
        s'.collections = ⟨[("evening", { evening with status := .active })], [("light", light)],
          [("dark", dark)], [("lamp", lamp)], []⟩ := by
  obtain ⟨bundle, read, seeded⟩ :=
    carried_over_of_grown porch_grown (read?_exportText_porch default) default
  rcases seeded none default with ⟨s', done, collections⟩ | ⟨reason, s', later, -, unreliable⟩
  · refine ⟨rfl, rfl, bundle, s', read, done, ?_⟩
    rw [collections]
    rfl
  · exact absurd (fun _ => nofun) unreliable

end Store

end EventFlow
