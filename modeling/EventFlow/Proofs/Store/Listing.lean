import EventFlow.Proofs.Json.RoundTrip
import EventFlow.Proofs.Store.Seeding
import Mathlib.Data.List.Perm.Basic

/-!
# What a bundle lists and what is counted

The text of a bundle holds lists, but it is read as tables, which have one place for each
identifier. Of the records of a list with one identifier only the last gets there
(`Listing.definitions_perm`), and no identifier is an identifier like others here: of all records
that have none, one is left. What is left is seeded, and only this is counted. So the count is that
of the records listed if and only if no list names an identifier twice, and a record without one
gets an identifier of its own if it is left (`Store.tallied_of_seed`). Seeding is `Store.seed`, in
`EventFlow.Store.Bundle`, and the bundle is read by `Collections.read`
(`EventFlow.Store.Collections`).
-/

set_option autoImplicit false

namespace EventFlow

/-! ## Lists of records -/

/-- Records in lists, as the text of a bundle has them. -/
structure Listing where
  workflows : List Workflow
  steps : List Step
  conditions : List Condition
  actions : List Action
  executions : List Execution

namespace Listing

/-- Lists that are read as those of collections are. -/
def read (d : Document) : Reading Listing := do
  let fields ← Fields.ofDocument Collections.fieldNames d
  let workflows ← fields.orElse "workflows" (Document.readList Workflow.read) (pure [])
  let steps ← fields.orElse "steps" (Document.readList Step.read) (pure [])
  let conditions ← fields.orElse "conditions" (Document.readList Condition.read) (pure [])
  let actions ← fields.orElse "actions" (Document.readList Action.read) (pure [])
  let executions ← fields.orElse "executions" (Document.readList Execution.read) (pure [])
  return ⟨workflows, steps, conditions, actions, executions⟩

/-- The lists in the text of a bundle. -/
def ofText (text : String) : Reading Listing := do
  let d ← Reading.ofOption (Document.read? text)
  read d

/-- The tables that lists are put into. -/
def collections (l : Listing) : Collections :=
  ⟨.ofRecords l.workflows, .ofRecords l.steps, .ofRecords l.conditions, .ofRecords l.actions,
    l.executions⟩

/-- A bundle is read as the tables of the lists in its text. -/
theorem readSnapshot_eq (text : String) (supply : Supply) :
    Store.readSnapshot text supply =
      (ofText text supply).map fun (l, later) => (l.collections, later) := by
  have whole : Store.readSnapshot text = collections <$> ofText text := by
    simp only [Store.readSnapshot, ofText, Collections.read, read, map_bind, map_pure]
    rfl
  rw [whole, Option.map_eq_bind]
  rfl

/-- The records listed of a kind. -/
def records (l : Listing) : (k : Kind) → List k.Record
  | .workflow => l.workflows
  | .step => l.steps
  | .condition => l.conditions
  | .action => l.actions

/-- The identifiers in a list, blank where there is none. -/
def ids (l : Listing) (k : Kind) : List String := (l.records k).map Definition.id

/-- The definitions in the lists. -/
def definitions (l : Listing) : List AnyRecord :=
  Kind.all.flatMap fun k => (l.records k).map (⟨k, ·⟩)

/-- The records that no later one in their list has the identifier of. -/
def latest (l : Listing) (k : Kind) : List k.Record :=
  (l.records k).pwFilter fun r r' => Definition.id r ≠ Definition.id r'

/-- The definitions that no later one in their list has the identifier of. -/
def kept (l : Listing) : List AnyRecord := Kind.all.flatMap fun k => (l.latest k).map (⟨k, ·⟩)

/-! ## What is left of lists -/

variable {l : Listing}

theorem mem_definitions {m : AnyRecord} : m ∈ l.definitions ↔ m.2 ∈ l.records m.1 := by
  obtain ⟨k, r⟩ := m
  cases k <;> simp [definitions, Kind.all]

theorem mem_kept {m : AnyRecord} : m ∈ l.kept ↔ m.2 ∈ l.latest m.1 := by
  obtain ⟨k, r⟩ := m
  cases k <;> simp [kept, Kind.all]

theorem records_ofRecords_perm {α : Type} [Definition α] (records : List α) :
    (Table.ofRecords records).records.Perm
      (records.pwFilter fun r r' => Definition.id r ≠ Definition.id r') := by
  have entries := (Assoc.ofList_perm (records.map fun r => (Definition.id r, r))).map (·.2)
  rw [List.pwFilter_map, List.map_map] at entries
  exact entries.trans (.of_eq (List.map_id _))

/-- The tables hold what is left of the lists. -/
theorem definitions_perm (l : Listing) : l.collections.definitions.Perm l.kept := by
  refine List.Perm.flatMap_left _ fun k _ => ?_
  have left : (l.collections.table k).records.Perm (l.latest k) := by
    cases k <;> exact records_ofRecords_perm _
  exact left.map _

/-- An identifier that is listed is one of what is left. -/
theorem exists_mem_latest {k : Kind} {r : k.Record} (listed : r ∈ l.records k) :
    ∃ r' ∈ l.latest k, Definition.id r = Definition.id r' := by
  by_contra gone
  push Not at gone
  exact (Assoc.forall_mem_pwFilter_iff Definition.id r (l.records k)).1 gone
    (List.mem_map_of_mem listed)

theorem latest_eq_records_iff {k : Kind} : l.latest k = l.records k ↔ (l.ids k).Nodup := by
  rw [latest, List.pwFilter_eq_self, ids, List.Nodup, List.pairwise_map]

/-- Nothing is lost if no list names an identifier twice. -/
theorem kept_eq_definitions (h : ∀ k, (l.ids k).Nodup) : l.kept = l.definitions := by
  have all : ∀ k, l.latest k = l.records k := fun k => latest_eq_records_iff.2 (h k)
  simp only [kept, definitions, all]

theorem length_kept_eq_iff : l.kept.length = l.definitions.length ↔ ∀ k, (l.ids k).Nodup := by
  constructor
  · intro same k
    have part (k : Kind) : (l.latest k).Sublist (l.records k) := List.pwFilter_sublist _
    have workflows := (part .workflow).length_le
    have steps := (part .step).length_le
    have conditions := (part .condition).length_le
    have actions := (part .action).length_le
    simp only [kept, definitions, Kind.all, List.flatMap_cons, List.flatMap_nil,
      List.length_append, List.length_map, List.length_nil] at same
    -- No list has more left than it had, so none has less where the sums are the same.
    have whole : (l.latest k).length = (l.records k).length := by
      cases k <;> omega
    exact latest_eq_records_iff.1 ((part k).eq_of_length whole)
  · intro h
    rw [kept_eq_definitions h]

end Listing

/-! ## What becomes of what is left -/

/-- The numbers that a supply gives to the records without an identifier. -/
def Supply.numbers (supply : Supply) (ms : List AnyRecord) : List Nat :=
  List.range' supply.nextId (ms.filter AnyRecord.unnamed).length

namespace AnyRecord

/-- The identifiers that are generated for records with numbers. -/
def ids (ms : List AnyRecord) (ns : List Nat) : List String :=
  (ms.zip ns).map fun (m, n) => m.1.generated n

theorem exists_of_mem_ids {ms : List AnyRecord} {ns : List Nat} {id : String} (h : id ∈ ids ms ns) :
    ∃ n ∈ ns, ∃ k : Kind, id = k.generated n := by
  obtain ⟨⟨m, n⟩, listed, rfl⟩ := List.mem_map.1 h
  exact ⟨n, (List.of_mem_zip listed).2, m.1, rfl⟩

end AnyRecord

/-- There are identifiers enough for the records that have none, and those that will be generated
for them are neither in the store nor those of other records. -/
structure Store.Unused (s : Store) (ms : List AnyRecord) (supply : Supply) : Prop where
  enough : supply.nextId + (ms.filter AnyRecord.unnamed).length ≤ 2 ^ 122
  free : ∀ k : Kind, ∀ n ∈ supply.numbers ms,
    Assoc.find? (k.generated n) (s.collections.table k) = none
  apart : ∀ m ∈ ms, ∀ n ∈ supply.numbers ms, Definition.id m.2 ≠ m.1.generated n

/-- A record has been put into a store under an identifier that was generated for it. -/
structure Store.Takes (s s' : Store) (m : AnyRecord) (id : String) : Prop where
  free : Assoc.find? id (s.collections.table m.1) = none
  found : Assoc.find? id (s'.collections.table m.1) =
    some (Definition.withId id (m.1.admitted m.2))

/-- What becomes of the records that the text of a bundle lists. -/
structure Listing.Tallied (l : Listing) (s : Store) (supply : Supply) (report : SeedReport)
    (s' : Store) : Prop where
  counted : report.created + report.skipped = l.kept.length
  complete : report.created + report.skipped = l.definitions.length ↔ ∀ k, (l.ids k).Nodup
  whole : (∀ k, (l.ids k).Nodup) → l.kept = l.definitions
  named : ∀ m ∈ l.definitions, m.unnamed = false →
    (Assoc.find? (Definition.id m.2) (s'.collections.table m.1)).isSome = true
  unnamed : s.Unused l.kept supply →
    ∃ ids : List String, ids.Nodup ∧
      List.Forall₂ (s.Takes s') (l.kept.filter AnyRecord.unnamed) ids

namespace Store

/-- Identifiers that are generated with different numbers are different. -/
theorem nodup_ids (ms : List AnyRecord) {ns : List Nat} (small : ∀ n ∈ ns, n < 2 ^ 122)
    (nodup : ns.Nodup) : (AnyRecord.ids ms ns).Nodup := by
  induction ms generalizing ns with
  | nil => exact .nil
  | cons m ms ih =>
    cases ns with
    | nil => exact .nil
    | cons n ns =>
      obtain ⟨small_first, small_others⟩ := List.forall_mem_cons.1 small
      obtain ⟨other, others_nodup⟩ := List.nodup_cons.1 nodup
      refine List.nodup_cons.2 ⟨fun there => ?_, ih small_others others_nodup⟩
      obtain ⟨n', hn', k, same⟩ := AnyRecord.exists_of_mem_ids there
      exact other (Kind.generated_inj small_first (small_others n' hn') same ▸ hn')

theorem forall₂_ids {P : AnyRecord → Nat → Prop} {Q : AnyRecord → String → Prop}
    {ms : List AnyRecord} {ns : List Nat} (lift : ∀ m, ∀ n ∈ ns, P m n → Q m (m.1.generated n))
    (h : List.Forall₂ P ms ns) : List.Forall₂ Q ms (AnyRecord.ids ms ns) := by
  induction h with
  | nil => exact .nil
  | @cons m n ms ns given _ ih =>
    exact .cons (lift m n List.mem_cons_self given)
      (ih fun m n hn => lift m n (List.mem_cons_of_mem _ hn))

/-- The records without an identifier that are left get identifiers of their own. -/
theorem exists_ids_of_run {l : Listing} {s : Store} {supply : Supply} {x' : Seeding}
    (run : Seeding.Run l.collections.definitions ⟨s, supply, ⟨0, 0⟩⟩ x')
    (unused : s.Unused l.kept supply) :
    ∃ ids : List String, ids.Nodup ∧
      List.Forall₂ (s.Takes x'.store) (l.kept.filter AnyRecord.unnamed) ids := by
  have unnamed := l.definitions_perm.filter AnyRecord.unnamed
  have numbered {n : Nat} (low : supply.nextId ≤ n)
      (high : n < supply.nextId + (l.kept.filter AnyRecord.unnamed).length) :
      n ∈ supply.numbers l.kept :=
    List.mem_range'_1.2 ⟨low, high⟩
  have given := run.find?_generated unused.enough
    (Nat.add_le_add_left (Nat.le_of_eq unnamed.length_eq) _)
    (fun k n low high => unused.free k n (numbered low high))
    (fun m hm n low high => unused.apart m (l.definitions_perm.mem_iff.1 hm) n (numbered low high))
  rw [unnamed.length_eq] at given
  obtain ⟨ns, each, same⟩ := List.perm_comp_forall₂ unnamed.symm given
  have range {n : Nat} (hn : n ∈ ns) : n ∈ supply.numbers l.kept := same.mem_iff.1 hn
  have small {n : Nat} (hn : n ∈ ns) : n < 2 ^ 122 :=
    Nat.lt_of_lt_of_le (List.mem_range'_1.1 (range hn)).2 unused.enough
  exact ⟨AnyRecord.ids _ ns, nodup_ids _ (fun n hn => small hn)
      (same.nodup_iff.2 List.nodup_range'),
    forall₂_ids (fun m n hn found => ⟨unused.free m.1 n (range hn), found⟩) each⟩

/-- Every bundle that is read is that of the lists in its text, and where it is seeded, those of
their records are counted, and get to the store, that no later one has the identifier of. -/
theorem tallied_of_seed {text : String} {loading after : Supply} {bundle : Collections}
    (read : readSnapshot text loading = some (bundle, after)) :
    ∃ l : Listing, Listing.ofText text loading = some (l, after) ∧ bundle = l.collections ∧
      ∀ (s : Store) (supply : Supply) (report : SeedReport) (s' : Store) (later : Supply),
        s.seed bundle supply = (.ok report, s', later) → l.Tallied s supply report s' := by
  rw [Listing.readSnapshot_eq] at read
  obtain ⟨⟨l, _⟩, listed, same⟩ := Option.map_eq_some_iff.1 read
  cases same
  refine ⟨l, listed, rfl, fun s supply report s' later seeded => ?_⟩
  rcases s.seed_spec l.collections supply with ⟨x', done, run⟩ | ⟨reason, _, _, failed, -⟩
  · rw [seeded] at done
    cases done
    have counted : x'.report.created + x'.report.skipped = l.kept.length := by
      rw [run.counted, l.definitions_perm.length_eq]
      exact Nat.zero_add _
    refine ⟨counted, ?_, Listing.kept_eq_definitions, ?_, exists_ids_of_run run⟩
    · rw [counted]
      exact Listing.length_kept_eq_iff
    · rintro ⟨k, r⟩ hm named
      obtain ⟨r', left, same⟩ := Listing.exists_mem_latest (Listing.mem_definitions.1 hm)
      rw [AnyRecord.unnamed, same] at named
      have there : (⟨k, r'⟩ : AnyRecord) ∈ l.collections.definitions :=
        l.definitions_perm.mem_iff.2 (Listing.mem_kept.2 left)
      have found := run.isSome_find? there named
      rw [← same] at found
      exact found
  · rw [seeded] at failed
    cases failed

/-- A bundle of two actions without an identifier. -/
def twins : Document :=
  .object [("actions", .array
    [.object [("name", .string "Ring"), ("type", .string "bell")],
      .object [("name", .string "Knock"), ("type", .string "door")]])]

/-- Two records are listed, but one of them is lost, and only the other gets an identifier. -/
theorem tallied_of_seed_twins :
    ∃ l after s' later, Listing.ofText twins.pretty default = some (l, after) ∧
      l.definitions.length = 2 ∧
      inMemory.seed l.collections default = (.ok ⟨1, 0⟩, s', later) ∧
      l.Tallied inMemory default ⟨1, 0⟩ s' ∧ inMemory.Unused l.kept default := by
  have action (name type : String) : (Document.object [("name", .string name),
      ("type", .string type)]).Printable := ⟨trivial, trivial, trivial⟩
  have text : Document.read? twins.pretty = some twins :=
    Document.read?_pretty (d := twins) ⟨⟨action _ _, action _ _, trivial⟩, trivial⟩
  have listed : ∃ l after s' later, Listing.ofText twins.pretty default = some (l, after) ∧
      l.definitions.length = 2 ∧
      inMemory.seed l.collections default = (.ok ⟨1, 0⟩, s', later) ∧
      inMemory.Unused l.kept default := by
    rw [Listing.ofText, text]
    refine ⟨_, _, _, _, rfl, rfl, rfl, ⟨by decide, ?_, by decide⟩⟩
    intro k n _
    cases k <;> rfl
  obtain ⟨l, after, s', later, listed, two, seeded, unused⟩ := listed
  have read : readSnapshot twins.pretty default = some (l.collections, after) := by
    rw [Listing.readSnapshot_eq, listed]
    rfl
  obtain ⟨l', listed', -, tallied⟩ := tallied_of_seed read
  rw [listed] at listed'
  cases listed'
  exact ⟨l, after, s', later, listed, two, seeded, tallied _ _ _ _ _ seeded, unused⟩

end Store

end EventFlow
