import EventFlow.Proofs.Store.Requests
import EventFlow.Store.Bundle

/-!
# Seeding

A bundle is added record by record, kind after kind. A record is put into the store, under an
identifier of its own if it has none, or skipped because its identifier is taken (`Seeding.Adds`);
nothing else can happen unless the store cannot write (`Store.Reliable`). So a bundle that is seeded
goes through a `Seeding.Run` over its records (`Store.seed_spec`), which counts all of them and
leaves what was in the store before as it was. Seeding is `Store.seed`, record after record by
`Store.seedRecord` (`EventFlow.Store.Bundle`).
-/

set_option autoImplicit false

namespace EventFlow

/-! ## Records of any kind -/

namespace Kind

/-- All kinds, in the order in which a bundle is added. -/
def all : List Kind := [workflow, step, condition, action]

/-- A record as a bundle puts it into a store: a workflow was last updated when it was created. -/
def admitted : (k : Kind) → k.Record → k.Record
  | workflow, w => { w with updatedAt := w.createdAt }
  | step, s => s
  | condition, x => x
  | action, a => a

@[simp] theorem id_admitted {k : Kind} (r : k.Record) :
    Definition.id (k.admitted r) = Definition.id r := by
  cases k <;> rfl

/-- A table as a bundle puts it into an empty store. -/
def admittedTable (k : Kind) (t : Table k.Record) : Table k.Record :=
  t.map fun entry => (entry.1, k.admitted entry.2)

/-- How a bundle adds a record of a kind. -/
def add (k : Kind) (s : Store) (r : k.Record) (supply : Supply) :
    Except StoreError k.Record × Store × Supply :=
  s.create (k.admitted r) supply

/-- The identifier of a kind that is generated with a number. -/
def generated (k : Kind) (n : Nat) : String :=
  Definition.idWord k.Record ++ "_" ++ (Uuid.ofIndex n).simple

theorem generated_inj {k k' : Kind} {n m : Nat} (hn : n < 2 ^ 122) (hm : m < 2 ^ 122)
    (h : k.generated n = k'.generated m) : n = m := by
  have chars := congrArg String.toList h
  simp only [generated, String.toList_append, Uuid.simple, String.toList_ofList] at chars
  have digits := (List.append_inj' chars (by rw [Uuid.length_digits, Uuid.length_digits])).2
  exact Uuid.ofIndex_inj hn hm (Uuid.simple_inj (congrArg String.ofList digits))

end Kind

/-- A record of some kind. -/
abbrev AnyRecord := (k : Kind) × k.Record

namespace AnyRecord

/-- Whether a record has no identifier. -/
def unnamed (m : AnyRecord) : Bool := Text.isBlankText (Definition.id m.2)

end AnyRecord

/-- The definitions that collections hold, in the order in which a bundle is added. -/
def Collections.definitions (c : Collections) : List AnyRecord :=
  Kind.all.flatMap fun k => (c.table k).records.map (⟨k, ·⟩)

/-- Every write of the store will succeed. -/
def Store.Reliable (s : Store) : Prop :=
  ∀ b, s.backing = some b → ∀ n, b.outcomes n = .written

/-! ## One record -/

namespace Store

variable {α : Type}

/-- A change that is not refused is made, unless the store cannot write. -/
theorem commit_of_ok {s : Store} {change : Change α} {a : α} {changed : Collections}
    (accepted : change s.collections = (.ok a, changed)) :
    (∃ s', s.commit change = (.ok a, s') ∧ s'.collections = changed ∧
        (s.Reliable → s'.Reliable)) ∨
      ∃ reason s', s.commit change = (.error (.snapshotFile reason), s') ∧ ¬ s.Reliable := by
  obtain ⟨c, backing⟩ := s
  cases backing with
  | none =>
    refine .inl ⟨⟨changed, none⟩, by simp [commit, accepted], rfl, ?_⟩
    intro _ b same
    cases same
  | some b =>
    have failed {outcome : WriteOutcome} (first : b.outcomes 0 = outcome)
        (bad : outcome ≠ .written) : ¬ (⟨c, some b⟩ : Store).Reliable := fun reliable =>
      bad (first.symm.trans (reliable b rfl 0))
    cases first : b.outcomes 0 with
    | written =>
      refine .inl ⟨_, by simp only [commit, accepted, Backing.write, first]; rfl, rfl, ?_⟩
      intro reliable b' same n
      cases same
      exact reliable b rfl (n + 1)
    | temporaryFailed reason =>
      exact .inr ⟨reason, _, by simp only [commit, accepted, Backing.write, first]; rfl,
        failed first WriteOutcome.noConfusion⟩
    | renameFailed reason =>
      exact .inr ⟨reason, _, by simp only [commit, accepted, Backing.write, first]; rfl,
        failed first WriteOutcome.noConfusion⟩

end Store

namespace Store.Seeding

variable {k : Kind}

/-- What comes of a record that is added: it is put into the store under an identifier that was
free, or skipped because its identifier is taken. -/
inductive Adds (x : Seeding) (m : AnyRecord) : Seeding → Prop
  | created {r : m.1.Record} {later : Supply} {store : Store}
      (identified : Store.identified (m.1.admitted m.2) x.supply = (r, later))
      (free : Assoc.find? (Definition.id r) (x.store.collections.table m.1) = none)
      (put : store.collections = Store.put r x.store.collections) :
      Adds x m ⟨store, later, ⟨x.report.created + 1, x.report.skipped⟩⟩
  | skipped {r other : m.1.Record} {later : Supply}
      (identified : Store.identified (m.1.admitted m.2) x.supply = (r, later))
      (taken : Assoc.find? (Definition.id r) (x.store.collections.table m.1) = some other) :
      Adds x m ⟨x.store, later, ⟨x.report.created, x.report.skipped + 1⟩⟩

/-- A record whose identifier is taken is skipped, and the store is not touched. -/
theorem seedRecord_of_taken {x : Seeding} {m : AnyRecord} {r other : m.1.Record} {later : Supply}
    (identity : identified (m.1.admitted m.2) x.supply = (r, later))
    (taken : Assoc.find? (Definition.id r) (x.store.collections.table m.1) = some other) :
    seedRecord m.1.add x m.2 =
      (.ok (), ⟨x.store, later, ⟨x.report.created, x.report.skipped + 1⟩⟩) := by
  have refused : creation r x.store.collections = (.error
      (.duplicate (Definition.collection m.1.Record) (Definition.id r)), x.store.collections) := by
    rw [Collections.table] at taken
    rw [creation, taken]
  have kept := commit_of_error (careful_creation r) refused
  simp only [seedRecord, Kind.add, create, identity, kept]

/-- A record is added, unless the store cannot write. -/
theorem adds_of_seedRecord (x : Seeding) (m : AnyRecord) :
    (∃ x', seedRecord m.1.add x m.2 = (.ok (), x') ∧ x.Adds m x' ∧
        (x.store.Reliable → x'.store.Reliable)) ∨
      ∃ reason x', seedRecord m.1.add x m.2 = (.error (.snapshotFile reason), x') ∧
        ¬ x.store.Reliable := by
  obtain ⟨k, given⟩ := m
  obtain ⟨s, supply, report⟩ := x
  rcases identity : identified (k.admitted given) supply with ⟨r, later⟩
  cases found : Assoc.find? (Definition.id r) (s.collections.table k) with
  | some other =>
    exact .inl ⟨_, seedRecord_of_taken (m := ⟨k, given⟩) identity found,
      .skipped identity found, id⟩
  | none =>
    have accepted : creation r s.collections = (.ok r, put r s.collections) := by
      rw [Collections.table] at found
      rw [creation, found]
    rcases commit_of_ok accepted with ⟨s', done, collections, reliable⟩ | ⟨reason, s', failed, bad⟩
    · refine .inl ⟨_, ?_, .created identity found collections, reliable⟩
      simp only [seedRecord, Kind.add, create, identity, done]
    · refine .inr ⟨reason, ⟨s', later, report⟩, ?_, bad⟩
      simp only [seedRecord, Kind.add, create, identity, failed]

section Adds

variable {x x' : Seeding} {m : AnyRecord}

theorem Adds.counted (h : x.Adds m x') : x'.report.created + x'.report.skipped =
    x.report.created + x.report.skipped + 1 := by
  cases h with
  | created => exact Nat.add_right_comm _ 1 _
  | skipped => rfl

/-- What is in the store stays there. -/
theorem Adds.find?_eq_some (h : x.Adds m x') {k : Kind} {key : String} {r : k.Record}
    (found : Assoc.find? key (x.store.collections.table k) = some r) :
    Assoc.find? key (x'.store.collections.table k) = some r := by
  cases h with
  | @created added _ _ _ free put =>
    rw [put, Store.put]
    by_cases same : k = m.1
    · subst same
      have other : key ≠ Definition.id added := by
        rintro rfl
        rw [found] at free
        cases free
      rw [Collections.table_setTable, Assoc.find?_insert_of_ne other]
      exact found
    · rw [Collections.table_setTable_of_ne same]
      exact found
  | skipped => exact found

theorem identified_of_named {r : m.1.Record} {later : Supply} (named : m.unnamed = false)
    (identity : identified (m.1.admitted m.2) x.supply = (r, later)) :
    r = m.1.admitted m.2 ∧ later = x.supply := by
  rw [AnyRecord.unnamed, ← Kind.id_admitted] at named
  rw [identified, if_neg (by rw [named]; exact Bool.false_ne_true)] at identity
  cases identity
  exact ⟨rfl, rfl⟩

theorem identified_of_unnamed {r : m.1.Record} {later : Supply} (unnamed : m.unnamed = true)
    (identity : identified (m.1.admitted m.2) x.supply = (r, later)) :
    r = Definition.withId (m.1.generated x.supply.nextId) (m.1.admitted m.2) ∧
      later.nextId = x.supply.nextId + 1 := by
  rw [AnyRecord.unnamed, ← Kind.id_admitted] at unnamed
  rw [identified, if_pos unnamed] at identity
  cases identity
  exact ⟨rfl, rfl⟩

/-- A record that has an identifier is in the store afterwards, or another one is under it. -/
theorem Adds.isSome_find? (h : x.Adds m x') (named : m.unnamed = false) :
    (Assoc.find? (Definition.id m.2) (x'.store.collections.table m.1)).isSome = true := by
  cases h with
  | created identity free put =>
    obtain ⟨rfl, rfl⟩ := identified_of_named named identity
    rw [put, Store.put, Collections.table_setTable, Kind.id_admitted, Assoc.find?_insert_self]
    rfl
  | skipped identity taken =>
    obtain ⟨rfl, rfl⟩ := identified_of_named named identity
    rw [Kind.id_admitted] at taken
    rw [taken]
    rfl

/-- What an identifier that is not given to the record stands for is left as it was. -/
theorem Adds.find?_of_ne (h : x.Adds m x') {k : Kind} {key : String}
    (other : ∀ r later, identified (m.1.admitted m.2) x.supply = (r, later) →
      k = m.1 → key ≠ Definition.id r) :
    Assoc.find? key (x'.store.collections.table k) =
      Assoc.find? key (x.store.collections.table k) := by
  cases h with
  | created identity _ put =>
    rw [put, Store.put]
    by_cases same : k = m.1
    · subst same
      rw [Collections.table_setTable, Assoc.find?_insert_of_ne (other _ _ identity rfl)]
      rfl
    · rw [Collections.table_setTable_of_ne same]
  | skipped => rfl

/-- A record that has no identifier is put under the one that is generated for it, if that is
free. -/
theorem Adds.find?_generated (h : x.Adds m x') (unnamed : m.unnamed = true)
    (free : Assoc.find? (m.1.generated x.supply.nextId) (x.store.collections.table m.1) = none) :
    Assoc.find? (m.1.generated x.supply.nextId) (x'.store.collections.table m.1) =
      some (Definition.withId (m.1.generated x.supply.nextId) (m.1.admitted m.2)) := by
  cases h with
  | created identity _ put =>
    obtain ⟨rfl, -⟩ := identified_of_unnamed unnamed identity
    have found := Assoc.find?_insert_self
      (Definition.id (Definition.withId (m.1.generated x.supply.nextId) (m.1.admitted m.2)))
      (Definition.withId (m.1.generated x.supply.nextId) (m.1.admitted m.2))
      (x.store.collections.table m.1)
    rw [put, Store.put, Collections.table_setTable]
    rw [Kind.id_withId] at found ⊢
    exact found
  | skipped identity taken =>
    obtain ⟨rfl, -⟩ := identified_of_unnamed unnamed identity
    rw [Kind.id_withId, free] at taken
    cases taken

/-- The identifiers that are generated later stay as they were. -/
theorem Adds.find?_of_lt (h : x.Adds m x') (unnamed : m.unnamed = true) (k : Kind) {n : Nat}
    (later : x.supply.nextId < n) (small : n < 2 ^ 122) :
    Assoc.find? (k.generated n) (x'.store.collections.table k) =
      Assoc.find? (k.generated n) (x.store.collections.table k) := by
  refine h.find?_of_ne fun r supply identity kind same => ?_
  obtain ⟨rfl, -⟩ := identified_of_unnamed unnamed identity
  rw [Kind.id_withId] at same
  have number := Kind.generated_inj small (Nat.lt_trans later small) same
  omega

/-- A record whose identifier is free is created under it. -/
theorem Adds.created_of_free (h : x.Adds m x') (named : m.unnamed = false)
    (free : Assoc.find? (Definition.id m.2) (x.store.collections.table m.1) = none) :
    x'.supply = x.supply ∧ x'.report.skipped = x.report.skipped ∧
      x'.store.collections = Store.put (m.1.admitted m.2) x.store.collections := by
  cases h with
  | created identity _ put =>
    obtain ⟨rfl, rfl⟩ := identified_of_named named identity
    exact ⟨rfl, rfl, put⟩
  | skipped identity taken =>
    obtain ⟨rfl, rfl⟩ := identified_of_named named identity
    rw [Kind.id_admitted, free] at taken
    cases taken

theorem Adds.nextId_of_unnamed (h : x.Adds m x') (unnamed : m.unnamed = true) :
    x'.supply.nextId = x.supply.nextId + 1 := by
  cases h with
  | created identity => exact (identified_of_unnamed unnamed identity).2
  | skipped identity => exact (identified_of_unnamed unnamed identity).2

theorem Adds.supply_of_named (h : x.Adds m x') (named : m.unnamed = false) :
    x'.supply = x.supply := by
  cases h with
  | created identity => exact (identified_of_named named identity).2
  | skipped identity => exact (identified_of_named named identity).2

end Adds

/-! ## All records -/

/-- Records are added one after the other. -/
inductive Run : List AnyRecord → Seeding → Seeding → Prop
  | nil (x : Seeding) : Run [] x x
  | cons {m : AnyRecord} {rest : List AnyRecord} {x x' x'' : Seeding} (first : x.Adds m x')
      (others : Run rest x' x'') : Run (m :: rest) x x''

theorem Run.append {ms ms' : List AnyRecord} {x x' x'' : Seeding} (h : Run ms x x')
    (h' : Run ms' x' x'') : Run (ms ++ ms') x x'' := by
  induction h with
  | nil x => exact h'
  | cons first _ ih => exact .cons first (ih h')

theorem Run.exists_of_append {ms ms' : List AnyRecord} {x x'' : Seeding}
    (h : Run (ms ++ ms') x x'') : ∃ x', Run ms x x' ∧ Run ms' x' x'' := by
  induction ms generalizing x with
  | nil => exact ⟨x, .nil x, h⟩
  | cons m rest ih =>
    cases h with
    | cons first others =>
      obtain ⟨x', before, after⟩ := ih others
      exact ⟨x', .cons first before, after⟩

section Run

variable {ms : List AnyRecord} {x x' : Seeding}

theorem Run.counted (h : Run ms x x') : x'.report.created + x'.report.skipped =
    x.report.created + x.report.skipped + ms.length := by
  induction h with
  | nil => rfl
  | cons first _ ih =>
    rw [ih, first.counted, List.length_cons]
    omega

theorem Run.find?_eq_some (h : Run ms x x') {k : Kind} {key : String} {r : k.Record}
    (found : Assoc.find? key (x.store.collections.table k) = some r) :
    Assoc.find? key (x'.store.collections.table k) = some r := by
  induction h with
  | nil => exact found
  | cons first _ ih => exact ih (first.find?_eq_some found)

/-- All records that have an identifier are in the store afterwards, or others are under them. -/
theorem Run.isSome_find? (h : Run ms x x') {m : AnyRecord} (hm : m ∈ ms)
    (named : m.unnamed = false) :
    (Assoc.find? (Definition.id m.2) (x'.store.collections.table m.1)).isSome = true := by
  induction h with
  | nil => cases hm
  | cons first others ih =>
    rcases List.mem_cons.1 hm with rfl | later
    · obtain ⟨r, found⟩ := Option.isSome_iff_exists.1 (first.isSome_find? named)
      rw [others.find?_eq_some found]
      rfl
    · exact ih later

/-- The records that have no identifier are put under those that are generated for them, one after
the other, if these are free and are not those of other records. -/
theorem Run.find?_generated (h : Run ms x x') {stop : Nat} (small : stop ≤ 2 ^ 122)
    (enough : x.supply.nextId + (ms.filter AnyRecord.unnamed).length ≤ stop)
    (free : ∀ k : Kind, ∀ n, x.supply.nextId ≤ n → n < stop →
      Assoc.find? (k.generated n) (x.store.collections.table k) = none)
    (apart : ∀ m ∈ ms, ∀ n, x.supply.nextId ≤ n → n < stop →
      Definition.id m.2 ≠ m.1.generated n) :
    List.Forall₂ (fun m n => Assoc.find? (m.1.generated n) (x'.store.collections.table m.1) =
        some (Definition.withId (m.1.generated n) (m.1.admitted m.2)))
      (ms.filter AnyRecord.unnamed)
      (List.range' x.supply.nextId (ms.filter AnyRecord.unnamed).length) := by
  induction h with
  | nil => exact .nil
  | @cons m rest x x' x'' first others ih =>
    obtain ⟨apart_first, apart_others⟩ := List.forall_mem_cons.1 apart
    cases unnamed : m.unnamed with
    | true =>
      rw [List.filter_cons, if_pos unnamed] at enough ⊢
      rw [List.length_cons] at enough ⊢
      have next := first.nextId_of_unnamed unnamed
      have here := first.find?_generated unnamed (free m.1 _ (Nat.le_refl _) (by omega))
      have later : ∀ k : Kind, ∀ n, x'.supply.nextId ≤ n → n < stop →
          Assoc.find? (k.generated n) (x'.store.collections.table k) = none := by
        intro k n after before
        rw [first.find?_of_lt unnamed k (by omega) (by omega)]
        exact free k n (by omega) before
      have rest := ih (by omega) later fun m hm n after => apart_others m hm n (by omega)
      rw [next] at rest
      exact .cons (others.find?_eq_some here) rest
    | false =>
      rw [List.filter_cons, if_neg (by rw [unnamed]; exact Bool.false_ne_true)] at enough ⊢
      have supply := first.supply_of_named unnamed
      rw [← supply] at enough free apart_first apart_others ⊢
      refine ih enough (fun k n after before => ?_) apart_others
      rw [first.find?_of_ne, free k n after before]
      rintro r later identity rfl same
      obtain ⟨rfl, -⟩ := identified_of_named unnamed identity
      rw [Kind.id_admitted] at same
      exact apart_first n after before same.symm

end Run

/-- What comes of a part of a seeding: its records are added, unless the store cannot write. -/
def Completes (ms : List AnyRecord) (x : Seeding) (result : Except StoreError Unit × Seeding) :
    Prop :=
  (∃ x', result = (.ok (), x') ∧ Run ms x x' ∧ (x.store.Reliable → x'.store.Reliable)) ∨
    ∃ reason x', result = (.error (.snapshotFile reason), x') ∧ ¬ x.store.Reliable

theorem completes_seedRecords (k : Kind) (records : List k.Record) (x : Seeding) :
    Completes (records.map (⟨k, ·⟩)) x (seedRecords k.add records x) := by
  induction records generalizing x with
  | nil => exact .inl ⟨x, rfl, .nil x, id⟩
  | cons r rest ih =>
    rcases adds_of_seedRecord x ⟨k, r⟩ with ⟨x', done, adds, reliable⟩ | ⟨reason, x', failed, bad⟩
    · rw [seedRecords, done]
      rcases ih x' with ⟨x'', done', run, reliable'⟩ | ⟨reason, x'', failed, bad⟩
      · exact .inl ⟨x'', done', .cons adds run, reliable' ∘ reliable⟩
      · exact .inr ⟨reason, x'', failed, mt reliable bad⟩
    · rw [seedRecords, failed]
      exact .inr ⟨reason, x', rfl, bad⟩

/-- Kinds are added one after the other. -/
theorem completes_chain (c : Collections) (kinds : List Kind) (x : Seeding) :
    Completes (kinds.flatMap fun k => (c.table k).records.map (⟨k, ·⟩)) x
      (seed.chain (kinds.map fun k => seedRecords k.add (c.table k).records) x) := by
  induction kinds generalizing x with
  | nil => exact .inl ⟨x, rfl, .nil x, id⟩
  | cons k rest ih =>
    rw [List.map_cons, List.flatMap_cons, seed.chain]
    rcases completes_seedRecords k (c.table k).records x with
      ⟨x', done, run, reliable⟩ | ⟨reason, x', failed, bad⟩
    · rw [done]
      rcases ih x' with ⟨x'', done', run', reliable'⟩ | ⟨reason, x'', failed, bad⟩
      · exact .inl ⟨x'', done', run.append run', reliable' ∘ reliable⟩
      · exact .inr ⟨reason, x'', failed, mt reliable bad⟩
    · rw [failed]
      exact .inr ⟨reason, x', rfl, bad⟩

end Store.Seeding

/-- A bundle is seeded kind after kind. -/
theorem Store.seed_of_chain {s : Store} {bundle : Collections} {supply : Supply}
    {result : Except StoreError Unit × Seeding}
    (done : seed.chain (Kind.all.map fun k => seedRecords k.add (bundle.table k).records)
      ⟨s, supply, ⟨0, 0⟩⟩ = result) : s.seed bundle supply =
        (result.1.map fun () => result.2.report, result.2.store, result.2.supply) := by
  rw [← done]
  rfl

/-- A bundle that is seeded runs over its records, unless the store cannot write. -/
theorem Store.seed_spec (s : Store) (bundle : Collections) (supply : Supply) :
    (∃ x', s.seed bundle supply = (.ok x'.report, x'.store, x'.supply) ∧
        Seeding.Run bundle.definitions ⟨s, supply, ⟨0, 0⟩⟩ x') ∨
      ∃ reason s' later, s.seed bundle supply = (.error (.snapshotFile reason), s', later) ∧
        ¬ s.Reliable := by
  rcases Seeding.completes_chain bundle Kind.all ⟨s, supply, ⟨0, 0⟩⟩ with
    ⟨x', done, run, -⟩ | ⟨reason, x', failed, bad⟩
  · exact .inl ⟨x', seed_of_chain done, run⟩
  · exact .inr ⟨reason, x'.store, x'.supply, seed_of_chain failed, bad⟩

end EventFlow
