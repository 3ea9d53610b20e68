import EventFlow.Proofs.Store.Listing

/-!
# Seeding again

A bundle that has been seeded has its identifiers in the store. So when it is seeded again, each
record that has one is skipped, and the store is not touched for it
(`Store.Seeding.seedRecord_of_taken`). A record without one is created once more, under another
identifier, and only its entry comes to the store (`Store.Seeding.Run.refills`). Nothing that is in
the store is changed by either (`Store.reseeded_of_seed`). Seeding is `Store.seed`, in
`EventFlow.Store.Bundle`.
-/

set_option autoImplicit false

namespace EventFlow

/-! ## Entries -/

/-- Every kind is there once. -/
theorem Kind.exists_all_eq (k : Kind) :
    ∃ before after, all = before ++ k :: after ∧ k ∉ before ∧ k ∉ after := by
  cases k with
  | workflow => exact ⟨[], _, rfl, by decide, by decide⟩
  | step => exact ⟨[workflow], _, rfl, by decide, by decide⟩
  | condition => exact ⟨[workflow, step], _, rfl, by decide, by decide⟩
  | action => exact ⟨[workflow, step, condition], _, rfl, by decide, by decide⟩

/-- The entry of a record that is put into a store under an identifier. -/
def AnyRecord.entry (m : AnyRecord) (id : String) : (k : Kind) × String × k.Record :=
  ⟨m.1, id, Definition.withId id (m.1.admitted m.2)⟩

/-- An identifier that is generated is not blank. -/
theorem Kind.isBlankText_generated (k : Kind) (n : Nat) :
    Text.isBlankText (k.generated n) = false :=
  Store.isBlankText_recordId _ { (default : Supply) with nextId := n }

theorem AnyRecord.zipWith_entry_ids (ms : List AnyRecord) (ns : List Nat) :
    List.zipWith entry ms (ids ms ns) =
      List.zipWith (fun m n => m.entry (m.1.generated n)) ms ns := by
  induction ms generalizing ns with
  | nil => rfl
  | cons m ms ih =>
    cases ns with
    | nil => rfl
    | cons n ns => exact congrArg _ (ih ns)

namespace Collections

/-- The entries of the tables, in the order in which a bundle is added. -/
def entries (c : Collections) : List ((k : Kind) × String × k.Record) :=
  Kind.all.flatMap fun k => (c.table k).map (⟨k, ·⟩)

/-- The entries before those of a kind, its own, and those after them. -/
theorem entries_eq {k : Kind} {before after : List Kind} (all : Kind.all = before ++ k :: after)
    (c : Collections) : c.entries = (before.flatMap fun k => (c.table k).map (⟨k, ·⟩)) ++
      ((c.table k).map (⟨k, ·⟩) ++ after.flatMap fun k => (c.table k).map (⟨k, ·⟩)) := by
  rw [entries, all, List.flatMap_append, List.flatMap_cons]

/-- A record that is put under an identifier that is free comes to the entries there are. -/
theorem entries_put_perm {k : Kind} (r : k.Record) {c : Collections}
    (free : Assoc.find? (Definition.id r) (c.table k) = none) :
    (Store.put r c).entries.Perm (⟨k, Definition.id r, r⟩ :: c.entries) := by
  obtain ⟨before, after, all, outside, outside'⟩ := k.exists_all_eq
  have others {kinds : List Kind} (out : k ∉ kinds) :
      (kinds.flatMap fun k' => ((Store.put r c).table k').map (Sigma.mk k')) =
        kinds.flatMap fun k' => (c.table k').map (Sigma.mk k') := by
    refine List.flatMap_congr fun k' hk' => ?_
    have apart : k' ≠ k := fun same => out (same ▸ hk')
    rw [Store.put, table_setTable_of_ne apart]
  have here := List.Perm.map (Sigma.mk (β := fun k => String × k.Record) k)
    (Assoc.insert_perm_cons r free)
  rw [entries_eq all, entries_eq all, others outside, others outside', Store.put, table_setTable]
  exact ((here.append_right _).append_left _).trans List.perm_middle

end Collections

/-! ## A bundle whose identifiers are taken -/

/-- There are identifiers enough for a number of records, and those that will be generated next are
free. -/
structure Store.Vacant (s : Store) (supply : Supply) (count : Nat) : Prop where
  enough : supply.nextId + count ≤ 2 ^ 122
  free : ∀ k : Kind, ∀ n, supply.nextId ≤ n → n < supply.nextId + count →
    Assoc.find? (k.generated n) (s.collections.table k) = none

/-- Every record of a store is found in another as it is. -/
def Store.Within (s s' : Store) : Prop :=
  ∀ (k : Kind) (key : String) (r : k.Record),
    Assoc.find? key (s.collections.table k) = some r →
      Assoc.find? key (s'.collections.table k) = some r

/-- Every record that has an identifier finds it taken. -/
def Store.HasNamed (s : Store) (ms : List AnyRecord) : Prop :=
  ∀ m ∈ ms, m.unnamed = false →
    (Assoc.find? (Definition.id m.2) (s.collections.table m.1)).isSome = true

theorem Store.HasNamed.of_within {s s' : Store} {ms : List AnyRecord} (h : s.HasNamed ms)
    (within : s.Within s') : s'.HasNamed ms := by
  intro m hm named
  obtain ⟨r, found⟩ := Option.isSome_iff_exists.1 (h m hm named)
  rw [within m.1 _ r found]
  rfl

namespace Store.Seeding

variable {m : AnyRecord} {ms : List AnyRecord} {x x' : Seeding}

/-- The seeding after a number of records that are skipped. -/
def skip (n : Nat) (x : Seeding) : Seeding :=
  { x with report := { x.report with skipped := x.report.skipped + n } }

theorem skip_skip (n n' : Nat) (x : Seeding) : (x.skip n).skip n' = x.skip (n + n') := by
  simp only [skip, Nat.add_assoc]

theorem identified_eq_of_named (named : m.unnamed = false) (supply : Supply) :
    identified (m.1.admitted m.2) supply = (m.1.admitted m.2, supply) := by
  rw [AnyRecord.unnamed, ← Kind.id_admitted] at named
  rw [identified, if_neg (by rw [named]; exact Bool.false_ne_true)]

/-- A record that has an identifier is skipped where that is taken. -/
theorem seedRecord_eq_skip (named : m.unnamed = false)
    (taken : (Assoc.find? (Definition.id m.2) (x.store.collections.table m.1)).isSome = true) :
    seedRecord m.1.add x m.2 = (.ok (), x.skip 1) := by
  obtain ⟨other, found⟩ := Option.isSome_iff_exists.1 taken
  rw [← Kind.id_admitted] at found
  exact seedRecord_of_taken (identified_eq_of_named named x.supply) found

theorem seedRecords_eq_skip {k : Kind} {records : List k.Record}
    (named : ∀ m ∈ records.map (Sigma.mk (β := Kind.Record) k), AnyRecord.unnamed m = false)
    (taken : x.store.HasNamed (records.map (⟨k, ·⟩))) :
    seedRecords k.add records x = (.ok (), x.skip records.length) := by
  induction records generalizing x with
  | nil => rfl
  | cons r rest ih =>
    rw [List.map_cons] at named taken
    obtain ⟨named_first, named_others⟩ := List.forall_mem_cons.1 named
    obtain ⟨taken_first, taken_others⟩ := List.forall_mem_cons.1 taken
    rw [seedRecords, seedRecord_eq_skip (m := ⟨k, r⟩) named_first (taken_first named_first)]
    have others := ih (x := x.skip 1) named_others taken_others
    rw [skip_skip, Nat.add_comm] at others
    exact others

theorem chain_eq_skip {c : Collections} {kinds : List Kind} {ms : List AnyRecord}
    (parts : ms = kinds.flatMap fun k => (c.table k).records.map (⟨k, ·⟩))
    (named : ∀ m ∈ ms, m.unnamed = false) (taken : x.store.HasNamed ms) :
    seed.chain (kinds.map fun k => seedRecords k.add (c.table k).records) x =
      (.ok (), x.skip ms.length) := by
  subst parts
  induction kinds generalizing x with
  | nil => rfl
  | cons k rest ih =>
    rw [List.flatMap_cons] at named taken ⊢
    obtain ⟨named_first, named_others⟩ := List.forall_mem_append.1 named
    obtain ⟨taken_first, taken_others⟩ := List.forall_mem_append.1 taken
    rw [List.map_cons, seed.chain, seedRecords_eq_skip named_first taken_first]
    have others := ih (x := x.skip (c.table k).records.length) named_others taken_others
    rw [skip_skip] at others
    rw [List.length_append, List.length_map]
    exact others

/-! ## Records without an identifier -/

theorem Adds.executions_eq (h : x.Adds m x') :
    x'.store.collections.executions = x.store.collections.executions := by
  cases h with
  | created _ _ put => rw [put, Store.put, Collections.executions_setTable]
  | skipped => rfl

theorem Run.executions_eq (h : Run ms x x') :
    x'.store.collections.executions = x.store.collections.executions := by
  induction h with
  | nil => rfl
  | cons first _ ih => rw [ih, first.executions_eq]

/-- A record that has an identifier is skipped where that is taken. -/
theorem Adds.eq_skip (h : x.Adds m x') (named : m.unnamed = false)
    (taken : (Assoc.find? (Definition.id m.2) (x.store.collections.table m.1)).isSome = true) :
    x' = x.skip 1 := by
  cases h with
  | created identity free =>
    obtain ⟨rfl, rfl⟩ := identified_of_named named identity
    rw [← Kind.id_admitted, free] at taken
    cases taken
  | skipped identity =>
    obtain ⟨rfl, rfl⟩ := identified_of_named named identity
    rfl

/-- A record without an identifier is created where the one generated for it is free. -/
theorem Adds.created_of_vacant {count : Nat} (h : x.Adds m x') (unnamed : m.unnamed = true)
    (vacant : x.store.Vacant x.supply (count + 1)) :
    x'.report = ⟨x.report.created + 1, x.report.skipped⟩ ∧
      x'.store.collections.entries.Perm
        (m.entry (m.1.generated x.supply.nextId) :: x.store.collections.entries) ∧
      x'.store.Vacant x'.supply count := by
  have next := h.nextId_of_unnamed unnamed
  have enough := vacant.enough
  refine and_assoc.1 ⟨?_, ⟨by omega, fun k n low high => ?_⟩⟩
  · cases h with
    | created identity free put =>
      obtain ⟨rfl, -⟩ := identified_of_unnamed unnamed identity
      have added := Collections.entries_put_perm _ free
      rw [← put, Kind.id_withId] at added
      exact ⟨rfl, added⟩
    | skipped identity taken =>
      obtain ⟨rfl, -⟩ := identified_of_unnamed unnamed identity
      rw [Kind.id_withId, vacant.free m.1 _ (Nat.le_refl _) (by omega)] at taken
      cases taken
  · rw [h.find?_of_lt unnamed k (by omega) (by omega)]
    exact vacant.free k n (by omega) (by omega)

/-- Of the records of a bundle whose identifiers are taken, those without one are created, one after
the other, and all others are skipped. -/
theorem Run.refills (h : Run ms x x') (taken : x.store.HasNamed ms)
    (vacant : x.store.Vacant x.supply (ms.filter AnyRecord.unnamed).length) :
    x'.report.created = x.report.created + (ms.filter AnyRecord.unnamed).length ∧
      x'.store.collections.entries.Perm
        (List.zipWith (fun m n => m.entry (m.1.generated n)) (ms.filter AnyRecord.unnamed)
          (x.supply.numbers ms) ++ x.store.collections.entries) := by
  induction h with
  | nil => exact ⟨rfl, .refl _⟩
  | @cons m rest x x' x'' first others ih =>
    obtain ⟨taken_first, taken_others⟩ := List.forall_mem_cons.1 taken
    have kept : x'.store.HasNamed rest :=
      Store.HasNamed.of_within taken_others fun _ _ _ => first.find?_eq_some
    rw [Supply.numbers]
    cases unnamed : m.unnamed with
    | true =>
      rw [List.filter_cons, if_pos unnamed, List.length_cons] at vacant ⊢
      obtain ⟨report, entry, later⟩ := first.created_of_vacant unnamed vacant
      obtain ⟨created, entries⟩ := ih kept later
      rw [report] at created
      rw [Supply.numbers, first.nextId_of_unnamed unnamed] at entries
      refine ⟨by rw [created]; exact Nat.add_right_comm _ 1 _, ?_⟩
      exact (entries.trans (entry.append_left _)).trans List.perm_middle
    | false =>
      have skipped := first.eq_skip unnamed (taken_first unnamed)
      subst skipped
      rw [List.filter_cons, if_neg (by rw [unnamed]; exact Bool.false_ne_true)] at vacant ⊢
      exact ih kept vacant

end Store.Seeding

/-! ## A bundle that is seeded again -/

/-- What comes of a bundle that is added to a store where its identifiers are taken. -/
structure Store.Reseeded (s : Store) (ms : List AnyRecord) (supply : Supply) (report : SeedReport)
    (s' : Store) : Prop where
  /-- The records that were there are there as they were. -/
  kept : s.Within s'
  ledger : s'.collections.executions = s.collections.executions
  /-- A record that has an identifier is skipped when its turn comes. -/
  skips : ∀ (before : List AnyRecord) (m : AnyRecord) (after : List AnyRecord),
    ms = before ++ m :: after → m.unnamed = false →
      ∀ x, Seeding.Run before ⟨s, supply, ⟨0, 0⟩⟩ x →
        seedRecord m.1.add x m.2 = (.ok (), x.skip 1)
  /-- For each record that has none, and for no other, there is a new entry under a new one. -/
  creates : s.Vacant supply (ms.filter AnyRecord.unnamed).length →
    report.created = (ms.filter AnyRecord.unnamed).length ∧
      report.skipped = (ms.filter fun m => !m.unnamed).length ∧
      ∃ ids : List String, ids.Nodup ∧
        List.Forall₂ (s.Takes s') (ms.filter AnyRecord.unnamed) ids ∧
        s'.collections.entries.Perm
          (List.zipWith AnyRecord.entry (ms.filter AnyRecord.unnamed) ids ++ s.collections.entries)

namespace Store

theorem Seeding.Run.reseeded {s : Store} {ms : List AnyRecord} {supply : Supply} {x' : Seeding}
    (h : Run ms ⟨s, supply, ⟨0, 0⟩⟩ x') (taken : s.HasNamed ms) :
    s.Reseeded ms supply x'.report x'.store := by
  refine ⟨fun _ _ _ => h.find?_eq_some, h.executions_eq, ?_, fun vacant => ?_⟩
  · rintro before m after rfl named x run
    have there := taken.of_within fun _ _ _ => run.find?_eq_some
    exact seedRecord_eq_skip named (there m (List.mem_append_right _ List.mem_cons_self) named)
  · obtain ⟨created, entries⟩ := h.refills taken vacant
    have counted := h.counted
    dsimp only at created counted
    have total := List.length_eq_length_filter_add (l := ms) AnyRecord.unnamed
    have numbered {n : Nat} (hn : n ∈ supply.numbers ms) := List.mem_range'_1.1 hn
    have apart : ∀ m ∈ ms, ∀ n, supply.nextId ≤ n →
        n < supply.nextId + (ms.filter AnyRecord.unnamed).length →
          Definition.id m.2 ≠ m.1.generated n := by
      intro m hm n low high same
      cases unnamed : m.unnamed with
      | true =>
        rw [AnyRecord.unnamed, same, Kind.isBlankText_generated] at unnamed
        cases unnamed
      | false =>
        have found := taken m hm unnamed
        rw [same, vacant.free m.1 n low high] at found
        cases found
    have given := h.find?_generated vacant.enough (Nat.le_refl _) vacant.free apart
    refine ⟨by omega, by omega, AnyRecord.ids _ (supply.numbers ms),
      nodup_ids _ (fun n hn => Nat.lt_of_lt_of_le (numbered hn).2 vacant.enough)
        List.nodup_range', forall₂_ids (fun m n hn found =>
          ⟨vacant.free m.1 n (numbered hn).1 (numbered hn).2, found⟩) given, ?_⟩
    rw [AnyRecord.zipWith_entry_ids]
    exact entries

/-- A bundle that has been seeded and is seeded again: records that have an identifier are skipped,
each of the others is created once more, and nothing else comes of it. -/
theorem reseeded_of_seed {s s₁ : Store} {bundle : Collections} {supply later : Supply}
    {report : SeedReport} (first : s.seed bundle supply = (.ok report, s₁, later)) :
    (∀ (supply' : Supply) (report' : SeedReport) (s₂ : Store) (later' : Supply),
      s₁.seed bundle supply' = (.ok report', s₂, later') →
        s₁.Reseeded bundle.definitions supply' report' s₂) ∧
      ((∀ m ∈ bundle.definitions, m.unnamed = false) → ∀ supply' : Supply,
        s₁.seed bundle supply' = (.ok ⟨0, bundle.definitions.length⟩, s₁, supply')) := by
  have taken : s₁.HasNamed bundle.definitions := by
    rcases s.seed_spec bundle supply with ⟨x', done, run⟩ | ⟨reason, _, _, failed, -⟩
    · rw [first] at done
      cases done
      exact fun m hm named => run.isSome_find? hm named
    · rw [first] at failed
      cases failed
  constructor
  · intro supply' report' s₂ later' again
    rcases s₁.seed_spec bundle supply' with ⟨x', done, run⟩ | ⟨reason, _, _, failed, -⟩
    · rw [again] at done
      cases done
      exact run.reseeded taken
    · rw [again] at failed
      cases failed
  · intro named supply'
    have parts : bundle.definitions =
      Kind.all.flatMap fun k => (bundle.table k).records.map (⟨k, ·⟩) := rfl
    have skipped : s₁.seed bundle supply' = _ :=
      seed_of_chain (Seeding.chain_eq_skip parts named taken)
    rw [skipped, Seeding.skip, Nat.zero_add]
    rfl

/-- A bundle of an action that has an identifier and one that has none. -/
def bells : Collections where
  workflows := []
  steps := []
  conditions := []
  actions := .ofRecords [⟨"ring", "Ring", "", "bell", "", [], .null, default, ""⟩,
    ⟨"", "Knock", "", "door", "", [], .null, default, ""⟩]
  executions := []

/-- The action that has an identifier is skipped, and the other one is there twice. -/
theorem reseeded_of_seed_bells :
    ∃ s₁ later s₂ later', inMemory.seed bells default = (.ok ⟨2, 0⟩, s₁, later) ∧
      s₁.seed bells later = (.ok ⟨1, 1⟩, s₂, later') ∧ s₁.Vacant later 1 ∧
      s₂.collections.actions.length = 3 ∧
      s₁.Reseeded bells.definitions later ⟨1, 1⟩ s₂ := by
  have again : ∃ s₁ later s₂ later', inMemory.seed bells default = (.ok ⟨2, 0⟩, s₁, later) ∧
      s₁.seed bells later = (.ok ⟨1, 1⟩, s₂, later') ∧ s₁.Vacant later 1 ∧
      s₂.collections.actions.length = 3 := by
    refine ⟨_, _, _, _, rfl, rfl, ⟨by decide, ?_⟩, rfl⟩
    intro k n low high
    obtain rfl := Nat.le_antisymm (Nat.lt_succ_iff.1 high) low
    cases k <;> rfl
  obtain ⟨s₁, later, s₂, later', first, second, vacant, three⟩ := again
  exact ⟨s₁, later, s₂, later', first, second, vacant, three,
    (reseeded_of_seed first).1 later ⟨1, 1⟩ s₂ later' second⟩

end Store

end EventFlow
