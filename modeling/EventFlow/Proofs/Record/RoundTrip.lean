import EventFlow.Proofs.Json.Recovery
import EventFlow.Proofs.Record.Sound

/-!
# Records are read back

A record that is written is read as it was, as far as the levels go that its reader may descend: for
each kind of record there is a lemma `yields_document`. It asks for what is said of the contents of
a record by `Sound`: free values have their members in key order, indices have 64 bits, and points
of time can be told by a text. For workflows these are `Workflow.document` and `Workflow.read`, in
`EventFlow.Record.Workflow`; every kind of record has a module of its own there.
-/

set_option autoImplicit false

namespace EventFlow

open Document

theorem Workflow.yields_document {w : Workflow} (h : Sound Instant.Readable w) :
    w.document.Yields Workflow.read w := by
  obtain ⟨values, created, updated⟩ := sound_iff.1 h
  apply yields_record fieldNames rfl (by decide)
  intro nesting
  simp only [membersHeight]
  refine .bind (recovers_orElse rfl (yields_string _) _ _) ?_
  refine .bind (recovers_required rfl (yields_string _) _) ?_
  refine .bind (recovers_orElse rfl (yields_string _) _ _) ?_
  refine .bind (recovers_orElse rfl (yields_name w.status.ofName?_name) _ _) ?_
  refine .bind (recovers_required rfl (yields_string _) _) ?_
  refine .bind (recovers_orElse rfl (yields_strings _) _ _) ?_
  refine .bind (recovers_orElse rfl (yields_json values) _ _) ?_
  refine .bind (recovers_orElse rfl (yields_instant created) _ _) ?_
  refine .bind (recovers_orElse rfl (yields_instant updated) _ _) ?_
  refine .bind (recovers_orElse rfl (yields_string _) _ _) ?_
  exact Reading.recovers_pure _ _

namespace ErrorPolicy

theorem ofDocument?_document (p : ErrorPolicy) : ofDocument? p.document = some p := by
  cases p with
  | stop => rfl
  | «continue» => rfl
  | retry attempts =>
    have small : attempts.toNat < UInt32.size := attempts.toNat_lt
    have fits : attempts.toNat < UInt64.size := Nat.lt_trans small (by decide)
    have read : retryOf? (.ofUInt64 attempts.toUInt64) = some (.retry attempts) := by
      rw [retryOf?, ← ofNat_toNat_uint32, natBelow?_ofNat small fits, Option.map_some,
        UInt32.ofNat_toNat]
    have readable : (Document.ofUInt64 attempts.toUInt64).isReadable = true := rfl
    simp [ofDocument?, document, read, readable]

theorem yields_document (p : ErrorPolicy) : p.document.Yields ErrorPolicy.read p := by
  have shallow : p.document.height = 1 := by cases p <;> rfl
  intro nesting
  cases nesting with
  | zero =>
    intro supply
    rw [shallow]
    cases p <;> rfl
  | succ n =>
    have whole : p.document.pruned (n + 1) = p.document := by cases p <;> rfl
    rw [whole, shallow]
    exact recovers_ofOption (by rw [ofDocument?_document, if_pos (Nat.le_add_left 1 n)])

end ErrorPolicy

theorem Step.yields_document {s : Step} (h : Sound Instant.Readable s) :
    s.document.Yields Step.read s := by
  obtain ⟨values, created⟩ := sound_iff.1 h
  apply yields_record fieldNames rfl (by decide)
  intro nesting
  simp only [membersHeight]
  refine .bind (recovers_orElse rfl (yields_string _) _ _) ?_
  refine .bind (recovers_required rfl (yields_string _) _) ?_
  refine .bind (recovers_required rfl (yields_string _) _) ?_
  refine .bind (recovers_orElse rfl (yields_string _) _ _) ?_
  refine .bind (recovers_required rfl (yields_name s.kind.ofName?_name) _) ?_
  refine .bind (recovers_orElse rfl (yields_strings _) _ _) ?_
  refine .bind (recovers_orElse rfl (yields_strings _) _ _) ?_
  refine .bind (recovers_orElse rfl s.errorPolicy.yields_document _ _) ?_
  refine .bind (recovers_orElse rfl (yields_uint64 _) _ _) ?_
  refine .bind (recovers_orElse rfl (yields_uint32 _) _ _) ?_
  refine .bind (recovers_orElse rfl (yields_json values) _ _) ?_
  refine .bind (recovers_orElse rfl (yields_instant created) _ _) ?_
  refine .bind (recovers_orElse rfl (yields_string _) _ _) ?_
  exact Reading.recovers_pure _ _

theorem Action.yields_document {a : Action} (h : Sound Instant.Readable a) :
    a.document.Yields Action.read a := by
  obtain ⟨config, addresses, created⟩ := sound_iff.1 h
  have recipients : ∀ v ∈ a.recipients, (ofJson v).Yields readJson v := fun v hv =>
    yields_json (addresses v hv)
  apply yields_record fieldNames rfl (by decide)
  intro nesting
  simp only [membersHeight]
  refine .bind (recovers_orElse rfl (yields_string _) _ _) ?_
  refine .bind (recovers_required rfl (yields_string _) _) ?_
  refine .bind (recovers_orElse rfl (yields_string _) _ _) ?_
  refine .bind (recovers_required rfl (yields_string _) _) ?_
  refine .bind (recovers_orElse rfl (yields_string _) _ _) ?_
  refine .bind (recovers_orElse rfl (yields_list recipients) _ _) ?_
  refine .bind (recovers_orElse rfl (yields_json config) _ _) ?_
  refine .bind (recovers_orElse rfl (yields_instant created) _ _) ?_
  refine .bind (recovers_orElse rfl (yields_string _) _ _) ?_
  exact Reading.recovers_pure _ _

theorem StepResult.yields_document {r : StepResult} (h : Sound Instant.Readable r) :
    r.document.Yields StepResult.read r := by
  obtain ⟨output, time⟩ := sound_iff.1 h
  apply yields_record fieldNames rfl (by decide)
  intro nesting
  simp only [membersHeight]
  refine .bind (recovers_required rfl (yields_string _) _) ?_
  refine .bind (recovers_required rfl (yields_string _) _) ?_
  refine .bind (recovers_required rfl (yields_json output) _) ?_
  refine .bind (recovers_required rfl (yields_instant time) _) ?_
  exact Reading.recovers_pure _ _

theorem ExecutionError.yields_document {e : ExecutionError} (h : Sound Instant.Readable e) :
    e.document.Yields ExecutionError.read e := by
  obtain ⟨index, time⟩ := sound_iff.1 h
  apply yields_record fieldNames rfl (by decide)
  intro nesting
  simp only [membersHeight]
  refine .bind (recovers_required rfl (yields_nat index index) _) ?_
  refine .bind (recovers_required rfl (yields_string _) _) ?_
  refine .bind (recovers_required rfl (yields_string _) _) ?_
  refine .bind (recovers_required rfl (yields_instant time) _) ?_
  exact Reading.recovers_pure _ _

/-! ## Conditions -/

namespace ConditionKind

/-- What is left of a kind where only so many levels may open is readable if it fits. -/
theorem all_isReadable {kind : ConditionKind} (values : ∀ v ∈ kind.values, v.Canonical)
    (nesting : Nat) : (!(prunedMembers nesting kind.members).all fun m => m.2.isReadable) = false ↔
      membersHeight kind.members ≤ nesting := by
  have text (s : String) : ((Document.string s).pruned nesting).isReadable = true := rfl
  have readable {v : Json} (canonical : v.Canonical) :
      ((ofJson v).pruned nesting).isReadable = decide ((ofJson v).height ≤ nesting) := by
    rw [isReadable, toJson?_pruned_ofJson v canonical nesting]
    by_cases fits : (ofJson v).height ≤ nesting <;> simp [fits]
  cases kind with
  | fieldCompare field operator value =>
    have fits := readable (values value List.mem_cons_self)
    simp [members, prunedMembers, membersHeight, height, text, fits]
  | expression source => simp [members, prunedMembers, membersHeight, height, text]
  | externalCheck predicate config =>
    have fits := readable (values config List.mem_cons_self)
    simp [members, prunedMembers, membersHeight, height, text, fits]

/-- A kind is read back from its members. -/
theorem recovers_members {kind : ConditionKind} (values : ∀ v ∈ kind.values, v.Canonical)
    (nesting : Nat) : Reading.Recovers nesting (read (prunedMembers nesting kind.members))
      (membersHeight kind.members) kind := by
  cases kind with
  | fieldCompare field operator value =>
    have compares : (Document.string operator.name).Yields Comparison.read operator :=
      recovers_some operator.ofName?_name
    have canonical := values value List.mem_cons_self
    simp only [members, membersHeight]
    apply Reading.Recovers.after_low
    apply recovers_fields [("field", .string field), ("operator", .string operator.name),
      ("value", ofJson value)] ["field", "operator", "value"] rfl (by decide)
    refine .bind (recovers_required rfl (yields_string _) _) ?_
    refine .bind (recovers_required rfl compares _) ?_
    refine .bind (recovers_orElse rfl (yields_json canonical) _ _) ?_
    exact Reading.recovers_pure _ _
  | expression source =>
    simp only [members, membersHeight]
    apply Reading.Recovers.after_low
    apply recovers_fields [("expression", .string source)] ["expression"] rfl (by decide)
    refine .bind (recovers_required rfl (yields_string _) _) ?_
    exact Reading.recovers_pure _ _
  | externalCheck predicate config =>
    have canonical := values config List.mem_cons_self
    simp only [members, membersHeight]
    apply Reading.Recovers.after_low
    apply recovers_fields [("predicate", .string predicate), ("config", ofJson config)]
      ["predicate", "config"] rfl (by decide)
    refine .bind (recovers_required rfl (yields_string _) _) ?_
    refine .bind (recovers_orElse rfl (yields_json canonical) _ _) ?_
    exact Reading.recovers_pure _ _

end ConditionKind

namespace Condition

/-- The members of a condition as it is written. -/
def members (c : Condition) : List (String × Document) :=
  [("id", .string c.id), ("name", .string c.name), ("description", .string c.description)] ++
    c.kind.members ++ [("created_at", .ofInstant c.createdAt), ("created_by", .string c.createdBy)]

variable (c : Condition)

/-- The members of its kind are those beside a condition's own. -/
theorem filter_prunedMembers (nesting : Nat) :
    (prunedMembers nesting c.members).filter (fun m => !fieldNames.contains m.1) =
      prunedMembers nesting c.kind.members := by
  obtain ⟨id, name, description, kind, createdAt, createdBy⟩ := c
  cases kind <;> rfl

/-- No field of a condition is there twice. -/
theorem count_keys_le : ∀ name ∈ fieldNames, (c.members.map (·.1)).count name ≤ 1 := by
  obtain ⟨id, name, description, kind, createdAt, createdBy⟩ := c
  cases kind <;> simp [members, ConditionKind.members, fieldNames, fieldShapes]

theorem membersHeight_members : membersHeight c.members = membersHeight c.kind.members := by
  obtain ⟨id, name, description, kind, createdAt, createdBy⟩ := c
  cases kind <;> simp [members, ConditionKind.members, membersHeight, height, ofInstant]

theorem find?_members : Assoc.find? "created_at" c.members = some (.ofInstant c.createdAt) ∧
    Assoc.find? "created_by" c.members = some (.string c.createdBy) := by
  obtain ⟨id, name, description, kind, createdAt, createdBy⟩ := c
  cases kind <;> exact ⟨rfl, rfl⟩

variable {c}

theorem yields_document (h : Sound Instant.Readable c) : c.document.Yields Condition.read c := by
  obtain ⟨values, created⟩ := sound_iff.1 h
  intro nesting supply
  cases nesting with
  | zero => rfl
  | succ n =>
    -- The members of the kind lie between the fields, and are looked at first, readable or not: so
    -- they count twice for the height, and `yields_record` says too little.
    have inside : Reading.Recovers n (Condition.read (.object (prunedMembers n c.members)))
        (max (membersHeight c.kind.members) (max 0 (max 0 (max 0
          (max (membersHeight c.kind.members) (max 0 (max 0 0))))))) c := by
      simp only [Condition.read, c.filter_prunedMembers]
      apply Reading.Recovers.guarded (ConditionKind.all_isReadable values n)
      apply recovers_fields c.members _ rfl c.count_keys_le
      refine .bind (recovers_orElse rfl (yields_string _) _ _) ?_
      refine .bind (recovers_required rfl (yields_string _) _) ?_
      refine .bind (recovers_orElse rfl (yields_string _) _ _) ?_
      refine .bind (ConditionKind.recovers_members values n) ?_
      refine .bind (recovers_orElse c.find?_members.1 (yields_instant created) _ _) ?_
      refine .bind (recovers_orElse c.find?_members.2 (yields_string _) _ _) ?_
      exact Reading.recovers_pure _ _
    have total : c.document.height = membersHeight c.kind.members + 1 := by
      rw [← c.membersHeight_members]
      rfl
    simp only [Nat.max_zero, Nat.zero_max, Nat.max_self] at inside
    rw [total]
    simp only [Nat.add_le_add_iff_right]
    exact inside supply

end Condition

/-! ## Executions -/

theorem Execution.yields_document {e : Execution} (h : Sound Instant.Readable e) :
    e.document.Yields Execution.read e := by
  obtain ⟨data, index, results, errors, started, completed⟩ := sound_iff.1 h
  have told : ∀ t, e.completedAt = some t → (ofInstant t).Yields readInstant t ∧
      ∀ nesting, (ofInstant t).pruned nesting ≠ .null := fun t ht =>
    ⟨yields_instant (completed t ht), fun nesting => nofun⟩
  apply yields_record fieldNames rfl (by decide)
  intro nesting
  simp only [membersHeight]
  refine .bind (recovers_required rfl (yields_uuid _) _) ?_
  refine .bind (recovers_required rfl (yields_string _) _) ?_
  refine .bind (recovers_required rfl (yields_string _) _) ?_
  refine .bind (recovers_required rfl (yields_json data) _) ?_
  refine .bind (recovers_required rfl (yields_name e.status.ofName?_name) _) ?_
  refine .bind (recovers_required rfl (yields_nat index index) _) ?_
  refine .bind (recovers_required rfl
    (yields_list fun r hr => StepResult.yields_document (results r hr)) _) ?_
  refine .bind (recovers_required rfl
    (yields_list fun x hx => ExecutionError.yields_document (errors x hx)) _) ?_
  refine .bind (recovers_required rfl (yields_instant started) _) ?_
  refine .bind (recovers_optional rfl (yields_option told) _) ?_
  refine .bind (recovers_required rfl (yields_string _) _) ?_
  exact Reading.recovers_pure _ _

end EventFlow
