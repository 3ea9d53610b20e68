import EventFlow.Proofs.Json.Meaning
import EventFlow.Proofs.Record.RoundTrip

/-!
# Records tell themselves

Whatever is read of a record as it is written is read of the value that this means
(`readsMeaning_read`), though there the members of a condition's kind are no longer together, and
the tag of an error policy is no longer first. All that is written for a record is readable
(`isReadable_document`), so a sound record tells itself (`tells_document`). The readers are
`Workflow.read` and its like, in the modules of `EventFlow.Record`.
-/

set_option autoImplicit false

namespace EventFlow

open Document

/-- A workflow is read alike from a document and from what the document means. -/
theorem Workflow.readsMeaning_read : ReadsMeaning Workflow.read := by
  refine readsMeaning_record fun fields fields' means => ?_
  refine .bind (means.orElse (by decide) readsMeaning_string _) fun id => ?_
  refine .bind (means.required (by decide) readsMeaning_string) fun name => ?_
  refine .bind (means.orElse (by decide) readsMeaning_string _) fun description => ?_
  refine .bind (means.orElse (by decide) (readsMeaning_name _) _) fun status => ?_
  refine .bind (means.required (by decide) readsMeaning_string) fun trigger => ?_
  refine .bind (means.orElse (by decide) readsMeaning_strings _) fun stepIds => ?_
  refine .bind (means.orElse (by decide) readsMeaning_json _) fun defaults => ?_
  refine .bind (means.orElse (by decide) readsMeaning_instant _) fun createdAt => ?_
  refine .bind (means.orElse (by decide) readsMeaning_instant _) fun updatedAt => ?_
  refine .bind (means.orElse (by decide) readsMeaning_string _) fun createdBy => ?_
  exact .refl _

/-! ## Policies and steps -/

namespace ErrorPolicy

/-- A policy with a count of attempts is found in the meaning as well. -/
theorem retryOf?_of_means {d d' : Document} (h : Means d d') {p : ErrorPolicy}
    (found : retryOf? d = some p) : retryOf? d' = some p := by
  obtain ⟨n, bounded, rfl⟩ := Option.map_eq_some_iff.1 found
  exact Option.map_eq_some_iff.2 ⟨n, natBelow?_of_means _ h bounded, rfl⟩

/-- A policy of any form is found in the meaning as well. -/
theorem ofDocument?_of_means {d d' : Document} (h : Means d d') {p : ErrorPolicy}
    (found : ofDocument? d = some p) : ofDocument? d' = some p := by
  -- A policy is an object with a tag, or a list that begins with one; lists mean themselves.
  unfold ofDocument? at found
  split at found
  · next members =>
    obtain ⟨entries, rfl, same⟩ := h.object
    have all : ((ofMembers (Assoc.ofList entries)).filter (·.1 != "policy")).all
        (fun m => m.2.isReadable) = true :=
      List.all_eq_true.2 fun m hm => isReadable_of_mem same (List.mem_filter.1 hm).1
    have others := forall₂_filter (· != "policy") same
    have rest := filter_ofMembers_ofList (· != "policy") entries
    dsimp only at found
    split at found
    · rw [ofDocument?, if_pos all]
      split at found
      · next k tag =>
        obtain ⟨d', tag', means⟩ := filter_eq_singleton (p := (· == "policy")) same tag
        rw [tag', means.string]
        exact found
      · next k tag =>
        obtain ⟨d', tag', means⟩ := filter_eq_singleton (p := (· == "policy")) same tag
        rw [tag', means.string]
        exact found
      · next k tag =>
        obtain ⟨d', tag', means⟩ := filter_eq_singleton (p := (· == "policy")) same tag
        rw [tag', means.string]
        split at found
        · next k d number =>
          obtain ⟨d', number', means⟩ := filter_eq_singleton (p := (· == "attempts")) others number
          rw [rest, number']
          exact retryOf?_of_means means found
        · cases found
      · cases found
    · cases found
  · obtain ⟨items', rfl, same⟩ := h.array
    obtain _ | ⟨tag, _ | _⟩ := same
    rw [tag.string]
    exact found
  · obtain ⟨items', rfl, same⟩ := h.array
    obtain _ | ⟨tag, _ | _⟩ := same
    rw [tag.string]
    exact found
  · obtain ⟨items', rfl, same⟩ := h.array
    obtain _ | ⟨tag, _ | ⟨number, _ | _⟩⟩ := same
    rw [tag.string]
    exact retryOf?_of_means number found
  · cases found

/-- A policy is read alike from a document and from what it means. -/
theorem readsMeaning_read : ReadsMeaning ErrorPolicy.read :=
  fun _ _ h => .ofOption fun _ => ofDocument?_of_means h

end ErrorPolicy

/-- A step is read alike from a document and from what it means. -/
theorem Step.readsMeaning_read : ReadsMeaning Step.read := by
  refine readsMeaning_record fun fields fields' means => ?_
  refine .bind (means.orElse (by decide) readsMeaning_string _) fun id => ?_
  refine .bind (means.required (by decide) readsMeaning_string) fun workflowId => ?_
  refine .bind (means.required (by decide) readsMeaning_string) fun name => ?_
  refine .bind (means.orElse (by decide) readsMeaning_string _) fun description => ?_
  refine .bind (means.required (by decide) (readsMeaning_name _)) fun kind => ?_
  refine .bind (means.orElse (by decide) readsMeaning_strings _) fun actionIds => ?_
  refine .bind (means.orElse (by decide) readsMeaning_strings _) fun conditionIds => ?_
  refine .bind (means.orElse (by decide) ErrorPolicy.readsMeaning_read _) fun errorPolicy => ?_
  refine .bind (means.orElse (by decide) readsMeaning_uint64 _) fun timeoutMs => ?_
  refine .bind (means.orElse (by decide) readsMeaning_uint32 _) fun order => ?_
  refine .bind (means.orElse (by decide) readsMeaning_json _) fun config => ?_
  refine .bind (means.orElse (by decide) readsMeaning_instant _) fun createdAt => ?_
  refine .bind (means.orElse (by decide) readsMeaning_string _) fun createdBy => ?_
  exact .refl _

theorem Action.readsMeaning_read : ReadsMeaning Action.read := by
  refine readsMeaning_record fun fields fields' means => ?_
  refine .bind (means.orElse (by decide) readsMeaning_string _) fun id => ?_
  refine .bind (means.required (by decide) readsMeaning_string) fun name => ?_
  refine .bind (means.orElse (by decide) readsMeaning_string _) fun description => ?_
  refine .bind (means.required (by decide) readsMeaning_string) fun kind => ?_
  refine .bind (means.orElse (by decide) readsMeaning_string _) fun template => ?_
  refine .bind (means.orElse (by decide) (readsMeaning_list readsMeaning_json) _)
    fun recipients => ?_
  refine .bind (means.orElse (by decide) readsMeaning_json _) fun config => ?_
  refine .bind (means.orElse (by decide) readsMeaning_instant _) fun createdAt => ?_
  refine .bind (means.orElse (by decide) readsMeaning_string _) fun createdBy => ?_
  exact .refl _

/-! ## Conditions -/

/-- An operator is read alike from a document and from what it means. -/
theorem Comparison.readsMeaning_read : ReadsMeaning Comparison.read := by
  intro d d' h
  unfold Comparison.read
  split
  · obtain ⟨v, value, rfl⟩ := h
    cases value
    exact .refl _
  · unfold readName
    split
    · rw [h.string]
      exact .refl _
    · obtain ⟨v, value, rfl⟩ := h
      cases value
      exact .refl _
    · exact Reading.refuse_keeps _

namespace ConditionKind

variable {members : List (String × Document)} {entries : List (String × Json)}

/-- The number of a variant is found in the meaning as well. -/
theorem tagIndex_of_means {d d' : Document} (h : Means d d') {n : Nat}
    (found : tagIndex d = some n) : tagIndex d' = some n := by
  cases d with
  | string s =>
    rw [h.string]
    exact found
  | number m =>
    rw [h.number]
    exact found
  | _ => cases found

/-- The tag of a kind is found in the value too. -/
theorem tags_of_means (h : List.Forall₂ MemberMeans members entries) {n : Nat}
    (found : (members.filter (·.1 == "kind")).map (fun m => tagIndex m.2) = [some n]) :
    ((ofMembers (Assoc.ofList entries)).filter (·.1 == "kind")).map (fun m => tagIndex m.2) =
      [some n] := by
  obtain ⟨⟨k, d⟩, tag, index⟩ := List.map_eq_singleton_iff.1 found
  obtain ⟨d', tag', means⟩ := filter_eq_singleton (p := (· == "kind")) h tag
  rw [tag', List.map_cons, List.map_nil, tagIndex_of_means means index]

/-- The kind of a condition stands in its members, beside the fields of the kind itself. -/
theorem keeps_read (h : List.Forall₂ MemberMeans members entries) :
    Reading.Keeps (read members) (read (ofMembers (Assoc.ofList entries))) := by
  have others := forall₂_filter (· != "kind") h
  unfold ConditionKind.read
  dsimp only
  rw [filter_ofMembers_ofList (· != "kind")]
  split
  · next tag =>
    rw [tags_of_means h tag]
    refine keeps_object others fun fields fields' means => ?_
    refine .bind (means.required (by decide) readsMeaning_string) fun field => ?_
    refine .bind (means.required (by decide) Comparison.readsMeaning_read) fun operator => ?_
    refine .bind (means.orElse (by decide) readsMeaning_json _) fun value => ?_
    exact .refl _
  · next tag =>
    rw [tags_of_means h tag]
    refine keeps_object others fun fields fields' means => ?_
    refine .bind (means.required (by decide) readsMeaning_string) fun source => ?_
    exact .refl _
  · next tag =>
    rw [tags_of_means h tag]
    refine keeps_object others fun fields fields' means => ?_
    refine .bind (means.required (by decide) readsMeaning_string) fun predicate => ?_
    refine .bind (means.orElse (by decide) readsMeaning_json _) fun config => ?_
    exact .refl _
  · exact Reading.refuse_keeps _

end ConditionKind

/-- A condition is read alike from a document and from what it means. -/
theorem Condition.readsMeaning_read : ReadsMeaning Condition.read := by
  intro d d' h
  cases d with
  | object members =>
    obtain ⟨entries, rfl, same⟩ := h.object
    have others := forall₂_filter (!fieldNames.contains ·) same
    have all : ((ofMembers (Assoc.ofList entries)).filter (!fieldNames.contains ·.1)).all
        (fun m => m.2.isReadable) = true :=
      List.all_eq_true.2 fun m hm => isReadable_of_mem same (List.mem_filter.1 hm).1
    simp only [Condition.read]
    refine .guarded (by rw [all, Bool.not_true]) (keeps_object same fun fields fields' means => ?_)
    refine .bind (means.orElse (by decide) readsMeaning_string _) fun id => ?_
    refine .bind (means.required (by decide) readsMeaning_string) fun name => ?_
    refine .bind (means.orElse (by decide) readsMeaning_string _) fun description => ?_
    rw [filter_ofMembers_ofList (!fieldNames.contains ·)]
    refine .bind (ConditionKind.keeps_read others) fun kind => ?_
    refine .bind (means.orElse (by decide) readsMeaning_instant _) fun createdAt => ?_
    refine .bind (means.orElse (by decide) readsMeaning_string _) fun createdBy => ?_
    exact .refl _
  | _ => exact Reading.refuse_keeps _

/-! ## Executions -/

theorem StepResult.readsMeaning_read : ReadsMeaning StepResult.read := by
  refine readsMeaning_record fun fields fields' means => ?_
  refine .bind (means.required (by decide) readsMeaning_string) fun stepId => ?_
  refine .bind (means.required (by decide) readsMeaning_string) fun stepName => ?_
  refine .bind (means.required (by decide) readsMeaning_json) fun output => ?_
  refine .bind (means.required (by decide) readsMeaning_instant) fun timestamp => ?_
  exact .refl _

theorem ExecutionError.readsMeaning_read : ReadsMeaning ExecutionError.read := by
  refine readsMeaning_record fun fields fields' means => ?_
  refine .bind (means.required (by decide) (readsMeaning_nat _)) fun stepIndex => ?_
  refine .bind (means.required (by decide) readsMeaning_string) fun stepId => ?_
  refine .bind (means.required (by decide) readsMeaning_string) fun message => ?_
  refine .bind (means.required (by decide) readsMeaning_instant) fun timestamp => ?_
  exact .refl _

/-- An execution is read alike from a document and from what it means. -/
theorem Execution.readsMeaning_read : ReadsMeaning Execution.read := by
  have results := readsMeaning_list StepResult.readsMeaning_read
  have errors := readsMeaning_list ExecutionError.readsMeaning_read
  refine readsMeaning_record fun fields fields' means => ?_
  refine .bind (means.required (by decide) readsMeaning_uuid) fun id => ?_
  refine .bind (means.required (by decide) readsMeaning_string) fun workflowId => ?_
  refine .bind (means.required (by decide) readsMeaning_string) fun workflowName => ?_
  refine .bind (means.required (by decide) readsMeaning_json) fun data => ?_
  refine .bind (means.required (by decide) (readsMeaning_name _)) fun status => ?_
  refine .bind (means.required (by decide) (readsMeaning_nat _)) fun currentStepIndex => ?_
  refine .bind (means.required (by decide) results) fun results => ?_
  refine .bind (means.required (by decide) errors) fun errors => ?_
  refine .bind (means.required (by decide) readsMeaning_instant) fun startedAt => ?_
  refine .bind (means.optional (by decide) readsMeaning_instant) fun completedAt => ?_
  refine .bind (means.required (by decide) readsMeaning_string) fun createdBy => ?_
  exact .refl _

/-! ## Telling -/

/-- A workflow's document tells it. -/
theorem Workflow.tells_document {w : Workflow} (h : Sound Instant.Readable w) :
    w.document.Tells Workflow.read w := by
  obtain ⟨values, -, -⟩ := sound_iff.1 h
  refine (yields_document h).tells (isReadable_object ?_) readsMeaning_read
  simp only [List.forall_mem_cons]
  exact ⟨rfl, rfl, rfl, rfl, rfl, isReadable_strings _, isReadable_json values, rfl, rfl, rfl,
    nofun⟩

/-- A step's document tells it. -/
theorem Step.tells_document {s : Step} (h : Sound Instant.Readable s) :
    s.document.Tells Step.read s := by
  obtain ⟨values, -⟩ := sound_iff.1 h
  have policy : s.errorPolicy.document.isReadable = true := by cases s.errorPolicy <;> rfl
  refine (yields_document h).tells (isReadable_object ?_) readsMeaning_read
  simp only [List.forall_mem_cons]
  exact ⟨rfl, rfl, rfl, rfl, rfl, isReadable_strings _, isReadable_strings _, policy, rfl, rfl,
    isReadable_json values, rfl, rfl, nofun⟩

theorem Action.tells_document {a : Action} (h : Sound Instant.Readable a) :
    a.document.Tells Action.read a := by
  obtain ⟨config, addresses, -⟩ := sound_iff.1 h
  have recipients := isReadable_list fun v hv => isReadable_json (addresses v hv)
  refine (yields_document h).tells (isReadable_object ?_) readsMeaning_read
  simp only [List.forall_mem_cons]
  exact ⟨rfl, rfl, rfl, rfl, rfl, recipients, isReadable_json config, rfl, rfl, nofun⟩

/-- A condition's document tells it. -/
theorem Condition.tells_document {c : Condition} (h : Sound Instant.Readable c) :
    c.document.Tells Condition.read c := by
  obtain ⟨values, -⟩ := sound_iff.1 h
  have kind : ∀ m ∈ c.kind.members, m.2.isReadable = true := by
    cases hc : c.kind with
    | fieldCompare field operator value =>
      rw [hc] at values
      have canonical := isReadable_json (values value List.mem_cons_self)
      simp only [ConditionKind.members, List.forall_mem_cons]
      exact ⟨rfl, rfl, rfl, canonical, List.forall_mem_nil _⟩
    | expression source =>
      simp only [ConditionKind.members, List.forall_mem_cons]
      exact ⟨rfl, rfl, List.forall_mem_nil _⟩
    | externalCheck predicate config =>
      rw [hc] at values
      have canonical := isReadable_json (values config List.mem_cons_self)
      simp only [ConditionKind.members, List.forall_mem_cons]
      exact ⟨rfl, rfl, canonical, List.forall_mem_nil _⟩
  refine (yields_document h).tells (isReadable_object ?_) readsMeaning_read
  simp only [List.forall_mem_append, List.forall_mem_cons]
  exact ⟨⟨⟨rfl, rfl, rfl, List.forall_mem_nil _⟩, kind⟩, rfl, rfl, List.forall_mem_nil _⟩

theorem StepResult.isReadable_document {r : StepResult} (h : Sound Instant.Readable r) :
    r.document.isReadable = true := by
  obtain ⟨output, -⟩ := sound_iff.1 h
  refine isReadable_object ?_
  simp only [List.forall_mem_cons]
  exact ⟨rfl, rfl, isReadable_json output, rfl, nofun⟩

/-- An execution's document tells it, with all results and errors. -/
theorem Execution.tells_document {e : Execution} (h : Sound Instant.Readable e) :
    e.document.Tells Execution.read e := by
  obtain ⟨data, -, results, -⟩ := sound_iff.1 h
  have completed : (Document.ofOption ofInstant e.completedAt).isReadable = true := by
    cases e.completedAt <;> rfl
  refine (yields_document h).tells (isReadable_object ?_) readsMeaning_read
  simp only [List.forall_mem_cons]
  exact ⟨rfl, rfl, rfl, isReadable_json data, rfl, rfl,
    isReadable_list fun r hr => StepResult.isReadable_document (results r hr),
    isReadable_list fun _ _ => rfl, rfl, completed, rfl, nofun⟩

end EventFlow
