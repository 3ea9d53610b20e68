import EventFlow.Proofs.Json.Reading
import EventFlow.Record.Action
import EventFlow.Record.Condition
import EventFlow.Record.Execution

/-!
# Records that are read are sound

Not every record of the types has a text: a free value might have its members out of order, an index
might be too large, and a point of time too far away or irregular. `Sound` says of a record that its
values are in order, that its indices have 64 bits, and that its points of time are of some kind.
Every record that is read is sound, and its times are regular (`sound_read`). The readers are
`Workflow.read` and its like, in the modules of `EventFlow.Record`.
-/

set_option autoImplicit false

namespace EventFlow

/-- What a record holds that not every text can tell: free values, points of time and indices. -/
class Content (α : Type) where
  values : α → List Json
  times : α → List Instant
  indices : α → List Nat

/-- The values of a record have their members in key order, its points of time are of some kind, and
its indices have 64 bits. -/
structure Sound {α : Type} [Content α] (Timely : Instant → Prop) (a : α) : Prop where
  values : ∀ v ∈ Content.values a, v.Canonical
  times : ∀ t ∈ Content.times a, Timely t
  indices : ∀ n ∈ Content.indices a, n < UInt64.size

/-- What it means to be sound, part by part. -/
theorem sound_def {α : Type} [Content α] {Timely : Instant → Prop} {a : α} : Sound Timely a ↔
    (∀ v ∈ Content.values a, v.Canonical) ∧ (∀ t ∈ Content.times a, Timely t) ∧
      ∀ n ∈ Content.indices a, n < UInt64.size :=
  ⟨fun h => ⟨h.values, h.times, h.indices⟩, fun h => ⟨h.1, h.2.1, h.2.2⟩⟩

/-- A weaker demand on times makes for less soundness to prove. -/
theorem Sound.imp {α : Type} [Content α] {Timely Timely' : Instant → Prop} {a : α}
    (h : Sound Timely a) (timely : ∀ t ∈ Content.times a, Timely t → Timely' t) :
    Sound Timely' a :=
  ⟨h.values, fun t ht => timely t ht (h.times t ht), h.indices⟩

instance : Content Workflow :=
  ⟨fun w => [w.defaults], fun w => [w.createdAt, w.updatedAt], fun _ => []⟩

instance : Content Step := ⟨fun s => [s.config], fun s => [s.createdAt], fun _ => []⟩

instance : Content Action :=
  ⟨fun a => a.config :: a.recipients, fun a => [a.createdAt], fun _ => []⟩

/-- The free value of a condition, if it has one. -/
def ConditionKind.values : ConditionKind → List Json
  | fieldCompare _ _ value => [value]
  | expression _ => []
  | externalCheck _ config => [config]

instance : Content Condition := ⟨fun c => c.kind.values, fun c => [c.createdAt], fun _ => []⟩

instance : Content StepResult := ⟨fun r => [r.output], fun r => [r.timestamp], fun _ => []⟩

instance : Content ExecutionError := ⟨fun _ => [], fun e => [e.timestamp], fun e => [e.stepIndex]⟩

instance : Content Execution where
  values e := e.data :: e.results.map StepResult.output
  times e := e.startedAt :: (e.completedAt.toList ++
    (e.results.map StepResult.timestamp ++ e.errors.map ExecutionError.timestamp))
  indices e := e.currentStepIndex :: e.errors.map ExecutionError.stepIndex

/-! ## What it takes to be sound -/

section Parts

variable {Timely : Instant → Prop}

/-- A workflow is sound if its variables and times are. -/
theorem Workflow.sound_iff {w : Workflow} :
    Sound Timely w ↔ w.defaults.Canonical ∧ Timely w.createdAt ∧ Timely w.updatedAt := by
  simp [sound_def, Content.values, Content.times, Content.indices]

/-- A step is sound if its settings and its time are. -/
theorem Step.sound_iff {s : Step} : Sound Timely s ↔ s.config.Canonical ∧ Timely s.createdAt := by
  simp [sound_def, Content.values, Content.times, Content.indices]

/-- An action is sound if its settings, its recipients and its time are. -/
theorem Action.sound_iff {a : Action} : Sound Timely a ↔
    a.config.Canonical ∧ (∀ v ∈ a.recipients, v.Canonical) ∧ Timely a.createdAt := by
  simp [sound_def, Content.values, Content.times, Content.indices, and_assoc]

/-- A condition is sound if the values of its kind and its time are. -/
theorem Condition.sound_iff {c : Condition} : Sound Timely c ↔
    (∀ v ∈ c.kind.values, v.Canonical) ∧ Timely c.createdAt := by
  simp [sound_def, Content.values, Content.times, Content.indices]

theorem StepResult.sound_iff {r : StepResult} :
    Sound Timely r ↔ r.output.Canonical ∧ Timely r.timestamp := by
  simp [sound_def, Content.values, Content.times, Content.indices]

theorem ExecutionError.sound_iff {e : ExecutionError} :
    Sound Timely e ↔ e.stepIndex < UInt64.size ∧ Timely e.timestamp := by
  simp [sound_def, Content.values, Content.times, Content.indices, and_comm]

/-- An execution is sound where its own fields, its results and its errors are. -/
theorem Execution.sound_iff {e : Execution} : Sound Timely e ↔
    e.data.Canonical ∧ e.currentStepIndex < UInt64.size ∧
      (∀ r ∈ e.results, Sound Timely r) ∧ (∀ x ∈ e.errors, Sound Timely x) ∧
      Timely e.startedAt ∧ ∀ t, e.completedAt = some t → Timely t := by
  simp only [sound_def, Content.values, Content.times, Content.indices, List.forall_mem_cons,
    List.forall_mem_append, List.forall_mem_map, Option.mem_toList, List.not_mem_nil]
  constructor
  · rintro ⟨⟨data, outputs⟩, ⟨started, completed, results, errors⟩, index, indices⟩
    exact ⟨data, index, fun r hr => ⟨⟨outputs r hr, nofun⟩, ⟨results r hr, nofun⟩, nofun⟩,
      fun x hx => ⟨nofun, ⟨errors x hx, nofun⟩, ⟨indices x hx, nofun⟩⟩, started, completed⟩
  · rintro ⟨data, index, results, errors, started, completed⟩
    exact ⟨⟨data, fun r hr => (results r hr).1.1⟩, ⟨started, completed,
      fun r hr => (results r hr).2.1.1, fun x hx => (errors x hx).2.1.1⟩, index,
      fun x hx => (errors x hx).2.2.1⟩

end Parts

/-! ## What is read -/

/-- A workflow that is read is sound. -/
theorem Workflow.sound_read (d : Document) : (Workflow.read d).Ensures (Sound Instant.Regular) := by
  refine .bind (Fields.ensures_ofDocument _ d) fun fields _ => ?_
  refine .bind (fields.ensures_text _ _) fun id _ => ?_
  refine .bind (fields.ensures_required _ Document.ensures_readString) fun name _ => ?_
  refine .bind (fields.ensures_text _ _) fun description _ => ?_
  refine .bind (fields.ensures_orElse _ (Document.ensures_readName _)
    (Reading.ensures_pure trivial)) fun status _ => ?_
  refine .bind (fields.ensures_required _ Document.ensures_readString) fun trigger _ => ?_
  refine .bind (fields.ensures_texts _) fun stepIds _ => ?_
  refine .bind (fields.ensures_json _ Json.canonical_emptyObject) fun defaults values => ?_
  refine .bind (fields.ensures_instant _) fun createdAt created => ?_
  refine .bind (fields.ensures_instant _) fun updatedAt updated => ?_
  refine .bind (fields.ensures_text _ _) fun createdBy _ => ?_
  exact Reading.ensures_pure (sound_iff.2 ⟨values, created, updated⟩)

/-- What an update sets the defaults to has its members in key order. -/
theorem WorkflowUpdate.canonical_read (d : Document) : (WorkflowUpdate.read d).Ensures
    fun u => ∀ v, u.defaults = some v → v.Canonical := by
  refine .bind (Fields.ensures_ofDocument _ d) fun fields _ => ?_
  refine .bind (fields.ensures_optional _ Document.ensures_readString) fun name _ => ?_
  refine .bind (fields.ensures_optional _ Document.ensures_readString) fun description _ => ?_
  refine .bind (fields.ensures_optional _ (Document.ensures_readName _)) fun status _ => ?_
  refine .bind (fields.ensures_optional _ Document.ensures_readString) fun trigger _ => ?_
  refine .bind (fields.ensures_optional _ (Document.ensures_readList Document.ensures_readString))
    fun stepIds _ => ?_
  refine .bind (fields.ensures_optional _ Document.ensures_readJson) fun defaults values => ?_
  exact Reading.ensures_pure values

theorem ErrorPolicy.ensures_read (d : Document) : (ErrorPolicy.read d).Ensures fun _ => True :=
  Reading.ensures_ofOption fun _ _ => trivial

/-- A step that is read is sound. -/
theorem Step.sound_read (d : Document) : (Step.read d).Ensures (Sound Instant.Regular) := by
  have pure {α : Type} (a : α) : (Pure.pure a : Reading α).Ensures fun _ => True :=
    Reading.ensures_pure trivial
  refine .bind (Fields.ensures_ofDocument _ d) fun fields _ => ?_
  refine .bind (fields.ensures_text _ _) fun id _ => ?_
  refine .bind (fields.ensures_required _ Document.ensures_readString) fun workflowId _ => ?_
  refine .bind (fields.ensures_required _ Document.ensures_readString) fun name _ => ?_
  refine .bind (fields.ensures_text _ _) fun description _ => ?_
  refine .bind (fields.ensures_required _ (Document.ensures_readName _)) fun kind _ => ?_
  refine .bind (fields.ensures_texts _) fun actionIds _ => ?_
  refine .bind (fields.ensures_texts _) fun conditionIds _ => ?_
  refine .bind (fields.ensures_orElse _ ErrorPolicy.ensures_read (pure _)) fun errorPolicy _ => ?_
  refine .bind (fields.ensures_orElse _ Document.ensures_readUInt64 (pure _)) fun timeoutMs _ => ?_
  refine .bind (fields.ensures_orElse _ Document.ensures_readUInt32 (pure _)) fun order _ => ?_
  refine .bind (fields.ensures_json _ Json.canonical_emptyObject) fun config values => ?_
  refine .bind (fields.ensures_instant _) fun createdAt created => ?_
  refine .bind (fields.ensures_text _ _) fun createdBy _ => ?_
  exact Reading.ensures_pure (sound_iff.2 ⟨values, created⟩)

/-- An action that is read is sound, recipients of all shapes included. -/
theorem Action.sound_read (d : Document) : (Action.read d).Ensures (Sound Instant.Regular) := by
  refine .bind (Fields.ensures_ofDocument _ d) fun fields _ => ?_
  refine .bind (fields.ensures_text _ _) fun id _ => ?_
  refine .bind (fields.ensures_required _ Document.ensures_readString) fun name _ => ?_
  refine .bind (fields.ensures_text _ _) fun description _ => ?_
  refine .bind (fields.ensures_required _ Document.ensures_readString) fun actionType _ => ?_
  refine .bind (fields.ensures_text _ _) fun template _ => ?_
  refine .bind (fields.ensures_orElse _ (Document.ensures_readList Document.ensures_readJson)
    (Reading.ensures_pure (List.forall_mem_nil _))) fun recipients addresses => ?_
  refine .bind (fields.ensures_json _ Json.canonical_emptyObject) fun config values => ?_
  refine .bind (fields.ensures_instant _) fun createdAt created => ?_
  refine .bind (fields.ensures_text _ _) fun createdBy _ => ?_
  exact Reading.ensures_pure (sound_iff.2 ⟨values, addresses, created⟩)

theorem Comparison.ensures_read (d : Document) : (Comparison.read d).Ensures fun _ => True := by
  unfold read
  split
  · exact Reading.ensures_ofOption fun _ _ => trivial
  · exact Document.ensures_readName _ _

/-- The values that a condition compares with are canonical when they are read. -/
theorem ConditionKind.canonical_read (members : List (String × Document)) :
    (ConditionKind.read members).Ensures fun kind => ∀ v ∈ kind.values, v.Canonical := by
  unfold read
  dsimp only
  split
  · refine .bind (Fields.ensures_ofDocument _ _) fun fields _ => ?_
    refine .bind (fields.ensures_required _ Document.ensures_readString) fun field _ => ?_
    refine .bind (fields.ensures_required _ Comparison.ensures_read) fun operator _ => ?_
    refine .bind (fields.ensures_json _ trivial) fun value canonical => ?_
    exact Reading.ensures_pure (List.forall_mem_singleton.2 canonical)
  · refine .bind (Fields.ensures_ofDocument _ _) fun fields _ => ?_
    refine .bind (fields.ensures_required _ Document.ensures_readString) fun source _ => ?_
    exact Reading.ensures_pure nofun
  · refine .bind (Fields.ensures_ofDocument _ _) fun fields _ => ?_
    refine .bind (fields.ensures_required _ Document.ensures_readString) fun predicate _ => ?_
    refine .bind (fields.ensures_json _ Json.canonical_emptyObject) fun config canonical => ?_
    exact Reading.ensures_pure (List.forall_mem_singleton.2 canonical)
  · exact Reading.ensures_refuse

/-- A condition that is read is sound. -/
theorem Condition.sound_read (d : Document) :
    (Condition.read d).Ensures (Sound Instant.Regular) := by
  cases d with
  | object members =>
    simp only [read]
    apply Reading.Ensures.guarded
    refine .bind (Fields.ensures_ofDocument _ _) fun fields _ => ?_
    refine .bind (fields.ensures_text _ _) fun id _ => ?_
    refine .bind (fields.ensures_required _ Document.ensures_readString) fun name _ => ?_
    refine .bind (fields.ensures_text _ _) fun description _ => ?_
    refine .bind (ConditionKind.canonical_read _) fun kind values => ?_
    refine .bind (fields.ensures_instant _) fun createdAt created => ?_
    refine .bind (fields.ensures_text _ _) fun createdBy _ => ?_
    exact Reading.ensures_pure (sound_iff.2 ⟨values, created⟩)
  | _ => exact Reading.ensures_refuse

theorem StepResult.sound_read (d : Document) :
    (StepResult.read d).Ensures (Sound Instant.Regular) := by
  refine .bind (Fields.ensures_ofDocument _ d) fun fields _ => ?_
  refine .bind (fields.ensures_required _ Document.ensures_readString) fun stepId _ => ?_
  refine .bind (fields.ensures_required _ Document.ensures_readString) fun stepName _ => ?_
  refine .bind (fields.ensures_required _ Document.ensures_readJson) fun output value => ?_
  refine .bind (fields.ensures_required _ Document.ensures_readInstant) fun timestamp time => ?_
  exact Reading.ensures_pure (sound_iff.2 ⟨value, time⟩)

theorem ExecutionError.sound_read (d : Document) :
    (ExecutionError.read d).Ensures (Sound Instant.Regular) := by
  refine .bind (Fields.ensures_ofDocument _ d) fun fields _ => ?_
  refine .bind (fields.ensures_required _ (Document.ensures_readNat _)) fun stepIndex index => ?_
  refine .bind (fields.ensures_required _ Document.ensures_readString) fun stepId _ => ?_
  refine .bind (fields.ensures_required _ Document.ensures_readString) fun message _ => ?_
  refine .bind (fields.ensures_required _ Document.ensures_readInstant) fun timestamp time => ?_
  exact Reading.ensures_pure (sound_iff.2 ⟨index, time⟩)

/-- An execution that is read is sound, with all results and errors. -/
theorem Execution.sound_read (d : Document) :
    (Execution.read d).Ensures (Sound Instant.Regular) := by
  refine .bind (Fields.ensures_ofDocument _ d) fun fields _ => ?_
  refine .bind (fields.ensures_required _ Document.ensures_readUuid) fun id _ => ?_
  refine .bind (fields.ensures_required _ Document.ensures_readString) fun workflowId _ => ?_
  refine .bind (fields.ensures_required _ Document.ensures_readString) fun workflowName _ => ?_
  refine .bind (fields.ensures_required _ Document.ensures_readJson) fun data value => ?_
  refine .bind (fields.ensures_required _ (Document.ensures_readName _)) fun status _ => ?_
  refine .bind (fields.ensures_required _ (Document.ensures_readNat _)) fun current index => ?_
  refine .bind (fields.ensures_required _ (Document.ensures_readList StepResult.sound_read))
    fun results outputs => ?_
  refine .bind (fields.ensures_required _ (Document.ensures_readList ExecutionError.sound_read))
    fun errors failures => ?_
  refine .bind (fields.ensures_required _ Document.ensures_readInstant) fun startedAt started => ?_
  refine .bind (fields.ensures_optional _ Document.ensures_readInstant) fun ended completed => ?_
  refine .bind (fields.ensures_required _ Document.ensures_readString) fun createdBy _ => ?_
  exact Reading.ensures_pure
    (sound_iff.2 ⟨value, index, outputs, failures, started, completed⟩)

end EventFlow
