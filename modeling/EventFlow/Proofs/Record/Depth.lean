import EventFlow.Proofs.Record.RoundTrip

/-!
# How deep records are written

A record is written one level deeper than the free values it holds (`height_document_le_iff`): so
are the recipients of an action below their list, and the outputs of a run below the list of
results. The doubles of a record are those of its values (`printable_document`). The writers are
`Workflow.document` and its like, in the modules of `EventFlow.Record`.
-/

set_option autoImplicit false

namespace EventFlow

/-- How many arrays and objects of a value are nested in each other. -/
def Json.height (v : Json) : Nat := (Document.ofJson v).height

/-- What is written for a value is read as the value: every double of it is read back. -/
def Json.Exact (v : Json) : Prop := (Document.ofJson v).Printable

namespace Document

variable {α : Type} {write : α → Document} {list : List α}

/-- A list is as high as the highest of its items. -/
theorem itemsHeight_le_iff {items : List Document} {n : Nat} :
    itemsHeight items ≤ n ↔ ∀ d ∈ items, d.height ≤ n := by
  induction items with
  | nil => simp [itemsHeight]
  | cons d rest ih => rw [itemsHeight, Nat.max_le, List.forall_mem_cons, ih]

/-- An array is one level higher than its items. -/
theorem height_array_le_iff {n : Nat} :
    (Document.array (list.map write)).height ≤ n + 1 ↔ ∀ a ∈ list, (write a).height ≤ n := by
  rw [height, Nat.add_le_add_iff_right, itemsHeight_le_iff, List.forall_mem_map]

/-- A list of texts has one level. -/
theorem height_ofStrings_le (texts : List String) (n : Nat) : (ofStrings texts).height ≤ n + 1 :=
  height_array_le_iff.2 fun _ _ => Nat.zero_le n

/-- A list can be printed if its items can. -/
theorem printableItems_iff {items : List Document} :
    PrintableItems items ↔ ∀ d ∈ items, d.Printable := by
  induction items with
  | nil => simp [PrintableItems]
  | cons d rest ih => simp [PrintableItems, ih]

/-- An array can be printed if what is written for its items can. -/
theorem printable_array (h : ∀ a ∈ list, (write a).Printable) :
    (Document.array (list.map write)).Printable :=
  printableItems_iff.2 (List.forall_mem_map.2 h)

theorem printable_ofStrings (texts : List String) : (ofStrings texts).Printable :=
  printable_array fun _ _ => trivial

end Document

open Document

/-! ## Definitions -/

namespace Workflow

variable {w : Workflow}

theorem height_document_le_iff {n : Nat} :
    w.document.height ≤ n + 2 ↔ w.defaults.height ≤ n + 1 := by
  have total : w.document.height = max (ofStrings w.stepIds).height w.defaults.height + 1 := by
    simp [document, height, membersHeight, ofInstant, Json.height]
  rw [total, Nat.add_le_add_iff_right, Nat.max_le, and_iff_right (height_ofStrings_le _ n)]

theorem printable_document (h : ∀ v ∈ Content.values w, v.Exact) : w.document.Printable := by
  have defaults : (ofJson w.defaults).Printable := h _ List.mem_cons_self
  simp [document, Printable, PrintableMembers, ofInstant, printable_ofStrings, defaults]

end Workflow

namespace Step

variable {s : Step}

theorem height_document_le_iff {n : Nat} :
    s.document.height ≤ n + 2 ↔ s.config.height ≤ n + 1 := by
  have policy : s.errorPolicy.document.height = 1 := by cases s.errorPolicy <;> rfl
  have total : s.document.height = max (ofStrings s.actionIds).height
      (max (ofStrings s.conditionIds).height (max 1 s.config.height)) + 1 := by
    simp [document, height, membersHeight, ofInstant, ofUInt64, policy, Json.height]
  rw [total, Nat.add_le_add_iff_right, Nat.max_le, Nat.max_le, Nat.max_le,
    and_iff_right (height_ofStrings_le _ n), and_iff_right (height_ofStrings_le _ n),
    and_iff_right (Nat.le_add_left 1 n)]

theorem printable_document (h : ∀ v ∈ Content.values s, v.Exact) : s.document.Printable := by
  have config : (ofJson s.config).Printable := h _ List.mem_cons_self
  have policy : s.errorPolicy.document.Printable := by
    cases s.errorPolicy <;> simp [ErrorPolicy.document, Printable, PrintableMembers, ofUInt64,
      JsonNumber.ReadsBack]
  simp [document, Printable, PrintableMembers, ofInstant, ofUInt64, JsonNumber.ReadsBack,
    printable_ofStrings, policy, config]

end Step

namespace Condition

variable {c : Condition}

theorem height_document_le_iff {n : Nat} :
    c.document.height ≤ n + 1 ↔ ∀ v ∈ c.kind.values, v.height ≤ n := by
  have total : c.document.height = membersHeight c.kind.members + 1 := by
    rw [← c.membersHeight_members]
    rfl
  rw [total, Nat.add_le_add_iff_right]
  cases c.kind <;> simp [ConditionKind.members, ConditionKind.values, membersHeight, height,
    Json.height]

theorem printable_document (h : ∀ v ∈ Content.values c, v.Exact) : c.document.Printable := by
  have values : ∀ v ∈ c.kind.values, v.Exact := h
  obtain ⟨id, name, description, kind, createdAt, createdBy⟩ := c
  cases kind with
  | fieldCompare field operator value =>
    have exact : (ofJson value).Printable := values _ List.mem_cons_self
    simp [document, ConditionKind.members, Printable, PrintableMembers, ofInstant, exact]
  | expression source =>
    simp [document, ConditionKind.members, Printable, PrintableMembers, ofInstant]
  | externalCheck predicate config =>
    have exact : (ofJson config).Printable := values _ List.mem_cons_self
    simp [document, ConditionKind.members, Printable, PrintableMembers, ofInstant, exact]

end Condition

namespace Action

variable {a : Action}

theorem height_document_le_iff {n : Nat} : a.document.height ≤ n + 2 ↔
    a.config.height ≤ n + 1 ∧ ∀ v ∈ a.recipients, v.height ≤ n := by
  have total : a.document.height =
      max (Document.array (a.recipients.map ofJson)).height a.config.height + 1 := by
    simp [document, height, membersHeight, ofInstant, Json.height]
  rw [total, Nat.add_le_add_iff_right, Nat.max_le, height_array_le_iff, and_comm]
  rfl

theorem printable_document (h : ∀ v ∈ Content.values a, v.Exact) : a.document.Printable := by
  obtain ⟨config, recipients⟩ := List.forall_mem_cons.1 h
  have addresses : (Document.array (a.recipients.map ofJson)).Printable :=
    printable_array recipients
  exact ⟨trivial, trivial, trivial, trivial, trivial, addresses, config, trivial, trivial, trivial⟩

end Action

/-! ## Executions -/

theorem StepResult.height_document_le_iff {r : StepResult} {n : Nat} :
    r.document.height ≤ n + 1 ↔ r.output.height ≤ n := by
  simp [document, height, membersHeight, ofInstant, Json.height]

theorem ExecutionError.height_document_le (e : ExecutionError) (n : Nat) :
    e.document.height ≤ n + 1 := by
  simp [document, height, membersHeight, ofInstant, ofNat, ofUInt64]

namespace Execution

variable {e : Execution}

theorem height_document_le_iff {n : Nat} : e.document.height ≤ n + 3 ↔
    e.data.height ≤ n + 2 ∧ ∀ r ∈ e.results, r.output.height ≤ n := by
  have total : e.document.height = max e.data.height
      (max (Document.array (e.results.map StepResult.document)).height
        (Document.array (e.errors.map ExecutionError.document)).height) + 1 := by
    cases completed : e.completedAt <;>
      simp [document, height, membersHeight, ofInstant, Document.ofNat, ofUInt64, Json.height,
        Document.ofOption, completed]
  have errors : (Document.array (e.errors.map ExecutionError.document)).height ≤ n + 2 :=
    height_array_le_iff.2 fun x _ => x.height_document_le n
  rw [total, Nat.add_le_add_iff_right, Nat.max_le, Nat.max_le, height_array_le_iff]
  simp only [StepResult.height_document_le_iff, errors, and_true]

theorem printable_document (h : ∀ v ∈ Content.values e, v.Exact) : e.document.Printable := by
  obtain ⟨data, outputs⟩ := List.forall_mem_cons.1 h
  have results : (Document.array (e.results.map StepResult.document)).Printable :=
    printable_array fun r hr =>
      ⟨trivial, trivial, outputs _ (List.mem_map_of_mem hr), trivial, trivial⟩
  have errors : (Document.array (e.errors.map ExecutionError.document)).Printable :=
    printable_array fun x _ => ⟨trivial, trivial, trivial, trivial, trivial⟩
  have completed : (Document.ofOption .ofInstant e.completedAt).Printable := by
    cases e.completedAt <;> trivial
  exact ⟨trivial, trivial, trivial, data, trivial, trivial, results, errors, trivial, completed,
    trivial, trivial⟩

end Execution

end EventFlow
