import EventFlow.Proofs.Store.Requests
import EventFlow.Proofs.Text.ByteOrder
import EventFlow.Proofs.Time.Newest
import EventFlow.Store.Workflows

/-!
# The workflows that an event triggers

`Store.findActive` finds exactly the active workflows with a trigger (`mem_findActive`). They are
sorted newest first and ties keep their order (`newer_newestFirst`); as a tidy table is in ascending
order of identifiers, workflows of one age come in that order (`newer_findActive`).
`Store.findActive` is in `EventFlow.Store.Workflows`.
-/

set_option autoImplicit false

namespace EventFlow

/-- A workflow comes before another in a list: it is newer, or it is as old and has the identifier
that comes first. -/
def Workflow.Newer (a b : Workflow) : Prop :=
  b.createdAt.before a.createdAt = true ∨
    a.createdAt = b.createdAt ∧ Text.bytes a.id < Text.bytes b.id

namespace Store

theorem perm_newestFirst (ws : List Workflow) : (newestFirst ws).Perm ws := List.mergeSort_perm ws _

/-- Workflows in ascending order of their identifiers, sorted newest first. -/
theorem newer_newestFirst {ws : List Workflow} (ascending : ws.Pairwise fun a b => a.id < b.id) :
    (newestFirst ws).Pairwise Workflow.Newer :=
  Instant.pairwise_newest Workflow.createdAt (ascending.imp Text.lt_iff_bytes.1)

variable {s : Store}

theorem admits_active_iff {eventType : String} {w : Workflow} :
    WorkflowFilter.admits ⟨some .active, some eventType, none⟩ w = true ↔
      w.status = .active ∧ w.triggerEventType = eventType := by
  simp only [WorkflowFilter.admits, Option.all_some, Option.all_none, Bool.and_true,
    Bool.and_eq_true, beq_iff_eq]
  rw [@eq_comm _ w.status, @eq_comm _ w.triggerEventType]

/-- An event triggers the active workflows that have its type, and no others. -/
theorem mem_findActive {eventType : String} {w : Workflow} : w ∈ s.findActive eventType ↔
    w ∈ s.list Workflow ∧ w.status = .active ∧ w.triggerEventType = eventType := by
  rw [findActive, listWorkflows, (perm_newestFirst _).mem_iff, List.mem_filter, admits_active_iff]

theorem length_findActive (s : Store) (eventType : String) : (s.findActive eventType).length =
    (s.list Workflow).countP fun w => w.status = .active ∧ w.triggerEventType = eventType := by
  rw [findActive, listWorkflows, (perm_newestFirst _).length_eq, ← List.countP_eq_length_filter]
  refine List.countP_congr fun w _ => ?_
  rw [decide_eq_true_eq]
  exact admits_active_iff

theorem ascending_list (tidy : s.collections.Tidy) :
    (s.list Workflow).Pairwise fun a b => a.id < b.id := by
  have tidy : Table.Tidy s.collections.workflows := tidy .workflow
  have ascending : (s.collections.workflows).Pairwise fun a b => a.1 < b.1 := tidy.ascending
  rw [list, List.pairwise_map]
  refine ascending.imp_of_mem fun {a b} ha hb less => ?_
  rw [show a.2.id = a.1 from tidy.keyed a ha, show b.2.id = b.1 from tidy.keyed b hb]
  exact less

/-- Newer workflows come first, and workflows of one age in the order of their identifiers. -/
theorem newer_findActive (tidy : s.collections.Tidy) (eventType : String) :
    (s.findActive eventType).Pairwise Workflow.Newer :=
  newer_newestFirst ((ascending_list tidy).sublist List.filter_sublist)

end Store

end EventFlow
