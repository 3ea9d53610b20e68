import EventFlow.Proofs.Data.Assoc
import EventFlow.Store.Definitions

/-!
# Tables

A table holds records in ascending order of their identifiers, each under its own. The list of its
records says all that the table says (`Table.ofRecords_records`). Tables are made by
`Table.ofRecords` and listed by `Table.records` (`EventFlow.Store.Collections`).
-/

set_option autoImplicit false

namespace EventFlow

/-- Every record of a table is there under its own identifier. -/
def Table.Keyed {α : Type} [Definition α] (table : Table α) : Prop :=
  ∀ entry ∈ table, Definition.id entry.2 = entry.1

/-- All four tables of definitions are keyed by the identifiers of their records. -/
structure Collections.Keyed (c : Collections) : Prop where
  workflows : c.workflows.Keyed
  steps : c.steps.Keyed
  conditions : c.conditions.Keyed
  actions : c.actions.Keyed

namespace Table

variable {α : Type} [Definition α]

/-- Records that are put into a table are there under their identifiers. -/
theorem keyed_ofRecords (records : List α) : (ofRecords records).Keyed := by
  intro entry hentry
  obtain ⟨r, -, rfl⟩ := List.mem_map.1 (Assoc.mem_ofList hentry)
  rfl

/-- The records of a table, put into a table, are the table. -/
theorem ofRecords_records {table : Table α} (ascending : Assoc.Ascending table)
    (keyed : table.Keyed) : ofRecords table.records = table := by
  have entries : table.records.map (fun r => (Definition.id r, r)) = table := by
    rw [records, List.map_map]
    refine (List.map_congr_left fun entry hentry => ?_).trans (List.map_id table)
    exact Prod.ext (keyed entry hentry) rfl
  rw [ofRecords, entries, Assoc.ofList_eq_self ascending]

end Table

end EventFlow
