import EventFlow.Store.Basic

/-!
# Plans

A plan is a copy of everything that a run of a workflow needs: its steps in order, and the actions
and conditions that they refer to. It is taken from the collections once, so later changes of them
do not reach the run. A reference that leads nowhere stays open and only fails the step that needs
it.
-/

set_option autoImplicit false

namespace EventFlow

/-- A position of a workflow's step list. -/
structure PlanEntry where
  stepId : String
  /-- The step, if the identifier leads to one. -/
  step : Option Step
deriving DecidableEq

/-- A workflow with its steps and what they refer to. -/
structure Plan where
  workflow : Workflow
  entries : List PlanEntry
  actions : Table Action
  conditions : Table Condition
deriving DecidableEq

namespace Plan

/-- The action of an identifier. -/
def action? (p : Plan) (id : String) : Option Action := Assoc.find? id p.actions

/-- The condition of an identifier. -/
def condition? (p : Plan) (id : String) : Option Condition := Assoc.find? id p.conditions

/-- The part of a table that a list of identifiers refers to. -/
def selected {α : Type} (table : Table α) (ids : List String) : Table α :=
  Assoc.ofList (ids.filterMap fun id => (Assoc.find? id table).map fun record => (id, record))

/-- The plan of a workflow in the collections. -/
def ofCollections (c : Collections) (w : Workflow) : Plan :=
  let entries := w.stepIds.map fun id => ⟨id, Assoc.find? id c.steps⟩
  let steps := entries.filterMap PlanEntry.step
  ⟨w, entries, selected c.actions (steps.flatMap Step.actionIds),
    selected c.conditions (steps.flatMap Step.conditionIds)⟩

end Plan

end EventFlow
