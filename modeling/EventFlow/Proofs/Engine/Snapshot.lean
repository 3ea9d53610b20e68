import EventFlow.Engine.Run
import EventFlow.Proofs.Data.Assoc

/-!
# Plans are faithful

A run of a plan looks up steps, actions and conditions. What it finds is what the collections held
when the plan was taken: whatever a listed step refers to is in the plan, or was in the collections
no more than in the plan (`Plan.faithfulTo_ofCollections`). So the plan might as well not be there:
the run is that of an engine which looks every identifier up in the collections when it comes to it
(`Engine.run_eq_visit`), and depends on nothing in them but the records that are looked up
(`Collections.AgreeFor.run_eq`). The plan is taken by `Plan.ofCollections`, in
`EventFlow.Engine.Plan`.
-/

set_option autoImplicit false

namespace EventFlow

/-! ## Selected records -/

namespace Plan

/-- The selected part of a table has what the table has under the identifiers it is selected by. -/
theorem find?_selected {α : Type} (table : Table α) {ids : List String} {id : String}
    (listed : id ∈ ids) : Assoc.find? id (selected table ids) = Assoc.find? id table := by
  have taken : ∀ entry ∈ ids.filterMap fun id =>
      (Assoc.find? id table).map fun record => (id, record),
      Assoc.find? entry.1 table = some entry.2 := by
    simp only [List.mem_filterMap, Option.map_eq_some_iff]
    rintro _ ⟨key, -, record, found, rfl⟩
    exact found
  rw [selected, Assoc.ofList, Assoc.find?_foldl_insert taken, ite_eq_left_iff]
  intro missing
  cases found : Assoc.find? id table with
  | none => rfl
  | some record =>
    refine absurd
      (List.mem_map.2 ⟨(id, record), List.mem_filterMap.2 ⟨id, listed, ?_⟩, rfl⟩) missing
    simp [found]

end Plan

/-! ## What a step refers to -/

/-- Two plans have the same actions and conditions under the identifiers that a step refers to. -/
structure Plan.AgreesOn (p q : Plan) (s : Step) : Prop where
  actions : ∀ id ∈ s.actionIds, p.action? id = q.action? id
  conditions : ∀ id ∈ s.conditionIds, p.condition? id = q.condition? id

namespace Engine

variable {σ : Type} {engine : Engine σ} {p q : Plan} {s : Step}

theorem resolve_congr {ids : List String} (h : ∀ id ∈ ids, p.action? id = q.action? id) :
    resolve p ids = resolve q ids := by
  induction ids with
  | nil => rfl
  | cons id rest ih =>
    rw [resolve, resolve, h id List.mem_cons_self,
      ih fun other hother => h other (List.mem_cons_of_mem id hother)]

theorem holdAll_congr (data : Json) {ids : List String}
    (h : ∀ id ∈ ids, p.condition? id = q.condition? id) :
    engine.holdAll p data ids = engine.holdAll q data ids := by
  induction ids with
  | nil => rfl
  | cons id rest ih =>
    rw [holdAll, holdAll, h id List.mem_cons_self,
      ih fun other hother => h other (List.mem_cons_of_mem id hother)]

theorem callable_congr (h : p.AgreesOn q s) : engine.callable p s = engine.callable q s := by
  rw [callable, callable, resolve_congr h.actions]

theorem attempt_congr (h : p.AgreesOn q s) (data : Json) :
    engine.attempt p s data = engine.attempt q s data := by
  unfold attempt interpret fanOut runActions
  rw [callable_congr h, holdAll_congr data h.conditions]

theorem fanOutAll_congr (h : p.AgreesOn q s) (data : Json) :
    fanOutAll p s data = fanOutAll q s data := by
  rw [fanOutAll, fanOutAll, resolve_congr h.actions]

theorem runAgain_congr {place : Place} (h : p.AgreesOn q place.step) (data : Json)
    (total left : Nat) (e : Execution) :
    engine.runAgain p data place total left e = engine.runAgain q data place total left e := by
  induction left generalizing e with
  | zero => rfl
  | succ left ih => simp only [runAgain, attempt_congr h, ih]

/-- A step asks a plan for nothing but what it refers to. -/
theorem runStep_congr {place : Place} (h : p.AgreesOn q place.step) (data : Json)
    (e : Execution) : engine.runStep p data place e = engine.runStep q data place e := by
  unfold runStep runOnce runAnyway
  simp only [attempt_congr h, fanOutAll_congr h, runAgain_congr h]

/-- A run of positions asks a plan for nothing but what their steps refer to. -/
theorem runFrom_congr {entries : List PlanEntry}
    (h : ∀ entry ∈ entries, ∀ s, entry.step = some s → p.AgreesOn q s) (data : Json) (index : Nat)
    (e : Execution) :
    engine.runFrom p data index entries e = engine.runFrom q data index entries e := by
  induction entries generalizing index e with
  | nil => rfl
  | cons entry rest ih =>
    have step_congr := h entry List.mem_cons_self
    have rest_congr := ih fun other hother => h other (List.mem_cons_of_mem entry hother)
    simp only [runFrom, rest_congr]
    cases hs : entry.step with
    | none => rfl
    | some s =>
      have here : p.AgreesOn q (Place.mk index s).step := step_congr s hs
      simp only [runStep_congr here]

end Engine

/-! ## Plans and the collections they are taken from -/

/-- A workflow comes to this step, as the collections have it. -/
def Collections.Lists (c : Collections) (w : Workflow) (s : Step) : Prop :=
  ∃ id ∈ w.stepIds, Assoc.find? id c.steps = some s

/-- A plan has what the collections have for a workflow: a position for each listed step, in order,
and under every identifier that a listed step refers to the same record, or none. -/
structure Plan.FaithfulTo (p : Plan) (c : Collections) (w : Workflow) : Prop where
  entries : p.entries.map (fun entry => (entry.stepId, entry.step)) =
    w.stepIds.map fun id => (id, Assoc.find? id c.steps)
  actions : ∀ s, c.Lists w s → ∀ id ∈ s.actionIds, p.action? id = Assoc.find? id c.actions
  conditions : ∀ s, c.Lists w s → ∀ id ∈ s.conditionIds,
    p.condition? id = Assoc.find? id c.conditions

namespace Plan

/-- The steps of a plan are those that its workflow lists. -/
theorem mem_steps_ofCollections {c : Collections} {w : Workflow} {s : Step} :
    s ∈ (ofCollections c w).entries.filterMap PlanEntry.step ↔ c.Lists w s := by
  simp [ofCollections, Collections.Lists]

theorem faithfulTo_ofCollections (c : Collections) (w : Workflow) :
    (ofCollections c w).FaithfulTo c w where
  entries := by simp [ofCollections]
  actions s listed id hid :=
    find?_selected _ (List.mem_flatMap.2 ⟨s, mem_steps_ofCollections.2 listed, hid⟩)
  conditions s listed id hid :=
    find?_selected _ (List.mem_flatMap.2 ⟨s, mem_steps_ofCollections.2 listed, hid⟩)

/-- The whole tables of collections. -/
def whole (c : Collections) (w : Workflow) : Plan := ⟨w, [], c.actions, c.conditions⟩

theorem agreesOn_whole {c : Collections} {w : Workflow} {s : Step} (listed : c.Lists w s) :
    (ofCollections c w).AgreesOn (whole c w) s :=
  ⟨(faithfulTo_ofCollections c w).actions s listed,
    (faithfulTo_ofCollections c w).conditions s listed⟩

/-- A step of a plan is one that the workflow lists. -/
theorem lists_of_mem_entries {c : Collections} {w : Workflow} {entry : PlanEntry} {s : Step}
    (h : entry ∈ (ofCollections c w).entries) (hs : entry.step = some s) : c.Lists w s :=
  mem_steps_ofCollections.1 (List.mem_filterMap.2 ⟨entry, h, hs⟩)

end Plan

/-! ## The engine without plans -/

namespace Engine

variable {σ : Type}

/-- Step identifiers, from an index on. Each is looked up in the collections when the run comes to
it, and so is what the step refers to. -/
def visitFrom (engine : Engine σ) (c : Collections) (w : Workflow) (data : Json) :
    Nat → List String → Execution → Program Execution
  | _, [], e => finished .completed e
  | index, id :: rest, e =>
    let e := { e with currentStepIndex := index }
    match Assoc.find? id c.steps with
    | none => do
      let text := (StepError.missingStep id).message
      let e := e.pushError index id text (← Program.now)
      finished .failed e
    | some s => do
      match ← engine.runStep (.whole c w) data ⟨index, s⟩ e with
      | (.proceed, e) => engine.visitFrom c w data (index + 1) rest e
      | (.halt status, e) => finished status e

/-- A run of a workflow without a plan. -/
def visit (engine : Engine σ) (c : Collections) (w : Workflow) (e : Execution) :
    Program Execution :=
  engine.visitFrom c w e.data 0 w.stepIds e

theorem runFrom_whole (engine : Engine σ) (c : Collections) (w : Workflow) (data : Json)
    (index : Nat) (ids : List String) (e : Execution) :
    engine.runFrom (.whole c w) data index (ids.map fun id => ⟨id, Assoc.find? id c.steps⟩) e =
      engine.visitFrom c w data index ids e := by
  induction ids generalizing index e with
  | nil => rfl
  | cons id rest ih =>
    cases found : Assoc.find? id c.steps with
    | none => simp only [List.map_cons, runFrom, visitFrom, found]
    | some s =>
      simp only [List.map_cons, runFrom, visitFrom, found]
      refine congrArg _ (funext fun x => ?_)
      obtain ⟨flow, e⟩ := x
      cases flow with
      | proceed => exact ih (index + 1) e
      | halt status => rfl

/-- Running the plan of a workflow is the same as looking everything up in the collections. -/
theorem run_eq_visit (engine : Engine σ) (c : Collections) (w : Workflow) (e : Execution) :
    engine.run (.ofCollections c w) e = engine.visit c w e := by
  rw [run, runFrom_congr fun entry h s hs => Plan.agreesOn_whole (Plan.lists_of_mem_entries h hs)]
  exact runFrom_whole engine c w e.data 0 w.stepIds e

end Engine

/-- Two collections have the same records under every identifier that a run of a workflow may look
up. -/
structure Collections.AgreeFor (w : Workflow) (c c' : Collections) : Prop where
  steps : ∀ id ∈ w.stepIds, Assoc.find? id c.steps = Assoc.find? id c'.steps
  actions : ∀ s, c.Lists w s → ∀ id ∈ s.actionIds,
    Assoc.find? id c.actions = Assoc.find? id c'.actions
  conditions : ∀ s, c.Lists w s → ∀ id ∈ s.conditionIds,
    Assoc.find? id c.conditions = Assoc.find? id c'.conditions

namespace Collections.AgreeFor

variable {σ : Type} {w : Workflow} {c c' : Collections}

theorem entries_eq (h : AgreeFor w c c') :
    (Plan.ofCollections c w).entries = (Plan.ofCollections c' w).entries :=
  List.map_congr_left fun id hid => by rw [h.steps id hid]

/-- What the collections do not agree on has no part in a run. -/
theorem run_eq (h : AgreeFor w c c') (engine : Engine σ) (e : Execution) :
    engine.run (.ofCollections c w) e = engine.run (.ofCollections c' w) e := by
  have agree : ∀ entry ∈ (Plan.ofCollections c w).entries, ∀ s, entry.step = some s →
      (Plan.ofCollections c w).AgreesOn (.ofCollections c' w) s := by
    intro entry hentry s hs
    have listed := Plan.lists_of_mem_entries hentry hs
    have listed' := Plan.lists_of_mem_entries (h.entries_eq ▸ hentry) hs
    have faithful := Plan.faithfulTo_ofCollections c w
    have faithful' := Plan.faithfulTo_ofCollections c' w
    refine ⟨fun id hid => ?_, fun id hid => ?_⟩
    · rw [faithful.actions s listed id hid, faithful'.actions s listed' id hid,
        h.actions s listed id hid]
    · rw [faithful.conditions s listed id hid, faithful'.conditions s listed' id hid,
        h.conditions s listed id hid]
  rw [Engine.run, Engine.runFrom_congr agree, Engine.run, h.entries_eq]

end Collections.AgreeFor

end EventFlow
