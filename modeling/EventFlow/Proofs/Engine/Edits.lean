import EventFlow.Proofs.Engine.Footprint
import EventFlow.Proofs.Store.Edits

/-!
# No update is lost

Whatever happens to a machine keeps a log of the requests that are made of its store
(`Machine.Serves`, `Machine.Path.exists_log`), from whomever they come and whatever runs meanwhile.
A workflow that nobody deletes or replaces has in each field the value that the last update of the
log has set there, or the one it had before (`no_update_is_lost`). What an update does to a record
is `WorkflowUpdate.apply`, and the store takes it by `Store.updateWorkflow`
(`EventFlow.Store.Workflows`).
-/

set_option autoImplicit false

namespace EventFlow

variable {σ : Type}

open WorkflowUpdate (lastSet)

namespace Machine

variable {engine : Engine σ} {m m' : Machine σ}

/-- The answer of a machine's store to a request, and the machine after it. -/
def serve (engine : Engine σ) (request : Store.Request) (supply : Supply) (m : Machine σ) :
    Answer × Machine σ :=
  m.change engine.disk fun s =>
    let (answer, s, _) := request.perform s supply
    (answer, s)

/-- What may happen to a machine, with the requests that are made of its store. -/
inductive Serves (engine : Engine σ) (m : Machine σ) : Store.Log → Machine σ → Prop
  | nil : Serves engine m [] m
  /-- One request more is made, by anybody. -/
  | request {log : Store.Log} {m' : Machine σ} (before : Serves engine m log m')
      (request : Store.Request) (supply : Supply) :
      Serves engine m (log ++ [(request, (m'.serve engine request supply).1)])
        (m'.serve engine request supply).2
  /-- Something else happens. -/
  | besides {log : Store.Log} {m' m'' : Machine σ} (before : Serves engine m log m')
      (step : m'.Proceeds engine m'') : Serves engine m log m''

/-- Whatever happens is a request, or no matter of the definitions. -/
theorem Happens.request_or_proceeds (step : m.Happens engine m') :
    (∃ request supply, m' = (m.serve engine request supply).2) ∨ m.Proceeds engine m' := by
  cases step with
  | @goesOff a before after alarms own first =>
    obtain ⟨i, hi⟩ := exists_background own
    have acts : Acts engine (.background i) _ _ := acts_goOff hi (before ++ after) m
    exact .inr ⟨.goesOff alarms own first, acts.spares.tables⟩
  | requested request supply => exact .inl ⟨request, supply, rfl⟩
  | recorded e =>
    refine .inr ⟨.recorded m e, fun k => ?_⟩
    rw [change, Store.table_record, Disk.collections_facing]
  | launched w data => exact .inr ⟨.launched m w data, fun _ => rfl⟩
  | aside agents store alarms ordered later first =>
    exact .inr ⟨.aside agents store alarms ordered later first, fun k => by rw [store]⟩

/-- All that may happen has a log. -/
theorem Path.exists_log (path : m.Path engine m') : ∃ log, m.Serves engine log m' := by
  induction path with
  | refl => exact ⟨[], .nil⟩
  | tail _ step ih =>
    obtain ⟨log, before⟩ := ih
    rcases step.request_or_proceeds with ⟨request, supply, rfl⟩ | aside
    · exact ⟨_, before.request request supply⟩
    · exact ⟨log, before.besides aside⟩

/-- A workflow that is never overridden holds what the updates of the log have set. -/
theorem Serves.find? {log : Store.Log} (serves : m.Serves engine log m') {w : Workflow}
    (found : m.store.find? w.id = some w) (spared : Store.Spared w.id log) :
    ∃ time, m'.store.find? w.id =
      some (WorkflowUpdate.applyAll (Store.updatesOf w.id log) time w) := by
  induction serves with
  | nil => exact ⟨w.updatedAt, found⟩
  | @request log m' before request supply ih =>
    obtain ⟨earlier, next⟩ := List.forall_mem_append.1 spared
    obtain ⟨time, holds⟩ := ih earlier
    have there : (engine.disk.facing m'.world m'.store).find? w.id =
        some (WorkflowUpdate.applyAll (Store.updatesOf w.id log) time w) := by
      rw [Store.find?, Disk.collections_facing]
      exact holds
    obtain ⟨time', after⟩ := Store.Request.find?_perform
      (w := WorkflowUpdate.applyAll (Store.updatesOf w.id log) time w) request supply there next
    refine ⟨time', ?_⟩
    rw [Store.updatesOf, List.filterMap_append, ← WorkflowUpdate.applyAll_append _ _ time]
    exact after
  | besides before step ih =>
    obtain ⟨time, holds⟩ := ih spared
    refine ⟨time, ?_⟩
    rw [← holds]
    exact congrArg (Assoc.find? w.id) (step.2 .workflow)

end Machine

/-- Whatever is asked of a machine's store, in whichever order and by whomever, and whatever else
happens: a workflow that is neither deleted nor replaced has in each field the value that the last
successful update of it has set there, or else the one it had, and it keeps its identifier and what
says when and by whom it was created. Two updates of it that set no field both can be made in either
order. -/
theorem Engine.no_update_is_lost (engine : Engine σ) {m m' : Machine σ} {log : Store.Log}
    (serves : m.Serves engine log m') {w : Workflow} (found : m.store.find? w.id = some w)
    (spared : Store.Spared w.id log) :
    (∃ time : Instant, (m'.store.find? w.id : Option Workflow) = some
      { id := w.id
        name := lastSet (·.name) w.name (Store.updatesOf w.id log)
        description := lastSet (·.description) w.description (Store.updatesOf w.id log)
        status := lastSet (·.status) w.status (Store.updatesOf w.id log)
        triggerEventType :=
          lastSet (·.triggerEventType) w.triggerEventType (Store.updatesOf w.id log)
        stepIds := lastSet (·.stepIds) w.stepIds (Store.updatesOf w.id log)
        defaults := lastSet (·.defaults) w.defaults (Store.updatesOf w.id log)
        createdAt := w.createdAt
        updatedAt := time
        createdBy := w.createdBy }) ∧
    ∀ (s : Store) (u v : WorkflowUpdate), u.Apart v → ∀ supply later supply' later' : Supply,
      let first := s.updateWorkflow w.id u supply
      let second := first.2.1.updateWorkflow w.id v later
      let first' := s.updateWorkflow w.id v supply'
      let second' := first'.2.1.updateWorkflow w.id u later'
      (∃ w, first.1 = .ok w) → (∃ w, second.1 = .ok w) →
        (∃ w, first'.1 = .ok w) ∧ (∃ w, second'.1 = .ok w) ∧
          ∃ (both : Workflow) (time time' : Instant),
            second.2.1.collections = Store.put { both with updatedAt := time } s.collections ∧
            second'.2.1.collections = Store.put { both with updatedAt := time' } s.collections :=
  ⟨serves.find? found spared, fun _ _ _ apart supply later supply' later' =>
    Store.updateWorkflow_comm apart supply later supply' later'⟩

/-- A workflow beside the nightly one. -/
def Engine.daily : Workflow := { nightly with id := "daily", name := "Daily" }

/-- A machine with both, whose second snapshot will not be written. -/
def Engine.cramped : Machine Unit :=
  { idle with store := ⟨{ oneStep with workflows := [("daily", daily), ("nightly", nightly)] },
      some ⟨none, none, fun n => if n = 1 then .renameFailed "disk full" else .written⟩⟩ }

/-- The request to give a workflow another name. -/
def Engine.rename (id name : String) : Store.Request :=
  .updateWorkflow id { WorkflowUpdate.empty with name := some name }

open Engine in
/-- The nightly workflow gets a name, is to get another that cannot be written, and is stopped; the
daily one and one that is not there are to get names as well, and a run begins meanwhile. -/
theorem Engine.no_update_is_lost_nightly :
    let name : WorkflowUpdate := { WorkflowUpdate.empty with name := some "Late" }
    let stop : WorkflowUpdate := { WorkflowUpdate.empty with status := some .disabled }
    let requests := [rename "nightly" "Late", rename "nightly" "Lost", rename "daily" "Noon",
      rename "yearly" "Spring", .setWorkflowStatus "nightly" .disabled]
    let s : Store := ⟨cramped.store.collections, none⟩
    (∃ log m, cramped.Serves bare log m ∧ log.map Prod.fst = requests ∧
      log.map (fun entry => entry.2.isRefused) = [false, true, false, true, false] ∧
      ∃ w : Workflow, m.store.find? "nightly" = some w ∧ w.name = "Late" ∧ w.status = .disabled ∧
        w.stepIds = nightly.stepIds) ∧
      ∃ w, ((s.updateWorkflow "nightly" stop default).2.1.updateWorkflow "nightly" name
        default).1 = .ok w := by
  intro name stop requests s
  have spared {log : Store.Log} (asked : log.map Prod.fst = requests) :
      Store.Spared nightly.id log := by
    intro entry among _ overridden
    have among : entry.1 ∈ requests := asked ▸ List.mem_map_of_mem among
    simp only [requests, List.mem_cons, List.not_mem_nil, or_false] at among
    rcases among with same | same | same | same | same <;> cases same ▸ overridden
  have named := (Machine.Serves.nil : cramped.Serves bare [] cramped).request
    (rename "nightly" "Late") default
  have unwritten := named.request (rename "nightly" "Lost") default
  have begun := unwritten.besides ⟨.launched _ nightly .null, fun _ => rfl⟩
  have aside := (begun.request (rename "daily" "Noon") default).request
    (rename "yearly" "Spring") default
  have stopped := aside.request (.setWorkflowStatus "nightly" .disabled) default
  obtain ⟨⟨time, found⟩, commute⟩ :=
    no_update_is_lost bare stopped (w := nightly) rfl (spared rfl)
  have apart : name.Apart stop :=
    ⟨.inr rfl, .inl rfl, .inl rfl, .inl rfl, .inl rfl, .inl rfl⟩
  obtain ⟨-, again, -⟩ :=
    commute s _ _ apart default default default default ⟨_, rfl⟩ ⟨_, rfl⟩
  exact ⟨⟨_, _, stopped, rfl, rfl, _, found, rfl, rfl, rfl⟩, again⟩

end EventFlow
