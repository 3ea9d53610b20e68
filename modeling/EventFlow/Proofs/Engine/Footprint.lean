import EventFlow.Proofs.Data.Assoc
import EventFlow.Proofs.Engine.Account
import EventFlow.Proofs.Engine.Delivery

/-!
# What a run leaves behind

A workflow is run to its end where nobody else is under way. Of all that a run asks of the store it
only reads, but for the last: its execution is put into the ledger when it is over. So the agent in
front leaves the store as it is until it ends, and ends by recording (`Machine.Leaves`,
`Scene.Sole`), and the machine after a run is one that the run has come to, with the store of the
beginning, to which one record is added (`Machine.closes_await`). The record holds the data of the
beginning, which is the event's over the workflow's (`Engine.get?_context`). The workflow is run by
`Engine.execute`, in `EventFlow.Engine.Trigger`, which looks it up first and refuses what is not
there or not active.
-/

set_option autoImplicit false

namespace EventFlow

variable {σ : Type}

/-! ## The data of a run -/

namespace Engine

/-- What is under a key in the data of a run: the event's value; the event's data itself under
`payload`, if it is neither an object nor `null`; and else the variable of the workflow. -/
def contextValue (defaults data : Json) (key : String) : Option Json :=
  match data with
  | .object members => (Assoc.find? key members).or (defaults.get? key)
  | .null => defaults.get? key
  | other => if key = "payload" then some other else defaults.get? key

theorem get?_context {data : Json} (canonical : data.Canonical) (defaults : Json) (key : String) :
    (context defaults data).get? key = contextValue defaults data key := by
  unfold context contextValue
  cases data with
  | object members =>
    refine (Assoc.find?_overlay (Assoc.count_le_one_of_ascending canonical.1 key) _).trans ?_
    cases defaults <;> rfl
  | null => cases defaults <;> rfl
  | _ =>
    refine (Assoc.find?_insert "payload" _ _ key).trans ?_
    cases defaults <;> rfl

theorem isObject_context (defaults data : Json) : (context defaults data).isObject = true := by
  unfold context
  cases data <;> rfl

/-- A run keeps the data that it has begun with. -/
theorem data_of_await (engine : Engine σ) (w : Workflow) {e : Execution}
    (running : e.status = .running) (m : Machine σ) :
    (m.await engine (engine.drive w e)).1.data = e.data := by
  obtain ⟨effects, performs, -⟩ := performs_of_await engine (engine.drive w e) m
  obtain ⟨_, c, _, -, -, driven⟩ := performs.of_bind
  obtain ⟨_, ended, _, -, ran, recorded⟩ := driven.of_bind
  obtain ⟨visits, ending, -, -, writes, -⟩ := course_of_run running ran
  cases recorded with | record _ last =>
  cases last
  exact writes.data

end Engine

/-! ## The agent in front -/

/-- What the agent has left to do ends with the record of an execution. -/
def Agent.Owes (P : Execution → Prop) : Agent Execution → Prop
  | .ready p => p.Delivers P
  | .asleep _ p => p.Delivers P
  | .calling _ next => ∀ answer, (next answer).Delivers P
  | .finished e => P e

theorem Agent.Owes.fill {P : Execution → Prop} {agent : Agent Execution} (h : agent.Owes P)
    (slot : Nat) (reply : Reply) : (agent.fill slot reply).Owes P := by
  cases agent <;> exact h

namespace Machine

variable {engine : Engine σ} {P : Execution → Prop} {m m' m'' : Machine σ}

/-- How the agent in front may have gone on: it has left the store as it was, or it has ended with
the record of its execution and nothing else. -/
structure Leaves (engine : Engine σ) (P : Execution → Prop) (m : Machine σ)
    (agent : Agent Execution) (m' : Machine σ) : Prop where
  owes : agent.Owes P
  untouched : agent.result? = none → m'.store = m.store
  closed : ∀ e, agent.result? = some e → ∃ before, Acts engine .front m before ∧
    before.store = m.store ∧ m' = (before.change engine.disk (·.record e)).2

/-- What the agent does first may leave the store as it is. -/
theorem Leaves.after {agent : Agent Execution} (h : m'.Leaves engine P agent m'')
    (acts : Acts engine .front m m') (store : m'.store = m.store) :
    m.Leaves engine P agent m'' where
  owes := h.owes
  untouched going := (h.untouched going).trans store
  closed e ended := by
    obtain ⟨before, acts', store', after⟩ := h.closed e ended
    exact ⟨before, acts.trans acts', store'.trans store, after⟩

/-- An agent that waits has ended nothing. -/
theorem leaves_of_going {agent : Agent Execution} (owes : agent.Owes P)
    (going : agent.result? = none) (store : m'.store = m.store) : m.Leaves engine P agent m' where
  owes := owes
  untouched _ := store
  closed e ended := by cases going.symm.trans ended

theorem leaves_advance {p : Program Execution} (h : p.Delivers P) (m : Machine σ) :
    m.Leaves engine P (advance engine .front p m).1 (advance engine .front p m).2 := by
  induction p generalizing m with
  | done result => exact h.elim
  | clock next ih => exact (ih _ (h _) _).after (.single (.draws m _)) rfl
  | collections next ih => exact ih _ (h _) m
  | record e next ih =>
    obtain ⟨holds, rfl⟩ := h
    refine ⟨holds, nofun, ?_⟩
    intro _ ended
    cases ended
    exact ⟨m, .refl, rfl, rfl⟩
  | sleep ms next ih =>
    rw [advance]
    split
    · exact ih h m
    · exact leaves_of_going h rfl rfl
  | call limit order calls next ih =>
    rw [advance]
    split
    · exact ih _ (h.2 _) m
    · next waiting made _ =>
      split
      · exact ih _ (h.2 _) m
      · exact leaves_of_going h.2 rfl (store_makeCalls _ made m)
      · exact leaves_of_going h.2 rfl (store_makeCalls _ made m)

theorem leaves_resume (expired : Bool) {agent : Agent Execution} (h : agent.Owes P)
    (going : agent.result? = none) (m : Machine σ) :
    m.Leaves engine P (resume engine .front expired agent m).1
      (resume engine .front expired agent m).2 := by
  cases agent with
  | ready p => exact leaves_advance h m
  | asleep wakeTime p =>
    rw [resume]
    split
    · exact leaves_advance h m
    · exact leaves_of_going h rfl rfl
  | calling waiting next =>
    have cancelled (answer : Option (List Reply)) :
        m.Leaves engine P (advance engine .front (next answer) (m.cancel .front)).1
          (advance engine .front (next answer) (m.cancel .front)).2 :=
      (leaves_advance (h answer) _).after (.single (.cancels m)) rfl
    rw [resume]
    split
    · exact cancelled _
    · next waiting' made _ =>
      split
      · exact cancelled none
      · exact leaves_of_going h rfl (store_makeCalls _ made m)
  | finished e => cases going

end Machine

namespace Scene

open Machine (Runs Acts)

variable {engine : Engine σ} {P : Execution → Prop} {m : Machine σ} {s t : Scene σ Execution}

/-- What an alarm of the agent in front does to it and to the store. -/
theorem front_goOff_front {a : Alarm} (own : a.owner = .front) (s : Scene σ Execution) :
    (s.goOff engine a).machine.store = s.machine.store ∧
      ((s.goOff engine a).front = s.front ∨
        ∃ slot reply, (s.goOff engine a).front = s.front.fill slot reply) := by
  obtain ⟨time, owner, signal⟩ := a
  cases own
  cases signal with
  | wake => exact ⟨rfl, .inl rfl⟩
  | finish slot reply => exact ⟨rfl, .inr ⟨slot, reply, rfl⟩⟩
  | start slot call =>
    simp only [goOff, begin]
    split
    · exact ⟨rfl, .inr ⟨slot, _, rfl⟩⟩
    · split
      · exact ⟨rfl, .inr ⟨slot, _, rfl⟩⟩
      · exact ⟨rfl, .inl rfl⟩

/-- Nobody is under way but the agent in front. It has not touched the store since the machine was
`m`, or it has ended and has put its execution into the ledger. -/
structure Sole (engine : Engine σ) (P : Execution → Prop) (m : Machine σ)
    (s : Scene σ Execution) : Prop where
  nobody : ∀ i, s.machine.alarmsOf (.background i) = []
  owes : s.front.Owes P
  untouched : s.front.result? = none → m.Runs engine s.machine ∧ s.machine.store = m.store
  closed : ∀ e, s.front.result? = some e → ∃ before, m.Runs engine before ∧
    before.store = m.store ∧ s.machine = (before.change engine.disk (·.record e)).2

/-- The agent in front acts on a machine that the run has come to. -/
theorem sole_of_leaves {m' : Machine σ} (orderly : m'.Orderly) (runs : m.Runs engine m')
    (store : m'.store = m.store) (nobody : ∀ i, m'.alarmsOf (.background i) = [])
    (acts : Acts engine .front m' s.machine)
    (leaves : m'.Leaves engine P s.front s.machine) : s.Sole engine P m where
  nobody i := (acts.spares.alarms (.background i) nofun).trans (nobody i)
  owes := leaves.owes
  untouched going :=
    ⟨runs.trans (Machine.runs_of_acts acts orderly), (leaves.untouched going).trans store⟩
  closed e ended := by
    obtain ⟨before, acts', store', after⟩ := leaves.closed e ended
    exact ⟨before, runs.trans (Machine.runs_of_acts acts' orderly), store'.trans store, after⟩

namespace Sole

theorem resumeFront (h : s.Sole engine P m) (orderly : m.Orderly)
    (going : s.front.result? = none) (expired : Bool) :
    (s.resumeFront engine expired).Sole engine P m := by
  obtain ⟨runs, store⟩ := h.untouched going
  exact sole_of_leaves (runs.path.orderly orderly) runs store h.nobody
    (Machine.acts_resume expired s.front s.machine)
    (Machine.leaves_resume expired h.owes going s.machine)

theorem expire (h : s.Sole engine P m) (orderly : m.Orderly) (going : s.front.result? = none)
    (due : s.isDue = true) : (s.expire engine).Sole engine P m := by
  obtain ⟨runs, store⟩ := h.untouched going
  have waited : (s.atTime (s.front.due.getD 0)).Sole engine P m :=
    ⟨h.nobody, h.owes, fun _ => ⟨runs.trans (runs_atTime due (runs.path.orderly orderly)), store⟩,
      fun e ended => by cases going.symm.trans ended⟩
  exact waited.resumeFront orderly going true

theorem tick (h : s.Sole engine P m) (orderly : m.Orderly) (going : s.front.result? = none)
    (ticks : s.tick engine = some t) : t.Sole engine P m := by
  obtain ⟨runs, store⟩ := h.untouched going
  have goesOn := runs_tick ticks (runs.path.orderly orderly)
  unfold Scene.tick at ticks
  split at ticks
  · cases ticks
  · next a rest alarms =>
    cases ticks
    -- Nobody else has set an alarm.
    have own : a.owner = .front := by
      by_contra apart
      obtain ⟨i, background⟩ := Machine.exists_background apart
      have mine : a ∈ s.machine.alarmsOf (.background i) :=
        Machine.mem_alarmsOf.2 ⟨alarms ▸ List.mem_cons_self, background⟩
      rw [h.nobody i] at mine
      cases mine
    let rung : Scene σ Execution := Scene.atTime a.time { s with
      machine := { s.machine with alarms := rest },
      turns := if s.isRoundOver then 1 else s.turns + 1 }
    have acts : Machine.Acts engine .front rung.machine (rung.goOff engine a).machine :=
      acts_goOff_front own rung
    obtain ⟨kept, front⟩ : (rung.goOff engine a).machine.store = rung.machine.store ∧ _ :=
      front_goOff_front own rung
    refine ⟨?_, ?_, fun _ => ⟨runs.trans goesOn, kept.trans store⟩, ?_⟩
    · intro i
      refine (acts.spares.alarms (.background i) nofun).trans ?_
      have nobody := h.nobody i
      rw [Machine.alarmsOf, alarms, List.filter_eq_nil_iff] at nobody
      rw [Machine.alarmsOf, List.filter_eq_nil_iff]
      exact fun x hx => nobody x (List.mem_cons_of_mem a hx)
    · rcases front with same | ⟨slot, reply, filled⟩
      · rw [same]
        exact h.owes
      · rw [filled]
        exact h.owes.fill slot reply
    · intro e ended
      rcases front with same | ⟨slot, reply, filled⟩
      · rw [same] at ended
        cases going.symm.trans ended
      · rw [filled, Agent.result?_fill] at ended
        cases going.symm.trans ended

/-- Whatever the machine does next, the agent in front is alone and leaves the store as it is until
it ends. -/
theorem next (h : s.Sole engine P m) (orderly : m.Orderly) (going : s.front.result? = none) :
    (s.next engine).Sole engine P m := by
  unfold Scene.next
  split
  · exact h.resumeFront orderly going false
  · split
    · next due => exact h.expire orderly going due
    · cases ticks : s.tick engine with
      | none => exact h
      | some t => exact h.tick orderly going ticks

end Sole

end Scene

namespace Machine

variable {engine : Engine σ} {P : Execution → Prop} {m : Machine σ}

/-- Nobody in the background has an alarm. -/
def Free (m : Machine σ) : Prop := ∀ a ∈ m.alarms, a.owner = .front

theorem Free.cancel (h : m.Free) : (m.cancel .front).alarms = [] := by
  rw [Machine.cancel, List.filter_eq_nil_iff]
  intro a ha
  simp [h a ha]

theorem Free.orderly_cancel (h : m.Free) : (m.cancel .front).Orderly := by
  constructor <;> rw [h.cancel]
  · exact .nil
  · exact List.forall_mem_nil _
  · exact List.forall_mem_nil _

/-- The supply is drawn from, and what was left of an earlier agent in front is forgotten. -/
theorem Free.runs_cancel (h : m.Free) (supply : Supply) :
    m.Runs engine (Machine.cancel .front { m with supply }) := by
  have forgotten : (Machine.cancel .front { m with supply }).alarms = [] := h.cancel
  refine .single ⟨.aside rfl rfl ?_ ?_ (Nat.le_refl _) ?_, fun _ => rfl⟩
  · intro i
    have apart : Owner.background i ≠ .front := nofun
    exact alarmsOf_cancel_of_ne apart { m with supply }
  · rw [forgotten]
    exact .nil
  · intro a ha apart
    exact absurd (h a ha) apart

/-- A program that delivers is awaited where nobody else is under way: it comes to an execution and
to a machine with the store of the beginning, and records the one on the other. -/
theorem closes_await {p : Program Execution} (delivers : p.Delivers P) (free : m.Free) :
    P (m.await engine p).1 ∧ ∃ before, (m.cancel .front).Runs engine before ∧
      before.store = m.store ∧
      (m.await engine p).2 = (before.change engine.disk (·.record (m.await engine p).1)).2 := by
  have orderly := free.orderly_cancel
  have nobody : ∀ i, (m.cancel .front).alarmsOf (.background i) = [] := by
    intro i
    rw [alarmsOf, free.cancel, List.filter_nil]
  have begun : Scene.Sole engine P (m.cancel .front)
      ⟨(advance engine .front p (m.cancel .front)).2,
        (advance engine .front p (m.cancel .front)).1, false, 0⟩ :=
    Scene.sole_of_leaves orderly .refl rfl nobody (acts_advance p _) (leaves_advance delivers _)
  obtain ⟨last, sole, front, machine⟩ :=
    Scene.run_keeps (fun s sole going => sole.next orderly going) begun
  have owes := sole.owes
  rw [front] at owes
  obtain ⟨before, runs, store, after⟩ := sole.closed _ (by rw [front]; rfl)
  exact ⟨owes, before, runs, store, machine.symm.trans after⟩

end Machine

namespace Engine

/-- A workflow is run to its end where nobody else is under way: its execution is over, has kept its
data, and has been recorded on a machine with the store of the beginning. -/
theorem closes_start (engine : Engine σ) (w : Workflow) (data : Json) {m : Machine σ}
    (free : m.Free) :
    (engine.start w data m).1.status.isTerminal = true ∧
      (engine.start w data m).1.data = context w.defaults data ∧
      ∃ before, m.Runs engine before ∧ before.store = m.store ∧ (engine.start w data m).2 =
        (before.change engine.disk (·.record (engine.start w data m).1)).2 := by
  let began := engine.prepare w data m.supply
  have running : began.1.status = .running := rfl
  have free' : Machine.Free { m with supply := began.2 } := free
  obtain ⟨⟨-, terminal⟩, before, runs, store, after⟩ :=
    Machine.closes_await (engine.delivers_drive w running) free'
  exact ⟨terminal, engine.data_of_await w running _, before, (free.runs_cancel _).trans runs, store,
    after⟩

/-- The workflow of an identifier is run where nobody else is under way. An unknown or inactive one
is refused, and the machine is as it was. Else there is an execution, which is over and has the
event's data over the variables of the workflow; and all that the run does to the store, after it
has come to a machine whose store is as it was, is to record this execution: no definition changes,
and the ledger has it at its end, unless its snapshot cannot be written. -/
theorem execute_leaves (engine : Engine σ) (id : String) {data : Json} (canonical : data.Canonical)
    {m : Machine σ} (free : m.Free) :
    ((m.store.find? id : Option Workflow) = none →
      engine.execute id data m = (.error (.workflowNotFound id), m)) ∧
    (∀ w : Workflow, m.store.find? id = some w → w.status ≠ .active →
      engine.execute id data m = (.error (.workflowInactive w.id), m)) ∧
    (∀ w : Workflow, m.store.find? id = some w → w.status = .active →
      ∃ e m', engine.execute id data m = (.ok e, m') ∧ e.status.isTerminal = true ∧
        e.data.isObject = true ∧ (∀ key, e.data.get? key = contextValue w.defaults data key) ∧
        (∀ k, m'.store.collections.table k = m.store.collections.table k) ∧
        ∃ before, m.Runs engine before ∧ before.store = m.store ∧
          m' = (before.change engine.disk (·.record e)).2 ∧
          ((∀ old ∈ m.store.ledger, old.id ≠ e.id) → m'.store.ledger =
            match (engine.disk.facing before.world before.store).writeFailure? with
            | none => m.store.ledger ++ [e]
            | some _ => m.store.ledger)) := by
  refine ⟨?_, ?_, ?_⟩
  · intro unknown
    simp only [execute, unknown]
  · intro w known inactive
    have off : ¬ w.isActive = true := mt beq_iff_eq.1 inactive
    simp only [execute, known, if_neg off]
  · intro w known active
    have on : w.isActive = true := beq_iff_eq.2 active
    obtain ⟨terminal, kept, before, runs, store, after⟩ := engine.closes_start w data free
    refine ⟨(engine.start w data m).1, (engine.start w data m).2, ?_, terminal, ?_, ?_, ?_, before,
      runs, store, after, ?_⟩
    · simp only [execute, known, on, if_pos]
    · rw [kept]
      exact isObject_context w.defaults data
    · intro key
      rw [kept]
      exact get?_context canonical w.defaults key
    · intro k
      rw [after, Machine.change, Store.table_record, Disk.collections_facing, store]
    · intro fresh
      rw [after]
      have same : (engine.disk.facing before.world before.store).ledger = m.store.ledger := by
        rw [Store.ledger, Disk.collections_facing, store, Store.ledger]
      have ended := ExecutionStatus.isTerminal_iff.1 terminal
      rw [← same] at fresh ⊢
      exact Store.ledger_record ended fresh

/-- A machine on whose empty ledger the nightly workflow will be the first. -/
def nightfall : Machine Unit :=
  { idle with store := ⟨{ oneStep with workflows := [("nightly", nightly)] }, none⟩ }

theorem execute_leaves_nightfall :
    let moon : Json := .object [("moon", .bool true)]
    moon.Canonical ∧ nightfall.Free ∧
      ∃ e m', bare.execute "nightly" moon nightfall = (.ok e, m') ∧
        e.data.get? "moon" = some (.bool true) ∧ m'.store.ledger = [e] := by
  have canonical : (Json.object [("moon", .bool true)]).Canonical :=
    ⟨List.pairwise_singleton _ _, trivial, trivial⟩
  have free : nightfall.Free := nofun
  obtain ⟨e, m', executed, -, -, holds, -, before, -, store, -, ledger⟩ :=
    (execute_leaves bare "nightly" canonical free).2.2 nightly rfl rfl
  refine ⟨canonical, free, e, m', executed, holds "moon", ?_⟩
  have added := ledger nofun
  rw [store] at added
  exact added

end Engine

end EventFlow
