import EventFlow.Proofs.Engine.Foresight
import EventFlow.Proofs.Engine.Interleaving

/-!
# When handlers are called

The timeline of a machine lists the calls that are made for the agent in front until it has ended:
for which slot of a request, when, how long the call takes and how it ends. It is the account of the
calls of the machine with their times (`Machine.map_served_timeline`). What every step keeps where
it makes calls of some kind holds at the end of a run with such a timeline
(`Scene.run_keeps_timeline`). The calls are made by `Machine.makeCalls` (`EventFlow.Engine.Agent`)
in the steps of `Scene.run` (`EventFlow.Engine.Machine`).
-/

set_option autoImplicit false

namespace EventFlow

variable {σ β : Type}

/-- How long a call takes, in milliseconds, and how it ends. -/
structure Lasting where
  duration : Nat
  outcome : Except HandlerFailure Json

namespace Lasting

/-- What the caller is told. -/
def reply (x : Lasting) : Reply := x.outcome.mapError .handler

/-- Whether the handler has an output. -/
def Succeeds (x : Lasting) : Prop := ∃ output, x.outcome = .ok output

theorem isFailure_reply (x : Lasting) : Waiting.isFailure x.reply = true ↔ ¬ x.Succeeds :=
  Waiting.isFailure_mapError x.outcome

end Lasting

/-- A call that is made for a slot of a request, and when. -/
structure TimedCall where
  slot : Nat
  time : Nat
  call : Invocation
  lasting : Lasting

/-- The call without its time. -/
def TimedCall.served (c : TimedCall) : Served := ⟨c.call, c.lasting.outcome⟩

/-- The calls that are made for the agent in front when an alarm goes off. -/
def Alarm.timedCalls (engine : Engine σ) (m : Machine σ) (a : Alarm) : List TimedCall :=
  match a.owner, a.signal with
  | .front, .start slot call =>
    match Assoc.find? call.action.actionType engine.handlers with
    | some handler =>
      let started := handler call m.supply m.world
      [⟨slot, max m.time a.time, call, ⟨started.duration, started.reply⟩⟩]
    | none => []
  | _, _ => []

theorem Alarm.map_served_timedCalls (engine : Engine σ) (m : Machine σ) (a : Alarm) :
    (a.timedCalls engine m).map TimedCall.served = a.served engine m := by
  obtain ⟨time, owner, signal⟩ := a
  cases owner with
  | background i => rfl
  | front =>
    cases signal with
    | wake => rfl
    | finish slot reply => rfl
    | start slot call =>
      simp only [Alarm.timedCalls, Alarm.served]
      cases Assoc.find? call.action.actionType engine.handlers <;> rfl

namespace Scene

variable {engine : Engine σ} {s : Scene σ β}

/-- The calls that the next thing that happens makes for the agent in front. -/
def timedCalls (engine : Engine σ) (s : Scene σ β) : List TimedCall :=
  if (s.woken && s.isRoundOver) || s.isDue then []
  else match s.machine.alarms with
    | [] => []
    | a :: _ => a.timedCalls engine s.machine

/-- The calls that are made for the agent in front until it has ended. -/
def timeline (engine : Engine σ) (s : Scene σ β) : List TimedCall :=
  match _h : s.front.result? with
  | some _ => []
  | none => s.timedCalls engine ++ timeline engine (s.next engine)
termination_by before_wellFounded.wrap s
decreasing_by exact next_before engine ‹_›

theorem map_served_timedCalls (engine : Engine σ) (s : Scene σ β) :
    (s.timedCalls engine).map TimedCall.served = s.served engine := by
  unfold timedCalls served
  split
  · rfl
  · cases s.machine.alarms with
    | nil => rfl
    | cons a rest => exact a.map_served_timedCalls engine s.machine

theorem timeline_of_finished {result : β} (ended : s.front.result? = some result) :
    s.timeline engine = [] := by
  rw [timeline]
  split
  · rfl
  · next going => cases going.symm.trans ended

theorem timeline_of_going (going : s.front.result? = none) :
    s.timeline engine = s.timedCalls engine ++ (s.next engine).timeline engine := by
  rw [timeline]
  split
  · next ended => cases going.symm.trans ended
  · rfl

theorem map_served_timeline (engine : Engine σ) (s : Scene σ β) :
    (s.timeline engine).map TimedCall.served = s.calls engine := by
  induction s using Scene.calls.induct engine with
  | case1 s result ended =>
    rw [timeline_of_finished ended, calls]
    split
    · rfl
    · next going => cases going.symm.trans ended
  | case2 s going ih =>
    have calls_eq : s.calls engine = s.served engine ++ (s.next engine).calls engine := by
      rw [calls]
      split
      · next ended => cases going.symm.trans ended
      · rfl
    rw [timeline_of_going going, List.map_append, map_served_timedCalls, ih, calls_eq]

/-- What every step keeps where the calls that it makes fit holds when the agent in front has ended,
and what every step says of its calls holds of the whole timeline. -/
theorem run_keeps_timeline {Keeps : Scene σ β → Prop} {Fits Good : TimedCall → Prop}
    (step : ∀ s, Keeps s → s.front.result? = none → (∀ c ∈ s.timedCalls engine, Fits c) →
      Keeps (s.next engine) ∧ ∀ c ∈ s.timedCalls engine, Good c)
    (h : Keeps s) (fits : ∀ c ∈ s.timeline engine, Fits c) :
    (∃ last, Keeps last ∧ last.front = .finished (s.run engine).1 ∧
      last.machine = (s.run engine).2) ∧ ∀ c ∈ s.timeline engine, Good c := by
  induction s using Scene.run.induct engine with
  | case1 s result ended =>
    have front : s.front = .finished result := by
      cases front : s.front <;> simp_all [Agent.result?]
    have run : s.run engine = (result, s.machine) := by
      rw [Scene.run]
      split
      · next result' ended' =>
        cases ended.symm.trans ended'
        rfl
      · next going => cases ended.symm.trans going
    rw [timeline_of_finished ended, run]
    exact ⟨⟨s, h, front, rfl⟩, List.forall_mem_nil Good⟩
  | case2 s going ih =>
    rw [timeline_of_going going] at fits ⊢
    obtain ⟨first, later⟩ := List.forall_mem_append.1 fits
    obtain ⟨keeps, good⟩ := step s h going first
    obtain ⟨ends, goods⟩ := ih keeps later
    have run : s.run engine = (s.next engine).run engine := by
      rw [Scene.run]
      split
      · next ended => cases going.symm.trans ended
      · rfl
    rw [run]
    exact ⟨ends, List.forall_mem_append.2 ⟨good, goods⟩⟩

end Scene

namespace Machine

variable {engine : Engine σ} {p : Program β} {m : Machine σ}

/-- The calls that are made for a program that a machine runs in front. -/
def timeline (engine : Engine σ) (p : Program β) (m : Machine σ) : List TimedCall :=
  let (front, m) := advance engine .front p (m.cancel .front)
  Scene.timeline engine ⟨m, front, false, 0⟩

/-- The timeline is the account of the calls. -/
theorem map_served_timeline (engine : Engine σ) (p : Program β) (m : Machine σ) :
    (m.timeline engine p).map TimedCall.served = m.calls engine p :=
  Scene.map_served_timeline engine _

/-- Where handlers behave in one way, calls last as the behaviour says. -/
theorem lasting_of_behaves {b : Behaviour} (behaves : engine.Behaves b) {c : TimedCall}
    (h : c ∈ m.timeline engine p) : c.lasting = ⟨b.duration c.call, b.reply c.call⟩ := by
  have step : ∀ s : Scene σ β, True → s.front.result? = none →
      (∀ c ∈ s.timedCalls engine, True) → True ∧ ∀ c ∈ s.timedCalls engine,
        c.lasting = ⟨b.duration c.call, b.reply c.call⟩ := by
    refine fun s _ _ _ => ⟨trivial, ?_⟩
    intro c hc
    unfold Scene.timedCalls at hc
    split at hc
    · cases hc
    · split at hc
      · cases hc
      · unfold Alarm.timedCalls at hc
        split at hc
        · split at hc
          · next handler found =>
            obtain rfl := List.mem_singleton.1 hc
            obtain ⟨duration, reply⟩ := behaves _ handler found s.machine.supply s.machine.world
            rw [duration, reply]
          · cases hc
        · cases hc
  exact (Scene.run_keeps_timeline step trivial fun _ _ => trivial).2 c h

end Machine

end EventFlow
