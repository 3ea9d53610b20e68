import EventFlow.Proofs.Engine.Solo

/-!
# The agent in front among others

Something may hold of the agent in front, of the alarms that it has set, of the time, and of whether
it has been stirred (`Scene.Holds`). What goes on in the background does not matter to it but for
the time that passes, so a step of the machine keeps it if the agent's own alarms do
(`Scene.Holds.tick`). The scene is that of `EventFlow.Engine.Machine`, with `Scene.tick` for a step.
-/

set_option autoImplicit false

namespace EventFlow.Scene

open Machine (Acts Timely)

variable {σ β : Type} {engine : Engine σ} {s t : Scene σ β}
  {C : Agent β → List Alarm → Nat → Prop → Prop}

/-- No alarm has been missed, and something holds of the agent in front, its alarms, the time, and
whether it has been stirred. -/
structure Holds (C : Agent β → List Alarm → Nat → Prop → Prop) (s : Scene σ β) : Prop where
  timely : s.machine.Timely
  front : C s.front (s.machine.alarmsOf .front) s.machine.time (s.woken = true)

namespace Holds

/-- A program begins in front. -/
theorem start (engine : Engine σ) {p : Program β} {m : Machine σ} (orderly : m.Orderly)
    (front : C (Machine.advance engine .front p (m.cancel .front)).1
      ((Machine.advance engine .front p (m.cancel .front)).2.alarmsOf .front) m.time
      (false = true)) :
    Holds C ⟨(Machine.advance engine .front p (m.cancel .front)).2,
      (Machine.advance engine .front p (m.cancel .front)).1, false, 0⟩ := by
  have acts : Acts engine .front (m.cancel .front)
      (Machine.advance engine .front p (m.cancel .front)).2 := Machine.acts_advance p _
  refine ⟨orderly.timely_cancel.of_front acts, ?_⟩
  rw [acts.spares.time]
  exact front

/-- When the agent in front is due, no alarm has been missed. -/
theorem timely_atTime (h : s.Holds C) (isDue : s.isDue = true) {time : Nat}
    (due : s.front.due = some time) (before : s.machine.time ≤ time) :
    (∀ a ∈ s.machine.alarms, time ≤ a.time) ∧ (s.atTime time).machine.time = time ∧
      (s.atTime time).machine.Timely := by
  have after : ∀ a ∈ s.machine.alarms, time ≤ a.time := by
    intro a ha
    have := due_le_of_isDue isDue h.timely.orderly.ordered ha
    rwa [due] at this
  have now : max s.machine.time time = time := Nat.max_eq_right before
  refine ⟨after, now, h.timely.later (List.Sublist.refl _) ?_⟩
  rw [now]
  exact after

/-- The handler of a call of the agent in front is called: the reply comes at once, or an alarm is
set for it. -/
theorem begin {slot : Nat} {call : Invocation} {handler : Handler σ} {started : Call σ}
    (found : Assoc.find? call.action.actionType engine.handlers = some handler)
    (starts : handler call s.machine.supply s.machine.world = started)
    (timely : s.machine.Timely)
    (atOnce : started.duration = 0 →
      C (s.front.fill slot (started.reply.mapError .handler)) (s.machine.alarmsOf .front)
        s.machine.time (true = true))
    (later : ∀ f : Alarm, f = ⟨s.machine.time + started.duration, .front,
        .finish slot (started.reply.mapError .handler)⟩ →
      C s.front ((s.machine.setAlarm f).alarmsOf .front) s.machine.time (s.woken = true)) :
    (s.begin engine .front slot call).Holds C := by
  simp only [Scene.begin, found, starts]
  have serve : Acts engine .front s.machine
      { s.machine with world := started.world, supply := started.supply } :=
    Machine.acts_serve s.machine started.world started.supply
  have served := timely.of_front serve
  split
  · next now => exact ⟨served, atOnce now⟩
  · let f : Alarm := ⟨s.machine.time + started.duration, .front,
      .finish slot (started.reply.mapError .handler)⟩
    have sets : Acts engine .front
        { s.machine with world := started.world, supply := started.supply } _ :=
      .single (.sets _ (a := f) rfl (Nat.le_add_right _ _))
    exact ⟨served.of_front sets, later f rfl⟩

/-- An alarm of the background goes off. -/
theorem goOff_background {a : Alarm} {i : Nat} (own : a.owner = .background i)
    (there : i < s.machine.agents.length) (h : s.Holds C) : (s.goOff engine a).Holds C := by
  have acts : Acts engine (.background i) s.machine (s.goOff engine a).machine :=
    machine_goOff_background own s ▸ Machine.acts_onMachine_goOff own s.machine
  obtain ⟨front, woken⟩ : (s.goOff engine a).front = s.front ∧ (s.goOff engine a).woken = s.woken :=
    front_goOff_background own s
  refine ⟨h.timely.of_acts acts ?_, ?_⟩
  · intro j same
    cases same
    exact there
  · rw [front, woken, acts.spares.time, acts.spares.alarms .front nofun]
    exact h.front

/-- The next alarm goes off. What holds of the agent in front has to last until then, and has to be
kept by an alarm of its own. -/
theorem tick (h : s.Holds C) (ticks : s.tick engine = some t)
    (later : ∀ a ∈ s.machine.alarms.head?,
      C s.front (s.machine.alarmsOf .front) a.time (s.woken = true))
    (goesOff : ∀ a rest turns, s.machine.alarms = a :: rest → a.owner = .front →
      Timely { s.machine with time := a.time, alarms := rest } →
      (goOff engine a ⟨{ s.machine with time := a.time, alarms := rest }, s.front, s.woken,
        turns⟩).Holds C) : t.Holds C := by
  unfold Scene.tick at ticks
  split at ticks
  · cases ticks
  · next a rest alarms =>
    cases ticks
    obtain ⟨now, timely⟩ := h.timely.ring alarms
    have lasts := later a (by rw [alarms]; rfl)
    simp only [Scene.atTime]
    rw [now] at timely ⊢
    cases own : a.owner with
    | front => exact goesOff a rest _ alarms own timely
    | background i =>
      have here : a ∈ s.machine.alarms := by
        rw [alarms]
        exact List.mem_cons_self
      refine goOff_background own (h.timely.orderly.owned a here i own) ⟨timely, ?_⟩
      have unheard : s.machine.alarmsOf .front =
          Machine.alarmsOf .front { s.machine with time := a.time, alarms := rest } := by
        simp [Machine.alarmsOf, alarms, own]
      rw [unheard] at lasts
      exact lasts

end Holds

/-- The alarms of the agent in front before one of them goes off. -/
theorem mem_alarmsOf_front_iff {a : Alarm} {rest : List Alarm}
    (alarms : s.machine.alarms = a :: rest) (own : a.owner = .front) (time : Nat) (x : Alarm) :
    x ∈ s.machine.alarmsOf .front ↔
      x = a ∨ x ∈ Machine.alarmsOf .front { s.machine with time, alarms := rest } := by
  rw [Machine.mem_alarmsOf, Machine.mem_alarmsOf, alarms, List.mem_cons, or_and_right]
  refine or_congr_left ⟨And.left, ?_⟩
  intro same
  exact ⟨same, same ▸ own⟩

end EventFlow.Scene
