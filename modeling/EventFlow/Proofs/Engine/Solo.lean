import EventFlow.Proofs.Engine.Undisturbed

/-!
# Workflows that run alone

On a machine where no alarm is set for anybody else, the agent in front stays on course
(`Scene.Alone.next`), so a workflow that is started there ends like the execution that is foreseen
for it (`Engine.start_foreseen`). The start is `Engine.start`, in `EventFlow.Engine.Trigger`.
-/

set_option autoImplicit false

namespace EventFlow

variable {σ β : Type}

namespace Machine

variable {engine : Engine σ} {c : Collections} {owner : Owner}

/-- What an owner does sets no alarm in the past. -/
theorem Acts.due {m m' : Machine σ} (acts : Acts engine owner m m')
    (due : ∀ a ∈ m.alarms, m.time ≤ a.time) : ∀ a ∈ m'.alarms, m'.time ≤ a.time := by
  induction acts with
  | refl => exact due
  | tail _ act ih =>
    cases act with
    | sets own now =>
      intro a ha
      rcases Alarm.mem_insert.1 ha with rfl | old
      · exact now
      · exact ih a old
    | cancels => exact fun a ha => ih a (List.mem_filter.1 ha).1
    | draws supply => exact ih
    | works world => exact ih
    | records e => exact ih
    | goesOn own length others => exact ih

/-- The machine is in order, and no alarm has been missed. -/
structure Timely (m : Machine σ) : Prop where
  orderly : m.Orderly
  due : ∀ a ∈ m.alarms, m.time ≤ a.time

namespace Timely

variable {m m' : Machine σ}

theorem of_acts (h : m.Timely) (acts : Acts engine owner m m')
    (there : ∀ i, owner = .background i → i < m.agents.length) : m'.Timely :=
  ⟨acts.orderly h.orderly there, acts.due h.due⟩

theorem of_front (h : m.Timely) (acts : Acts engine .front m m') : m'.Timely := h.of_acts acts nofun

/-- Time passes, and some alarms are gone. -/
theorem later (h : m.Timely) {time : Nat} {alarms : List Alarm} (sub : alarms.Sublist m.alarms)
    (due : ∀ a ∈ alarms, time ≤ a.time) : Timely { m with time, alarms } :=
  ⟨⟨h.orderly.ordered.sublist sub, fun a ha _ => due a ha,
    fun a ha => h.orderly.owned a (sub.subset ha)⟩, due⟩

/-- The first alarm goes off at its time. -/
theorem ring (h : m.Timely) {a : Alarm} {rest : List Alarm} (alarms : m.alarms = a :: rest) :
    max m.time a.time = a.time ∧
      Timely { m with time := max m.time a.time, alarms := rest } := by
  have now : max m.time a.time = a.time :=
    Nat.max_eq_right (h.due a (alarms ▸ List.mem_cons_self))
  refine ⟨now, h.later (alarms ▸ List.sublist_cons_self a rest) ?_⟩
  rw [now]
  exact (List.pairwise_cons.1 (alarms ▸ h.orderly.ordered)).1

end Timely

/-- Without the alarms of the agent in front, no alarm has been missed on a machine that is in
order. -/
theorem Orderly.timely_cancel {m : Machine σ} (orderly : m.Orderly) : (m.cancel .front).Timely := by
  have due : ∀ a ∈ (m.cancel .front).alarms, m.time ≤ a.time := by
    intro a ha
    obtain ⟨set, apart⟩ := List.mem_filter.1 ha
    exact orderly.due a set (of_decide_eq_true apart)
  exact ⟨⟨orderly.ordered.sublist List.filter_sublist, fun a ha _ => due a ha,
    fun a ha => orderly.owned a (List.mem_filter.1 ha).1⟩, due⟩

/-- Nobody is under way in the background, and no definition has been edited. -/
structure Lone (c : Collections) (m : Machine σ) : Prop where
  orderly : m.Orderly
  nobody : ∀ i, m.alarmsOf (.background i) = []
  due : ∀ a ∈ m.alarms, m.time ≤ a.time
  tables : ∀ k, m.store.collections.table k = c.table k

namespace Lone

variable {m m' : Machine σ}

theorem timely (h : m.Lone c) : m.Timely := ⟨h.orderly, h.due⟩

theorem of_acts (h : m.Lone c) (acts : Acts engine .front m m') : m'.Lone c where
  orderly := (h.timely.of_front acts).orderly
  nobody i := (acts.spares.alarms (.background i) nofun).trans (h.nobody i)
  due := (h.timely.of_front acts).due
  tables k := (acts.spares.tables k).trans (h.tables k)

theorem owner_eq (h : m.Lone c) {a : Alarm} (ha : a ∈ m.alarms) : a.owner = .front := by
  by_contra apart
  obtain ⟨i, own⟩ := exists_background apart
  have mine : a ∈ m.alarmsOf (.background i) := mem_alarmsOf.2 ⟨ha, own⟩
  rw [h.nobody i] at mine
  cases mine

/-- Time passes, and some alarms are gone. -/
theorem later (h : m.Lone c) {time : Nat} {alarms : List Alarm} (sub : alarms.Sublist m.alarms)
    (due : ∀ a ∈ alarms, time ≤ a.time) : Lone c { m with time, alarms } where
  orderly := (h.timely.later sub due).orderly
  nobody i := by
    rw [alarmsOf, List.filter_eq_nil_iff]
    intro a ha own
    cases (h.owner_eq (sub.subset ha)).symm.trans (of_decide_eq_true own)
  due := due
  tables := h.tables

end Lone

end Machine

namespace Scene

open Machine (Acts Lone)

variable {engine : Engine σ} {b : Behaviour} {c : Collections} {Q : β → Prop} {s : Scene σ β}

/-- Nobody is under way but the agent in front, which is on course. -/
structure Alone (engine : Engine σ) (b : Behaviour) (c : Collections) (Q : β → Prop)
    (s : Scene σ β) : Prop where
  lone : s.machine.Lone c
  course : s.front.OnCourse b engine.handlers.contains c Q
    (fun time => s.woken = true ∧ s.machine.time ≤ time) (s.machine.alarmsOf .front) s.machine.time

theorem alone_resumeFront {expired : Bool} (lone : s.machine.Lone c)
    (course : s.front.OnCourse b engine.handlers.contains c Q (s.machine.time ≤ ·)
      (s.machine.alarmsOf .front) s.machine.time)
    (late : expired = true → ∀ w next, s.front = .calling w next →
      ∃ time, w.deadline = some time ∧ time ≤ s.machine.time) :
    (s.resumeFront engine expired).Alone engine b c Q := by
  have acts : Acts engine .front s.machine (s.resumeFront engine expired).machine :=
    Machine.acts_resume expired s.front s.machine
  refine ⟨lone.of_acts acts, ?_⟩
  rw [acts.spares.time]
  exact Machine.onCourse_resume course (fun a ha => lone.due a (Machine.mem_alarmsOf.1 ha).1) late
    fun _ _ => lone.tables

namespace Alone

/-- An agent in front that has been stirred does not let the time pass: an alarm goes off now. -/
theorem exists_alarm_of_woken (roundOver : ¬ (s.woken && s.isRoundOver) = true)
    (woken : s.woken = true) :
    ∃ a rest, s.machine.alarms = a :: rest ∧ a.time ≤ s.machine.time := by
  cases alarms : s.machine.alarms with
  | nil => exact absurd (by simp [woken, isRoundOver, isQuiet, alarms]) roundOver
  | cons a rest =>
    refine ⟨a, rest, rfl, Nat.le_of_not_lt fun later => roundOver ?_⟩
    simp [woken, isRoundOver, isQuiet, alarms, later]

/-- As long as the agent in front waits for calls, there is a time at which it does so no longer. -/
theorem exists_deadline (h : s.Alone engine b c Q)
    (roundOver : ¬ (s.woken && s.isRoundOver) = true) (isDue : s.isDue = true) {w : Waiting}
    {next : Option (List Reply) → Program β} (front : s.front = .calling w next) :
    ∃ time, w.deadline = some time := by
  unfold Scene.isDue at isDue
  split at isDue
  · next none_left =>
    -- No call is under way, so all replies have come, and the agent has been stirred.
    have course := h.course
    rw [front] at course
    obtain ⟨calls, answer, foreseen, -⟩ := course
    have complete : none ∉ w.replies := fun missing => by
      obtain ⟨slot, hslot⟩ := List.getElem?_of_mem missing
      have inside : slot < calls.length :=
        foreseen.inTime.length ▸ (List.getElem?_eq_some_iff.1 hslot).1
      obtain ⟨-, a, ha, -⟩ :=
        foreseen.inTime.toCome slot _ (List.getElem?_eq_getElem inside) hslot
      rw [Machine.mem_alarmsOf, none_left] at ha
      cases ha.1
    obtain ⟨-, -, woken, -⟩ := foreseen.stirred complete
    obtain ⟨a, rest, alarms, -⟩ := exists_alarm_of_woken roundOver woken
    cases none_left.symm.trans alarms
  · next a rest alarms =>
    rw [front] at isDue
    obtain ⟨time, deadline, -⟩ := (Option.any_eq_true _ _).1 isDue
    exact ⟨time, deadline⟩

/-- The time of the agent in front is up. -/
theorem expire (h : s.Alone engine b c Q) (roundOver : ¬ (s.woken && s.isRoundOver) = true)
    (isDue : s.isDue = true) : (s.expire engine).Alone engine b c Q := by
  have lone : (s.atTime (s.front.due.getD 0)).machine.Lone c :=
    h.lone.later (List.Sublist.refl _) fun x hx =>
      Nat.max_le.2 ⟨h.lone.due x hx, due_le_of_isDue isDue h.lone.orderly.ordered hx⟩
  -- If it has been stirred, no time passes.
  have stirring : ∀ time, s.woken = true ∧ s.machine.time ≤ time →
      max s.machine.time (s.front.due.getD 0) ≤ time := by
    rintro time ⟨woken, le⟩
    obtain ⟨a, rest, alarms, now⟩ := exists_alarm_of_woken roundOver woken
    have due := due_le_of_isDue isDue h.lone.orderly.ordered (alarms ▸ List.mem_cons_self)
    exact Nat.max_le.2 ⟨le, Nat.le_trans due (Nat.le_trans now le)⟩
  have early : ∀ w next, s.front = .calling w next → ∀ time, w.deadline = some time →
      max s.machine.time (s.front.due.getD 0) ≤ time := by
    intro w next front time deadline
    have course := h.course
    rw [front] at course
    obtain ⟨calls, answer, foreseen, -⟩ := course
    rw [front, Agent.due, deadline]
    exact Nat.max_le.2 ⟨foreseen.early time deadline, Nat.le_refl time⟩
  refine alone_resumeFront lone ((h.course.later (Nat.le_max_left _ _) early).sets
    (.nothing (fun a ha _ => ha) fun a ha => ha) stirring) fun _ w next front => ?_
  have front : s.front = .calling w next := front
  obtain ⟨time, deadline⟩ := h.exists_deadline roundOver isDue front
  refine ⟨time, deadline, Nat.le_trans ?_ (Nat.le_max_right _ _)⟩
  rw [front, Agent.due, deadline]
  exact Nat.le_refl time

/-- The agent in front gets a reply at its time. -/
theorem deliver {w : Waiting} {next : Option (List Reply) → Program β} {alarms : List Alarm}
    {calls : List Made} {answer : Option (List Reply)} {stirs : Nat → Prop}
    (lone : s.machine.Lone c) (front : s.front = .calling w next)
    (foreseen : w.Foreseen b engine.handlers.contains stirs alarms s.machine.time calls answer)
    (comes : (next answer).Comes b engine.handlers.contains Q) {slot : Nat} {d : Made}
    (here : calls[slot]? = some d) (ending : d.ending b = s.machine.time)
    (new : ∀ a ∈ s.machine.alarmsOf .front, a ∈ alarms)
    (kept : ∀ a ∈ alarms, a.Concerns slot ∨ a ∈ s.machine.alarmsOf .front) :
    (s.deliver .front slot (b.replyTo engine.handlers.contains d.call)).Alone engine b c Q := by
  refine ⟨lone, ?_⟩
  have filled : (s.deliver .front slot (b.replyTo engine.handlers.contains d.call)).front =
      .calling (w.fill slot (b.replyTo engine.handlers.contains d.call)) next := by
    simp only [Scene.deliver, Scene.wake, front, Agent.fill]
  rw [filled]
  exact ⟨calls, answer, foreseen.fill here ending (fun x hx => .inr (new x hx))
    (fun x hx _ => kept x hx) ⟨rfl, Nat.le_refl _⟩, comes⟩

/-- The handler of a call is called at its time. -/
theorem begin (behaves : engine.Behaves b) {w : Waiting}
    {next : Option (List Reply) → Program β} {alarms : List Alarm} {calls : List Made}
    {answer : Option (List Reply)} (lone : s.machine.Lone c) (front : s.front = .calling w next)
    (foreseen : w.Foreseen b engine.handlers.contains
      (fun time => s.woken = true ∧ s.machine.time ≤ time) alarms s.machine.time calls answer)
    (comes : (next answer).Comes b engine.handlers.contains Q) {slot : Nat} {d : Made}
    (here : calls[slot]? = some d)
    (handled : engine.handlers.contains d.call.action.actionType = true)
    (time : d.time = s.machine.time)
    (new : ∀ a ∈ s.machine.alarmsOf .front, a ∈ alarms)
    (kept : ∀ a ∈ alarms, a.Concerns slot ∨ a ∈ s.machine.alarmsOf .front) :
    (s.begin engine .front slot d.call).Alone engine b c Q := by
  obtain ⟨handler, found, duration, reply⟩ :=
    Behaviour.replyTo_of_behaves behaves handled s.machine.supply s.machine.world
  simp only [Scene.begin, found, duration, reply]
  generalize (handler d.call s.machine.supply s.machine.world).world = world
  generalize (handler d.call s.machine.supply s.machine.world).supply = supply
  have serve : Acts engine .front s.machine { s.machine with world, supply } :=
    Machine.acts_serve s.machine world supply
  have served := lone.of_acts serve
  split
  · next atOnce =>
    refine deliver (s := { s with machine := { s.machine with world, supply } }) served front
      foreseen comes here ?_ new kept
    rw [Made.ending, atOnce, time, Nat.add_zero]
  · let f : Alarm := ⟨s.machine.time + b.duration d.call, .front,
      .finish slot (b.replyTo engine.handlers.contains d.call)⟩
    have set : f ∈ (s.machine.setAlarm f).alarmsOf .front :=
      Machine.mem_alarmsOf_setAlarm.2 (.inl ⟨rfl, rfl⟩)
    have old {a : Alarm} (ha : a ∈ s.machine.alarmsOf .front) :
        a ∈ (s.machine.setAlarm f).alarmsOf .front := Machine.mem_alarmsOf_setAlarm.2 (.inr ha)
    have sets : Acts engine .front { s.machine with world, supply } _ :=
      .single (.sets _ (a := f) rfl (Nat.le_add_right _ _))
    refine ⟨served.of_acts sets, ?_⟩
    dsimp only
    rw [front]
    refine ⟨calls, answer, foreseen.run here handled (f := f) rfl ?_ (fun a ha => ?_) set
      (fun a ha _ => (kept a ha).imp_right old) (fun _ stir => stir), comes⟩
    · rw [Made.ending, time]
    · exact (Machine.mem_alarmsOf_setAlarm.1 ha).imp (·.1) (new a)

/-- The agent in front stays on course when one of its alarms goes off. -/
theorem goOff {a : Alarm} {alarms : List Alarm} (behaves : engine.Behaves b)
    (going : s.front.result? = none) (lone : s.machine.Lone c) (own : a.owner = .front)
    (set : ∀ x, x ∈ alarms ↔ x = a ∨ x ∈ s.machine.alarmsOf .front) (due : s.machine.time = a.time)
    (course : s.front.OnCourse b engine.handlers.contains c Q
      (fun time => s.woken = true ∧ s.machine.time ≤ time) alarms s.machine.time) :
    (s.goOff engine a).Alone engine b c Q := by
  have new : ∀ x ∈ s.machine.alarmsOf .front, x ∈ alarms := fun x hx => (set x).2 (.inr hx)
  have kept {slot : Nat} (concerns : a.Concerns slot) : ∀ x ∈ alarms,
      x.Concerns slot ∨ x ∈ s.machine.alarmsOf .front := fun x hx =>
    ((set x).1 hx).imp_left fun (same : x = a) => same ▸ concerns
  by_cases wake : a.signal = .wake
  · have same : s.goOff engine a = s := by
      simp only [Scene.goOff, wake, own]
    rw [same]
    refine ⟨lone, course.sets (.nothing (fun x hx notWake => ((set x).1 hx).resolve_left ?_) new)
      fun _ stir => stir⟩
    rintro rfl
    exact notWake wake
  · rcases course.calling_or_finished ((set a).2 (.inl rfl)) wake with
      ⟨w, next, front⟩ | ⟨result, front⟩
    · rw [front] at course
      obtain ⟨calls, answer, foreseen, comes⟩ := course
      have fits := foreseen.inTime.fits a ((set a).2 (.inl rfl))
      obtain ⟨time, owner, signal⟩ := a
      cases own
      cases signal with
      | wake => exact absurd rfl wake
      | start slot call =>
        obtain ⟨d, hd, handled, rfl, time⟩ := fits
        exact begin behaves lone front foreseen comes hd handled (time.symm.trans due.symm) new
          (kept (.inl ⟨_, rfl⟩))
      | finish slot reply =>
        obtain ⟨d, hd, handled, rfl, time⟩ := fits
        exact deliver lone front foreseen comes hd (time.symm.trans due.symm) new
          (kept (.inr ⟨_, rfl⟩))
    · rw [front] at going
      cases going

theorem tick {t : Scene σ β} (behaves : engine.Behaves b) (h : s.Alone engine b c Q)
    (going : s.front.result? = none) (roundOver : ¬ (s.woken && s.isRoundOver) = true)
    (notDue : ¬ s.isDue = true) (ticks : s.tick engine = some t) : t.Alone engine b c Q := by
  unfold Scene.tick at ticks
  split at ticks
  · cases ticks
  · next a rest alarms =>
    cases ticks
    have here : a ∈ s.machine.alarms := by
      rw [alarms]
      exact List.mem_cons_self
    have own := h.lone.owner_eq here
    obtain ⟨now, rung⟩ := h.lone.timely.ring alarms
    have lone : Lone c { s.machine with time := max s.machine.time a.time, alarms := rest } :=
      h.lone.later (alarms ▸ List.sublist_cons_self a rest) rung.due
    have early : ∀ w next, s.front = .calling w next → ∀ time, w.deadline = some time →
        a.time ≤ time := by
      intro w next front time deadline
      refine Nat.le_of_not_le fun le => notDue ?_
      simp [Scene.isDue, alarms, front, Agent.due, deadline, le]
    have stirring : ∀ time, s.woken = true ∧ s.machine.time ≤ time →
        s.woken = true ∧ a.time ≤ time := by
      rintro time ⟨woken, le⟩
      obtain ⟨first, others, alarms', now⟩ := exists_alarm_of_woken roundOver woken
      cases alarms.symm.trans alarms'
      exact ⟨woken, Nat.le_trans now le⟩
    have set : ∀ x, x ∈ s.machine.alarmsOf .front ↔ x = a ∨ x ∈ Machine.alarmsOf .front
        { s.machine with time := max s.machine.time a.time, alarms := rest } := by
      intro x
      rw [Machine.mem_alarmsOf, Machine.mem_alarmsOf, alarms, List.mem_cons, or_and_right]
      exact or_congr_left ⟨(·.1), fun same => ⟨same, same ▸ own⟩⟩
    have course := (h.course.later (h.lone.due a here) early).sets
      (.nothing (fun x hx _ => hx) fun x hx => hx) stirring
    rw [← now] at course
    exact goOff behaves going lone own set now course

/-- Whatever the machine does next, the agent in front stays on course. -/
theorem next (behaves : engine.Behaves b) (h : s.Alone engine b c Q)
    (going : s.front.result? = none) : (s.next engine).Alone engine b c Q := by
  unfold Scene.next
  split
  · refine alone_resumeFront h.lone ?_ nofun
    exact h.course.sets (.nothing (fun a ha _ => ha) fun a ha => ha) fun _ stir => stir.2
  · next roundOver =>
    split
    · next isDue => exact h.expire roundOver isDue
    · next notDue =>
      cases ticks : s.tick engine with
      | none => exact h
      | some t => exact h.tick behaves going roundOver notDue ticks

/-- An agent that is alone with its machine comes to its result. -/
theorem run (behaves : engine.Behaves b) (h : s.Alone engine b c Q) : Q (s.run engine).1 := by
  obtain ⟨last, alone, front, -⟩ := run_keeps (fun _ alone => alone.next behaves) h
  have course := alone.course
  rw [front] at course
  exact course

end Alone

end Scene

/-- A program that looks into the store first, and runs in front of a machine where no alarm is set,
comes to its result. -/
theorem Machine.comes_of_await {engine : Engine σ} {b : Behaviour} (behaves : engine.Behaves b)
    {Q : β → Prop} {next : Collections → Program β} {m : Machine σ} (idle : m.alarms = [])
    (comes : (next m.store.collections).Comes b engine.handlers.contains Q) :
    Q (m.await engine (.collections next)).1 := by
  have none_left : (m.cancel .front).alarms = [] := by rw [cancel, idle, List.filter_nil]
  have lone : (m.cancel .front).Lone m.store.collections := by
    refine ⟨⟨?_, ?_, ?_⟩, fun i => ?_, ?_, fun _ => rfl⟩
    · rw [none_left]
      exact .nil
    · rw [none_left]
      exact List.forall_mem_nil _
    · rw [none_left]
      exact List.forall_mem_nil _
    · rw [alarmsOf, none_left, List.filter_nil]
    · rw [none_left]
      exact List.forall_mem_nil _
  have acts : Acts engine .front (m.cancel .front)
      (advance engine .front (next m.store.collections) (m.cancel .front)).2 := acts_advance _ _
  have alone : Scene.Alone engine b m.store.collections Q
      ⟨(advance engine .front (next m.store.collections) (m.cancel .front)).2,
        (advance engine .front (next m.store.collections) (m.cancel .front)).1, false, 0⟩ := by
    refine ⟨lone.of_acts acts, ?_⟩
    rw [acts.spares.time]
    exact onCourse_advance comes _ fun a ha => by
      rw [mem_alarmsOf, none_left] at ha
      cases ha.1
  exact alone.run behaves

/-- A workflow that is started where nobody else is under way ends like the execution that is
foreseen. -/
theorem Engine.start_foreseen {engine : Engine σ} {b : Behaviour} (behaves : engine.Behaves b)
    (w : Workflow) (data : Json) {c : Collections} {m : Machine σ} (idle : m.alarms = [])
    (tables : ∀ k, m.store.collections.table k = c.table k) {e : Execution}
    (alike : (engine.prepare w data m.supply).1.Alike e)
    (untied : (engine.drive w e).Untied b engine.handlers.contains c) :
    Execution.EndAlike (engine.prepare w data m.supply).1.id e.id (engine.start w data m).1
      ((engine.drive w e).foreseen b engine.handlers.contains c) :=
  Machine.comes_of_await (m := { m with supply := (engine.prepare w data m.supply).2 }) behaves idle
    (engine.comes_driven w tables alike rfl untied)

end EventFlow
