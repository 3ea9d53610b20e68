import EventFlow.Proofs.Engine.Foreground

/-!
# Calls that are answered in time

Where every call that a program makes at once with others ends in time, however long it takes and
whatever goes on in the background, the program is answered with all replies, in the order in which
it has asked (`Program.Prompt`, `Machine.prompt_of_await`). While it waits, the alarm of each call
that is to be answered goes off before the time is up (`Waiting.Prompt`), so the time is never up.
Programs ask by `Program.invoke` (`EventFlow.Engine.Program`) and are answered by `Waiting.poll`
(`EventFlow.Engine.Waiting`).
-/

set_option autoImplicit false

namespace EventFlow

variable {σ α β : Type}

/-- `engine.Within b call`: whatever the supply and the world are, a handler that is called so ends
as a behaviour says, and takes no longer than it says. -/
def Engine.Within (engine : Engine σ) (b : Behaviour) (call : Invocation) : Prop :=
  ∀ handler, Assoc.find? call.action.actionType engine.handlers = some handler →
    ∀ supply world, (handler call supply world).reply = b.reply call ∧
      (handler call supply world).duration ≤ b.duration call

theorem Engine.Behaves.within {engine : Engine σ} {b : Behaviour} (behaves : engine.Behaves b)
    (call : Invocation) : engine.Within b call := fun handler found supply world =>
  have ⟨duration, reply⟩ := behaves call handler found supply world
  ⟨reply, Nat.le_of_eq duration⟩

/-- The call ends when less than so many milliseconds have passed. -/
def Engine.InTime (engine : Engine σ) (b : Behaviour) (left : Option Nat) (call : Invocation) :
    Prop :=
  engine.Within b call ∧ b.isLate engine.handlers.contains left call = false

theorem Engine.InTime.duration_lt {engine : Engine σ} {b : Behaviour} {ms : Nat} {call : Invocation}
    (h : engine.InTime b (some ms) call)
    (handled : engine.handlers.contains call.action.actionType = true) : b.duration call < ms :=
  Nat.lt_of_not_le fun le =>
    Bool.eq_false_iff.1 h.2 ((Behaviour.isLate_iff handled).2 ⟨ms, rfl, le⟩)

/-- The program makes all its calls at once and each in time. Whatever the clock tells and the
collections are, it comes to a result with a property if all of them are replied to. -/
def Program.Prompt (engine : Engine σ) (b : Behaviour) (Q : α → Prop) : Program α → Prop
  | .done a => Q a
  | .clock next => ∀ time, (next time).Prompt engine b Q
  | .collections next => ∀ c, (next c).Prompt engine b Q
  | .record _ next => next.Prompt engine b Q
  | .sleep _ next => next.Prompt engine b Q
  | .call limit order calls next =>
    order = .together ∧ (∀ call ∈ calls, engine.InTime b limit call) ∧
    (next (some (calls.map (b.replyTo engine.handlers.contains)))).Prompt engine b Q

theorem Program.Prompt.bind {engine : Engine σ} {b : Behaviour} {P : α → Prop} {Q : β → Prop}
    {p : Program α} {f : α → Program β} (hp : p.Prompt engine b P)
    (hf : ∀ a, P a → (f a).Prompt engine b Q) : (p >>= f).Prompt engine b Q := by
  change (p.bind f).Prompt engine b Q
  induction p with
  | done a => exact hf a hp
  | clock next ih => exact fun time => ih time (hp time)
  | collections next ih => exact fun c => ih c (hp c)
  | record e next ih => exact ih hp
  | sleep ms next ih => exact ih hp
  | call limit order calls next ih => exact ⟨hp.1, hp.2.1, ih _ hp.2.2⟩

theorem Program.Prompt.imp {engine : Engine σ} {b : Behaviour} {P Q : α → Prop} {p : Program α}
    (hp : p.Prompt engine b P) (h : ∀ a, P a → Q a) : p.Prompt engine b Q := by
  induction p with
  | done a => exact h a hp
  | clock next ih => exact fun time => ih time (hp time)
  | collections next ih => exact fun c => ih c (hp c)
  | record e next ih => exact ih hp
  | sleep ms next ih => exact ih hp
  | call limit order calls next ih => exact ⟨hp.1, hp.2.1, ih _ hp.2.2⟩

/-! ## Waiting -/

/-- The alarm starts a call that will end before a deadline, or ends one before it, with the reply
that is expected for its slot. -/
def Alarm.Timely (engine : Engine σ) (b : Behaviour) (deadline : Option Nat) (replies : List Reply)
    (a : Alarm) : Prop :=
  match a.signal with
  | .wake => False
  | .start slot call => engine.handlers.contains call.action.actionType = true ∧
    engine.InTime b (deadline.map (· - a.time)) call ∧
    replies[slot]? = some (b.replyTo engine.handlers.contains call)
  | .finish slot reply => (∀ time, deadline = some time → a.time < time) ∧
    replies[slot]? = some reply

/-- An alarm that concerns a call goes off before the deadline. -/
theorem Alarm.Timely.lt_deadline {engine : Engine σ} {b : Behaviour} {time : Nat}
    {replies : List Reply} {a : Alarm} (h : a.Timely engine b (some time) replies) {slot : Nat}
    (concerns : a.Concerns slot) : a.time < time := by
  unfold Alarm.Timely at h
  rcases concerns with ⟨call, signal⟩ | ⟨reply, signal⟩
  · rw [signal] at h
    obtain ⟨handled, inTime, -⟩ := h
    have lasts : b.duration call < time - a.time := inTime.duration_lt handled
    omega
  · rw [signal] at h
    exact h.1 time rfl

namespace Waiting

/-- An agent waits for calls that have all been made, and is going to get these replies before its
time is up. -/
structure Prompt (engine : Engine σ) (b : Behaviour) (alarms : List Alarm) (now : Nat)
    (stirred : Prop) (expected : List Reply) (w : Waiting) : Prop where
  last : w.rest = []
  length : w.replies.length = expected.length
  come : ∀ (slot : Nat) (reply : Reply), w.replies[slot]? = some (some reply) →
    expected[slot]? = some reply
  toCome : ∀ slot : Nat, w.replies[slot]? = some none → ∃ a ∈ alarms, a.Concerns slot
  timely : ∀ a ∈ alarms, a.Timely engine b w.deadline expected
  early : ∀ time, w.deadline = some time → now < time
  stirred : none ∉ w.replies → stirred

namespace Prompt

variable {engine : Engine σ} {b : Behaviour} {alarms alarms' : List Alarm} {now now' : Nat}
  {stirred stirred' : Prop} {expected : List Reply} {w : Waiting}

theorem later (h : w.Prompt engine b alarms now stirred expected)
    (early : ∀ time, w.deadline = some time → now' < time) :
    w.Prompt engine b alarms now' stirred expected :=
  { h with early }

/-- When all replies have come, they are those expected. -/
theorem settled (h : w.Prompt engine b alarms now stirred expected) {replies : List Reply}
    (all : all? w.replies = some replies) : replies = expected := by
  have come := all?_eq_some_iff.1 all
  have length : replies.length = expected.length := by
    rw [← h.length, come, List.length_map]
  refine List.ext_getElem length fun slot here there => ?_
  have expects := h.come slot replies[slot] (by simp [come, here])
  rw [List.getElem?_eq_getElem there] at expects
  exact (Option.some.inj expects).symm

/-- As long as a reply is to come, an alarm is set that goes off before the time is up. -/
theorem exists_alarm (h : w.Prompt engine b alarms now stirred expected)
    (missing : none ∈ w.replies) :
    ∃ a ∈ alarms, ∀ time, w.deadline = some time → a.time < time := by
  obtain ⟨slot, hslot⟩ := List.getElem?_of_mem missing
  obtain ⟨a, ha, concerns⟩ := h.toCome slot hslot
  refine ⟨a, ha, fun time deadline => ?_⟩
  have timely := h.timely a ha
  rw [deadline] at timely
  exact timely.lt_deadline concerns

/-- A reply comes, and its alarm is gone. -/
theorem fill (h : w.Prompt engine b alarms now stirred expected) {slot : Nat} {reply : Reply}
    (expects : expected[slot]? = some reply) (new : ∀ a ∈ alarms', a ∈ alarms)
    (kept : ∀ a ∈ alarms, a.Concerns slot ∨ a ∈ alarms') (stir : stirred') :
    (w.fill slot reply).Prompt engine b alarms' now stirred' expected where
  last := h.last
  length := List.length_set.trans h.length
  come j other hother := by
    rcases came_of_set hother with ⟨rfl, rfl⟩ | before
    · exact expects
    · exact h.come j other before
  toCome j hnone := by
    obtain ⟨apart, before⟩ := missing_of_set hnone
    obtain ⟨a, ha, concerns⟩ := h.toCome j before
    exact ⟨a, (kept a ha).resolve_left fun here => apart (here.eq concerns), concerns⟩
  timely a ha := h.timely a (new a ha)
  early := h.early
  stirred _ := stir

/-- A handler is called, and an alarm is set for the end of its call. -/
theorem run (h : w.Prompt engine b alarms now stirred expected) {slot : Nat} {f : Alarm}
    (timely : f.Timely engine b w.deadline expected) (concerns : f.Concerns slot)
    (set : f ∈ alarms') (new : ∀ a ∈ alarms', a = f ∨ a ∈ alarms)
    (kept : ∀ a ∈ alarms, a.Concerns slot ∨ a ∈ alarms') :
    w.Prompt engine b alarms' now stirred expected where
  last := h.last
  length := h.length
  come := h.come
  toCome j hnone := by
    obtain ⟨a, ha, here⟩ := h.toCome j hnone
    exact here.exists_of_kept ha concerns set kept
  timely a ha := by
    rcases new a ha with rfl | old
    · exact timely
    · exact h.timely a old
  early := h.early
  stirred := h.stirred

end Prompt

/-- Calls that are made together now, and in time, are going to be replied to. -/
theorem prompt_start {engine : Engine σ} {b : Behaviour} {alarms : List Alarm} {now : Nat}
    {stirred : Prop} {limit : Option Nat} {calls : List Invocation}
    (inTime : ∀ call ∈ calls, engine.InTime b limit call)
    (missing : none ∈ refusals engine.handlers.contains calls)
    (set : ∀ a, a ∈ alarms ↔ ∃ slot call, calls[slot]? = some call ∧
      engine.handlers.contains call.action.actionType = true ∧
        a = ⟨now, .front, .start slot call⟩) :
    (Waiting.mk (limit.map (now + ·)) (refusals engine.handlers.contains calls) []).Prompt engine b
      alarms now stirred (calls.map (b.replyTo engine.handlers.contains)) where
  last := rfl
  length := by simp [refusals]
  come slot reply hreply := by
    rw [refusals, List.getElem?_map] at hreply
    obtain ⟨call, here, refused⟩ := Option.map_eq_some_iff.1 hreply
    split at refused
    · cases refused
    · next unhandled =>
      cases refused
      rw [List.getElem?_map, here, Option.map_some,
        Behaviour.replyTo_of_unknown (Bool.eq_false_iff.2 unhandled)]
  toCome slot hnone := by
    rw [refusals, List.getElem?_map] at hnone
    obtain ⟨call, here, made⟩ := Option.map_eq_some_iff.1 hnone
    split at made
    · next handled => exact ⟨_, (set _).2 ⟨slot, call, here, handled, rfl⟩, .inl ⟨call, rfl⟩⟩
    · cases made
  timely a ha := by
    obtain ⟨slot, call, here, handled, rfl⟩ := (set a).1 ha
    refine ⟨handled, ?_, by rw [List.getElem?_map, here, Option.map_some]⟩
    have left : (limit.map (now + ·)).map (· - now) = limit := by cases limit <;> simp
    dsimp only
    rw [left]
    exact inTime call (List.mem_of_getElem? here)
  early time deadline := by
    obtain ⟨ms, rfl, rfl⟩ := Option.map_eq_some_iff.1 deadline
    obtain ⟨call, hcall, handled⟩ := none_mem_refusals.1 missing
    have := (inTime call hcall).duration_lt handled
    omega
  stirred complete := absurd missing complete

end Waiting

/-! ## Under way -/

/-- The agent in front goes on with a program that makes its calls in time, or waits for such calls,
in front of these alarms of its own. -/
def Agent.Prompt (engine : Engine σ) (b : Behaviour) (Q : α → Prop) (alarms : List Alarm)
    (now : Nat) (stirred : Prop) : Agent α → Prop
  | .ready p => alarms = [] ∧ p.Prompt engine b Q
  | .asleep _ p => alarms = [] ∧ p.Prompt engine b Q
  | .calling w next => ∃ expected, w.Prompt engine b alarms now stirred expected ∧
    (next (some expected)).Prompt engine b Q
  | .finished result => Q result

theorem Agent.Prompt.later {engine : Engine σ} {b : Behaviour} {Q : α → Prop} {alarms : List Alarm}
    {now now' : Nat} {stirred : Prop} {agent : Agent α}
    (h : agent.Prompt engine b Q alarms now stirred)
    (early : ∀ w next, agent = .calling w next → ∀ time, w.deadline = some time → now' < time) :
    agent.Prompt engine b Q alarms now' stirred := by
  cases agent with
  | ready p => exact h
  | asleep wakeTime p => exact h
  | calling w next =>
    obtain ⟨expected, waits, goesOn⟩ := h
    exact ⟨expected, waits.later (early w next rfl), goesOn⟩
  | finished result => exact h

namespace Machine

variable {engine : Engine σ} {b : Behaviour} {Q : α → Prop} {stirred : Prop}

/-- A program that makes its calls in time goes on. -/
theorem prompt_advance {p : Program α} (prompt : p.Prompt engine b Q) (m : Machine σ)
    (none_left : m.alarmsOf .front = []) :
    (advance engine .front p m).1.Prompt engine b Q ((advance engine .front p m).2.alarmsOf .front)
      m.time stirred := by
  induction p generalizing m with
  | done result => exact prompt
  | clock next ih => exact ih _ (prompt _) { m with supply := m.supply.now.2 } none_left
  | collections next ih => exact ih _ (prompt _) m none_left
  | record e next ih => exact ih prompt (m.change engine.disk (·.record e)).2 none_left
  | sleep ms next ih =>
    rw [advance]
    split
    · exact ih prompt m none_left
    · exact ⟨none_left, prompt⟩
  | call limit order calls next ih =>
    obtain ⟨rfl, inTime, goesOn⟩ := prompt
    rw [advance]
    simp only [Waiting.start, ← Waiting.refusals.eq_1]
    cases all : Waiting.all? (Waiting.refusals engine.handlers.contains calls) with
    | some replies =>
      obtain ⟨-, rfl⟩ := Waiting.of_all?_refusals (b := b) all
      exact ih _ goesOn m none_left
    | none =>
      have missing := Waiting.all?_eq_none_iff.1 all
      generalize makes : ((calls.zipIdx.filter fun c =>
        engine.handlers.contains c.1.action.actionType).map fun c => (c.2, c.1)) = made
      have set (a : Alarm) : a ∈ (m.makeCalls .front made).alarmsOf .front ↔
          ∃ slot call, calls[slot]? = some call ∧
            engine.handlers.contains call.action.actionType = true ∧
              a = ⟨m.time, .front, .start slot call⟩ := by
        rw [mem_alarmsOf_makeCalls_iff, none_left, ← makes]
        simp only [Waiting.mem_made, List.not_mem_nil, or_false, and_assoc]
      have waits : Waiting.Prompt engine b ((m.makeCalls .front made).alarmsOf .front) m.time
          stirred _ _ := Waiting.prompt_start inTime missing set
      dsimp only
      split
      · -- A call that has no time at all is late.
        obtain ⟨call, hcall, handled⟩ := Waiting.none_mem_refusals.1 missing
        exact absurd ((inTime call hcall).duration_lt handled) (Nat.not_lt_zero _)
      · exact ⟨_, waits, goesOn⟩
      · exact ⟨_, waits, goesOn⟩

/-- An agent that looks after what it waits for goes on with all replies, or goes on waiting. Nobody
tells it that nothing more will come. -/
theorem prompt_resume {agent : Agent α} {m : Machine σ} {expired : Bool}
    (prompt : agent.Prompt engine b Q (m.alarmsOf .front) m.time stirred)
    (inTime : expired = true → ∀ w next, agent ≠ .calling w next) {stirred' : Prop} :
    (resume engine .front expired agent m).1.Prompt engine b Q
      ((resume engine .front expired agent m).2.alarmsOf .front) m.time stirred' := by
  cases agent with
  | ready p => exact prompt_advance prompt.2 m prompt.1
  | asleep wakeTime p =>
    rw [resume]
    split
    · exact prompt_advance prompt.2 m prompt.1
    · exact prompt
  | calling w next =>
    obtain ⟨expected, waits, goesOn⟩ := prompt
    have going : expired = false := Bool.eq_false_iff.2 fun told => inTime told w next rfl
    have early : ¬ (expired || w.deadline.any fun time => decide (time ≤ m.time)) = true := by
      rw [going, Bool.false_or, Option.any_eq_true]
      rintro ⟨time, deadline, late⟩
      exact Nat.not_lt.2 (of_decide_eq_true late) (waits.early time deadline)
    rw [resume]
    cases all : Waiting.all? w.replies with
    | some replies =>
      obtain ⟨deadline, came, rest⟩ := w
      obtain rfl : rest = [] := waits.last
      obtain rfl := waits.settled all
      rw [Waiting.poll_of_last all]
      exact prompt_advance goesOn (m.cancel .front) (alarmsOf_cancel .front m)
    | none =>
      have missing := Waiting.all?_eq_none_iff.1 all
      rw [Waiting.poll_of_none all]
      dsimp only
      rw [if_neg early]
      exact ⟨expected, { waits with stirred := fun complete => absurd missing complete }, goesOn⟩
  | finished result => exact prompt

end Machine

namespace Scene

open Machine (Acts Timely)

variable {engine : Engine σ} {b : Behaviour} {Q : β → Prop} {s : Scene σ β}

/-- No alarm has been missed, and the agent in front goes on with a program that makes its calls in
time, or waits for such calls. -/
structure Prompt (engine : Engine σ) (b : Behaviour) (Q : β → Prop) (s : Scene σ β) : Prop where
  timely : s.machine.Timely
  front : s.front.Prompt engine b Q (s.machine.alarmsOf .front) s.machine.time (s.woken = true)

/-- The agent in front is such an agent among others. -/
theorem prompt_iff_holds : s.Prompt engine b Q ↔ s.Holds fun agent alarms now stirred =>
    agent.Prompt engine b Q alarms now stirred :=
  ⟨fun h => ⟨h.timely, h.front⟩, fun h => ⟨h.timely, h.front⟩⟩

namespace Prompt

/-- An agent in front that waits for calls is not told that nothing more will come. -/
theorem not_calling (h : s.Prompt engine b Q) (roundOver : ¬ (s.woken && s.isRoundOver) = true)
    (isDue : s.isDue = true) (w : Waiting) (next : Option (List Reply) → Program β) :
    s.front ≠ .calling w next := by
  intro front
  have prompt := h.front
  rw [front] at prompt
  obtain ⟨expected, waits, -⟩ := prompt
  -- Some alarm goes off before the time is up.
  have first : ∃ a ∈ s.machine.alarms, ∀ time, w.deadline = some time → a.time < time := by
    by_cases missing : none ∈ w.replies
    · obtain ⟨a, ha, before⟩ := waits.exists_alarm missing
      exact ⟨a, (Machine.mem_alarmsOf.1 ha).1, before⟩
    · obtain ⟨a, rest, alarms, now⟩ :=
        Alone.exists_alarm_of_woken roundOver (waits.stirred missing)
      exact ⟨a, alarms ▸ List.mem_cons_self, fun time deadline =>
        Nat.lt_of_le_of_lt now (waits.early time deadline)⟩
  obtain ⟨a, ha, before⟩ := first
  have after := due_le_of_isDue isDue h.timely.orderly.ordered ha
  unfold Scene.isDue at isDue
  split at isDue
  · next none_left =>
    rw [none_left] at ha
    cases ha
  · obtain ⟨time, deadline, -⟩ := (Option.any_eq_true _ _).1 isDue
    rw [deadline] at after
    rw [front] at deadline
    exact absurd after (Nat.not_le.2 (before time deadline))

theorem resumeFront {expired : Bool} (h : s.Prompt engine b Q)
    (inTime : expired = true → ∀ w next, s.front ≠ .calling w next) :
    (s.resumeFront engine expired).Prompt engine b Q := by
  have acts : Acts engine .front s.machine (s.resumeFront engine expired).machine :=
    Machine.acts_resume expired s.front s.machine
  refine ⟨h.timely.of_front acts, ?_⟩
  rw [acts.spares.time]
  exact Machine.prompt_resume h.front inTime

theorem expire (h : s.Prompt engine b Q) (roundOver : ¬ (s.woken && s.isRoundOver) = true)
    (isDue : s.isDue = true) : (s.expire engine).Prompt engine b Q := by
  have after : ∀ a ∈ s.machine.alarms, max s.machine.time (s.front.due.getD 0) ≤ a.time :=
    fun a ha => Nat.max_le.2
      ⟨h.timely.due a ha, due_le_of_isDue isDue h.timely.orderly.ordered ha⟩
  have notCalling := h.not_calling roundOver isDue
  have waits : (s.atTime (s.front.due.getD 0)).Prompt engine b Q :=
    ⟨h.timely.later (List.Sublist.refl _) after,
      h.front.later fun w next front => absurd front (notCalling w next)⟩
  exact waits.resumeFront fun _ => notCalling

/-- The agent in front gets a reply. -/
theorem deliver {w : Waiting} {next : Option (List Reply) → Program β} {alarms : List Alarm}
    {expected : List Reply} {stirred : Prop} (timely : s.machine.Timely)
    (front : s.front = .calling w next)
    (waits : w.Prompt engine b alarms s.machine.time stirred expected)
    (goesOn : (next (some expected)).Prompt engine b Q) {slot : Nat} {reply : Reply}
    (expects : expected[slot]? = some reply) (new : ∀ a ∈ s.machine.alarmsOf .front, a ∈ alarms)
    (kept : ∀ a ∈ alarms, a.Concerns slot ∨ a ∈ s.machine.alarmsOf .front) :
    (s.deliver .front slot reply).Prompt engine b Q := by
  have filled : (s.deliver .front slot reply).front = .calling (w.fill slot reply) next := by
    simp only [Scene.deliver, Scene.wake, front, Agent.fill]
  refine ⟨timely, ?_⟩
  rw [filled]
  exact ⟨expected, waits.fill expects new kept rfl, goesOn⟩

/-- The handler of a call is called, for no longer than it may take. -/
theorem begin {w : Waiting} {next : Option (List Reply) → Program β} {alarms : List Alarm}
    {expected : List Reply} (timely : s.machine.Timely) (front : s.front = .calling w next)
    (waits : w.Prompt engine b alarms s.machine.time (s.woken = true) expected)
    (goesOn : (next (some expected)).Prompt engine b Q) {slot : Nat} {call : Invocation}
    (handled : engine.handlers.contains call.action.actionType = true)
    (inTime : engine.InTime b (w.deadline.map (· - s.machine.time)) call)
    (expects : expected[slot]? = some (b.replyTo engine.handlers.contains call))
    (new : ∀ a ∈ s.machine.alarmsOf .front, a ∈ alarms)
    (kept : ∀ a ∈ alarms, a.Concerns slot ∨ a ∈ s.machine.alarmsOf .front) :
    (s.begin engine .front slot call).Prompt engine b Q := by
  obtain ⟨handler, found⟩ := Option.isSome_iff_exists.1 handled
  obtain ⟨reply, lasts⟩ := inTime.1 handler found s.machine.supply s.machine.world
  rw [Behaviour.replyTo_of_known handled, ← reply] at expects
  refine prompt_iff_holds.2 (.begin found rfl timely ?_ ?_)
  · intro _
    rw [front]
    exact ⟨expected, waits.fill expects new kept rfl, goesOn⟩
  · intro f sets
    have before : f.Timely engine b w.deadline expected := by
      rw [sets]
      refine ⟨fun time deadline => ?_, expects⟩
      rw [deadline] at inTime
      have ends : b.duration call < time - s.machine.time := inTime.duration_lt handled
      dsimp only
      omega
    have concerns : f.Concerns slot := by
      rw [sets]
      exact .inr ⟨_, rfl⟩
    have own : f.owner = .front := by rw [sets]
    rw [front]
    refine ⟨expected, waits.run before concerns (Machine.mem_alarmsOf_setAlarm.2 (.inl ⟨rfl, own⟩))
      (fun a ha => ?_) fun a ha => ?_, goesOn⟩
    · exact (Machine.mem_alarmsOf_setAlarm.1 ha).imp (·.1) (new a)
    · exact (kept a ha).imp_right fun old => Machine.mem_alarmsOf_setAlarm.2 (.inr old)

/-- One of the alarms of the agent in front goes off. -/
theorem goOff_front {a : Alarm} {alarms : List Alarm} (going : s.front.result? = none)
    (timely : s.machine.Timely) (own : a.owner = .front) (now : s.machine.time = a.time)
    (set : ∀ x, x ∈ alarms ↔ x = a ∨ x ∈ s.machine.alarmsOf .front)
    (prompt : s.front.Prompt engine b Q alarms s.machine.time (s.woken = true)) :
    (s.goOff engine a).Prompt engine b Q := by
  have here : a ∈ alarms := (set a).2 (.inl rfl)
  have new : ∀ x ∈ s.machine.alarmsOf .front, x ∈ alarms := fun x hx => (set x).2 (.inr hx)
  have kept {slot : Nat} (concerns : a.Concerns slot) : ∀ x ∈ alarms,
      x.Concerns slot ∨ x ∈ s.machine.alarmsOf .front := fun x hx =>
    ((set x).1 hx).imp_left fun (same : x = a) => same ▸ concerns
  cases front : s.front with
  | ready p =>
    rw [front] at prompt
    obtain ⟨rfl, -⟩ := prompt
    cases here
  | asleep wakeTime p =>
    rw [front] at prompt
    obtain ⟨rfl, -⟩ := prompt
    cases here
  | finished result =>
    rw [front] at going
    cases going
  | calling w next =>
    rw [front] at prompt
    obtain ⟨expected, waits, goesOn⟩ := prompt
    have before := waits.timely a here
    obtain ⟨time, owner, signal⟩ := a
    cases own
    cases now
    cases signal with
    | wake => exact before.elim
    | start slot call =>
      obtain ⟨handled, inTime, expects⟩ := before
      exact begin timely front waits goesOn handled inTime expects new (kept (.inl ⟨_, rfl⟩))
    | finish slot reply =>
      exact deliver timely front waits goesOn before.2 new (kept (.inr ⟨_, rfl⟩))

theorem tick {t : Scene σ β} (h : s.Prompt engine b Q) (going : s.front.result? = none)
    (notDue : ¬ s.isDue = true) (ticks : s.tick engine = some t) : t.Prompt engine b Q := by
  have lasts : ∀ a ∈ s.machine.alarms.head?,
      s.front.Prompt engine b Q (s.machine.alarmsOf .front) a.time (s.woken = true) := by
    intro a ha
    obtain ⟨rest, alarms⟩ := List.head?_eq_some_iff.1 ha
    refine h.front.later fun w next front time deadline => Nat.lt_of_not_le fun le => notDue ?_
    simp [Scene.isDue, alarms, front, Agent.due, deadline, le]
  refine prompt_iff_holds.2 ((prompt_iff_holds.1 h).tick ticks lasts ?_)
  intro a rest turns alarms own timely
  exact prompt_iff_holds.1 (goOff_front going timely own rfl
    (mem_alarmsOf_front_iff alarms own a.time) (lasts a (by rw [alarms]; rfl)))

/-- Whatever the machine does next, the agent in front is going to be answered in time. -/
theorem next (h : s.Prompt engine b Q) (going : s.front.result? = none) :
    (s.next engine).Prompt engine b Q := by
  unfold Scene.next
  split
  · exact h.resumeFront nofun
  · next roundOver =>
    split
    · next isDue => exact h.expire roundOver isDue
    · next notDue =>
      cases ticks : s.tick engine with
      | none => exact h
      | some t => exact h.tick going notDue ticks

end Prompt

end Scene

/-- A program that makes its calls in time is answered with all replies, whatever goes on in the
background. -/
theorem Machine.prompt_of_await {engine : Engine σ} {b : Behaviour} {Q : β → Prop} {p : Program β}
    (prompt : p.Prompt engine b Q) {m : Machine σ} (orderly : m.Orderly) :
    Q (m.await engine p).1 := by
  have begun := Scene.prompt_iff_holds.2 (.start engine orderly
    (prompt_advance prompt (m.cancel .front) (alarmsOf_cancel .front m)))
  obtain ⟨last, ends, front, -⟩ := Scene.run_keeps (fun _ prompt => prompt.next) begun
  have comes := ends.front
  rw [front] at comes
  exact comes

end EventFlow
