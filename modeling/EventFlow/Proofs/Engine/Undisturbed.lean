import EventFlow.Proofs.Engine.Delivery
import EventFlow.Proofs.Engine.Punctual

/-!
# Agents that nobody disturbs

Where handlers behave in one way, an agent that waits for calls is on course to a result that can be
foreseen (`Agent.OnCourse`): whatever happens to a machine, its agents in the background stay on
course (`Happens.onCourse`), unless definitions are edited before they have begun. What others do,
how long they take and in which order they end has no part in it. The agents are those of
`EventFlow.Engine.Agent`.
-/

set_option autoImplicit false

namespace EventFlow

variable {σ α : Type}

open Waiting (Sets)

/-- The agent is on course to a result with a property, in front of these alarms of its own, at a
time. If it has not begun, this is so as long as the collections have the same definitions. -/
def Agent.OnCourse (b : Behaviour) (known : String → Bool) (c : Collections) (Q : α → Prop)
    (stirs : Nat → Prop) (alarms : List Alarm) (now : Nat) : Agent α → Prop
  | .ready p => (∀ a ∈ alarms, a.signal = .wake) ∧ ∃ next, p = .collections next ∧
    ∀ c', (∀ k, c'.table k = c.table k) → (next c').Comes b known Q
  | .asleep _ p => (∀ a ∈ alarms, a.signal = .wake) ∧ p.Comes b known Q
  | .calling w next => ∃ calls answer, w.Foreseen b known stirs alarms now calls answer ∧
    (next answer).Comes b known Q
  | .finished result => Q result

theorem Alarm.wakes_iff {owner : Owner} {time : Nat} {a : Alarm} :
    Alarm.wakes owner time a = true ↔ a.owner = owner ∧ a.time ≤ time ∧ a.signal = .wake := by
  unfold Alarm.wakes
  cases a.signal <;> simp

namespace Agent.OnCourse

variable {b : Behaviour} {known : String → Bool} {c : Collections} {Q : α → Prop}
  {stirs stirs' : Nat → Prop} {alarms alarms' : List Alarm} {now now' : Nat} {agent : Agent α}

theorem later (h : agent.OnCourse b known c Q stirs alarms now) (after : now ≤ now')
    (early : ∀ w next, agent = .calling w next → ∀ time, w.deadline = some time → now' ≤ time) :
    agent.OnCourse b known c Q stirs alarms now' := by
  cases agent with
  | ready p => exact h
  | asleep wakeTime p => exact h
  | calling w next =>
    obtain ⟨calls, answer, foreseen, comes⟩ := h
    exact ⟨calls, answer, foreseen.later after (early w next rfl), comes⟩
  | finished result => exact h

/-- Alarms that wake come and go. -/
theorem sets (h : agent.OnCourse b known c Q stirs alarms now) (sets : Sets alarms [] now alarms')
    (stirring : ∀ time, stirs time → stirs' time) :
    agent.OnCourse b known c Q stirs' alarms' now := by
  have quiet (h : ∀ a ∈ alarms, a.signal = .wake) : ∀ a ∈ alarms', a.signal = .wake := by
    intro a ha
    rcases sets.new a ha with wake | old | ⟨slot, call, made, -⟩
    · exact wake
    · exact h a old
    · cases made
  cases agent with
  | ready p => exact ⟨quiet h.1, h.2⟩
  | asleep wakeTime p => exact ⟨quiet h.1, h.2⟩
  | calling w next =>
    obtain ⟨calls, answer, foreseen, comes⟩ := h
    exact ⟨calls, answer, foreseen.sets sets stirring, comes⟩
  | finished result => exact h

/-- Only an agent that waits for calls, or that has ended, has alarms that do not wake it. -/
theorem calling_or_finished (h : agent.OnCourse b known c Q stirs alarms now) {a : Alarm}
    (ha : a ∈ alarms) (notWake : a.signal ≠ .wake) :
    (∃ w next, agent = .calling w next) ∨ ∃ result, agent = .finished result := by
  cases agent with
  | ready p => exact absurd (h.1 a ha) notWake
  | asleep wakeTime p => exact absurd (h.1 a ha) notWake
  | calling w next => exact .inl ⟨w, next, rfl⟩
  | finished result => exact .inr ⟨result, rfl⟩

end Agent.OnCourse

/-- An agent that delivers waits for calls no longer than until its first alarm. -/
theorem Agent.Delivers.le_deadline {P : Execution → Prop} {alarms : List Alarm}
    {agent : Agent Execution} (h : agent.Delivers P alarms) {now : Nat}
    (first : ∀ a ∈ alarms, now ≤ a.time) (w : Waiting)
    (next : Option (List Reply) → Program Execution) (calling : agent = .calling w next)
    (time : Nat) (deadline : w.deadline = some time) : now ≤ time := by
  subst calling
  obtain ⟨-, a, ha, -, same⟩ := h
  cases same.symm.trans deadline
  exact first a ha

namespace Machine

variable {engine : Engine σ} {b : Behaviour} {c : Collections} {Q : α → Prop}
  {stirs : Nat → Prop} {owner : Owner}

theorem mem_alarmsOf_makeCalls_iff {owner : Owner} {made : List (Nat × Invocation)}
    {m : Machine σ} {a : Alarm} : a ∈ (m.makeCalls owner made).alarmsOf owner ↔
      (∃ slot call, (slot, call) ∈ made ∧ a = ⟨m.time, owner, .start slot call⟩) ∨
        a ∈ m.alarmsOf owner := by
  induction made generalizing m with
  | nil => simp [makeCalls]
  | cons first rest ih =>
    obtain ⟨slot, call⟩ := first
    rw [makeCalls, ih, mem_alarmsOf_setAlarm]
    constructor
    · rintro (⟨slot', call', made, rfl⟩ | ⟨rfl, -⟩ | old)
      · exact .inl ⟨slot', call', List.mem_cons_of_mem _ made, rfl⟩
      · exact .inl ⟨slot, call, List.mem_cons_self, rfl⟩
      · exact .inr old
    · rintro (⟨slot', call', made, rfl⟩ | old)
      · rcases List.mem_cons.1 made with same | made
        · cases same
          exact .inr (.inl ⟨rfl, rfl⟩)
        · exact .inl ⟨slot', call', made, rfl⟩
      · exact .inr (.inr old)

theorem sets_makeCalls (owner : Owner) (made : List (Nat × Invocation)) (m : Machine σ) :
    Sets (m.alarmsOf owner) made m.time ((m.makeCalls owner made).alarmsOf owner) where
  kept a ha _ := mem_alarmsOf_makeCalls_iff.2 (.inr ha)
  new a ha := by
    rcases mem_alarmsOf_makeCalls_iff.1 ha with ⟨slot, call, made, rfl⟩ | old
    · exact .inr (.inr ⟨slot, call, made, rfl, rfl⟩)
    · exact .inr (.inl old)
  set slot call made := ⟨_, mem_alarmsOf_makeCalls_iff.2 (.inl ⟨slot, call, made, rfl⟩), rfl⟩

/-- A timer only adds an alarm that wakes. -/
theorem mem_alarmsOf_setTimer_cases {owner : Owner} {time : Nat} {m : Machine σ} {a : Alarm}
    (h : a ∈ (m.setTimer owner time).alarmsOf owner) :
    a.signal = .wake ∨ a ∈ m.alarmsOf owner := by
  unfold setTimer at h
  split at h
  · exact .inr h
  · rcases mem_alarmsOf_setAlarm.1 h with ⟨rfl, -⟩ | old
    · exact .inl rfl
    · exact .inr old

theorem mem_alarmsOf_setTimer_of_mem {owner : Owner} {m : Machine σ} {a : Alarm} (time : Nat)
    (h : a ∈ m.alarmsOf owner) : a ∈ (m.setTimer owner time).alarmsOf owner := by
  unfold setTimer
  split
  · exact h
  · exact mem_alarmsOf_setAlarm.2 (.inr h)

theorem sets_setTimer {owner : Owner} {alarms : List Alarm} {made : List (Nat × Invocation)}
    {now : Nat} {m : Machine σ} (h : Sets alarms made now (m.alarmsOf owner)) (time : Nat) :
    Sets alarms made now ((m.setTimer owner time).alarmsOf owner) where
  kept a ha notWake := mem_alarmsOf_setTimer_of_mem time (h.kept a ha notWake)
  new a ha := (mem_alarmsOf_setTimer_cases ha).elim .inl (h.new a)
  set slot call made :=
    have ⟨a, ha, signal⟩ := h.set slot call made
    ⟨a, mem_alarmsOf_setTimer_of_mem time ha, signal⟩

/-- A program that goes on is on course. -/
theorem onCourse_advance {p : Program α} (comes : p.Comes b engine.handlers.contains Q)
    (m : Machine σ) (quiet : ∀ a ∈ m.alarmsOf owner, a.signal = .wake) :
    (advance engine owner p m).1.OnCourse b engine.handlers.contains c Q stirs
      ((advance engine owner p m).2.alarmsOf owner) m.time := by
  -- The program goes on to the first request that has to be waited for.
  induction p generalizing m with
  | done result => exact comes
  | clock next ih => exact ih _ (comes _) { m with supply := m.supply.now.2 } quiet
  | collections next => exact comes.elim
  | record e next ih => exact ih comes (m.change engine.disk (·.record e)).2 quiet
  | sleep ms next ih =>
    rw [advance]
    split
    · exact ih comes m quiet
    · exact ⟨fun a ha => (mem_alarmsOf_setTimer_cases ha).elim id (quiet a), comes⟩
  | call limit order calls next ih =>
    obtain ⟨untied, comes⟩ := comes
    have onward : Waiting.Onward b _ _ m.time _ _ _ := Waiting.onward_start untied quiet
    rw [advance]
    split
    · next replies settles =>
      rw [settles] at onward
      rw [show b.answer _ limit order calls = some replies from onward] at comes
      exact ih _ comes m quiet
    · next waiting made pending =>
      rw [pending] at onward
      obtain ⟨-, late, waits⟩ := onward
      cases limit with
      | none =>
        obtain ⟨made', foreseen⟩ :=
          waits (fun _ due => by cases due) stirs _ (sets_makeCalls owner made m)
        exact ⟨made', _, foreseen, comes⟩
      | some ms =>
        cases ms with
        | zero =>
          rw [late ⟨_, rfl, Nat.le_refl _⟩] at comes
          exact ih _ comes m quiet
        | succ ms =>
          have early : ∀ time, some (m.time + (ms + 1)) = some time → m.time < time := by
            rintro time ⟨⟩
            omega
          obtain ⟨made', foreseen⟩ := waits early stirs _
            (sets_setTimer (sets_makeCalls owner made m) _)
          exact ⟨made', _, foreseen, comes⟩

/-- An agent whose calls are answered goes on with no alarm set. -/
theorem onCourse_answered {p : Program α} (comes : p.Comes b engine.handlers.contains Q)
    (m : Machine σ) :
    (advance engine owner p (m.cancel owner)).1.OnCourse b engine.handlers.contains c Q stirs
      ((advance engine owner p (m.cancel owner)).2.alarmsOf owner) m.time :=
  onCourse_advance comes (m.cancel owner) fun a ha => by
    rw [alarmsOf_cancel] at ha
    cases ha

/-- An agent on course that looks after what it waits for stays so, if it has been stirred in time
and is told that nothing more will come only when its time has come. -/
theorem onCourse_resume {agent : Agent α} {m : Machine σ} {expired : Bool}
    (course : agent.OnCourse b engine.handlers.contains c Q (m.time ≤ ·) (m.alarmsOf owner) m.time)
    (due : ∀ a ∈ m.alarmsOf owner, m.time ≤ a.time)
    (late : expired = true → ∀ w next, agent = .calling w next →
      ∃ time, w.deadline = some time ∧ time ≤ m.time)
    (unedited : ∀ p, agent = .ready p →
      ∀ k, m.store.collections.table k = c.table k) :
    (resume engine owner expired agent m).1.OnCourse b engine.handlers.contains c Q stirs
      ((resume engine owner expired agent m).2.alarmsOf owner) m.time := by
  cases agent with
  | ready p =>
    obtain ⟨quiet, next, rfl, comes⟩ := course
    exact onCourse_advance (comes _ (unedited _ rfl)) m quiet
  | asleep wakeTime p =>
    obtain ⟨quiet, comes⟩ := course
    rw [resume]
    split
    · exact onCourse_advance comes m quiet
    · exact ⟨quiet, comes⟩
  | calling waiting next =>
    obtain ⟨calls, answer, foreseen, comes⟩ := course
    have onward := Waiting.onward_poll foreseen due
    rw [resume]
    split
    · next replies settles =>
      rw [settles] at onward
      rw [show answer = some replies from onward] at comes
      exact onCourse_answered comes m
    · next waiting' made pending =>
      rw [pending] at onward
      obtain ⟨deadline, isLate, waits⟩ := onward
      split
      · next ended =>
        rw [isLate ?_] at comes
        · exact onCourse_answered comes m
        · rcases (Bool.or_eq_true _ _).mp ended with told | timed
          · exact late told _ _ rfl
          · obtain ⟨time, htime, le⟩ := (Option.any_eq_true _ _).1 timed
            exact ⟨time, deadline.symm.trans htime, of_decide_eq_true le⟩
      · next going =>
        have early : ∀ time, waiting.deadline = some time → m.time < time := by
          intro time htime
          refine Nat.lt_of_not_le fun le => going ?_
          rw [Bool.or_eq_true, Option.any_eq_true]
          exact .inr ⟨time, deadline.trans htime, decide_eq_true le⟩
        obtain ⟨calls', foreseen'⟩ := waits early stirs _ (sets_makeCalls owner made m)
        exact ⟨calls', _, foreseen', comes⟩
  | finished result => exact course

/-! ## In the background -/

/-- An alarm of an agent in the background will wake it, no later than at a time. -/
def Stirs (i : Nat) (m : Machine σ) (time : Nat) : Prop :=
  ∃ a ∈ m.alarmsOf (.background i), a.signal = .wake ∧ a.time ≤ time

/-- An agent in the background is on course. -/
def OnCourse (engine : Engine σ) (b : Behaviour) (c : Collections) (Q : Execution → Prop) (i : Nat)
    (m : Machine σ) : Prop :=
  ∃ agent, m.agents[i]? = some agent ∧ agent.OnCourse b engine.handlers.contains c Q (m.Stirs i)
    (m.alarmsOf (.background i)) m.time

section Background

variable {Q : Execution → Prop} {P : Execution → Prop} {i : Nat} {m m' : Machine σ}

/-- An agent that waits gets a reply at its time. -/
theorem onCourse_deliver {w : Waiting} {next : Option (List Reply) → Program Execution}
    {alarms : List Alarm} {calls : List Made} {answer : Option (List Reply)}
    (there : m.agents[i]? = some (.calling w next))
    (foreseen : w.Foreseen b engine.handlers.contains stirs alarms m.time calls answer)
    (comes : (next answer).Comes b engine.handlers.contains Q) {slot : Nat} {d : Made}
    (here : calls[slot]? = some d) (ending : d.ending b = m.time)
    (new : ∀ a ∈ m.alarmsOf (.background i), a ∈ alarms)
    (kept : ∀ a ∈ alarms, a.Concerns slot ∨ a ∈ m.alarmsOf (.background i)) :
    OnCourse engine b c Q i (Scene.onMachine (Scene.deliver (.background i) slot
      (b.replyTo engine.handlers.contains d.call)) m) := by
  have filled : (m.agents.modify i (·.fill slot (b.replyTo engine.handlers.contains d.call)))[i]? =
      some (.calling (w.fill slot (b.replyTo engine.handlers.contains d.call)) next) := by
    simp [there, Agent.fill]
  rw [onMachine_deliver]
  split
  · next wakes =>
    obtain ⟨a, ha, wakes⟩ := List.any_eq_true.1 wakes
    obtain ⟨own, due, wake⟩ := Alarm.wakes_iff.1 wakes
    exact ⟨_, filled, calls, answer, foreseen.fill here ending (fun x hx => .inr (new x hx))
      (fun x hx _ => kept x hx) ⟨a, mem_alarmsOf.2 ⟨ha, own⟩, wake, due⟩, comes⟩
  · refine ⟨_, filled, calls, answer, foreseen.fill here ending (fun x hx => ?_)
      (fun x hx _ => (kept x hx).imp_right fun old => mem_alarmsOf_setAlarm.2 (.inr old))
      ⟨_, mem_alarmsOf_setAlarm.2 (.inl ⟨rfl, rfl⟩), rfl, Nat.le_refl _⟩, comes⟩
    rcases mem_alarmsOf_setAlarm.1 hx with ⟨rfl, -⟩ | old
    · exact .inl rfl
    · exact .inr (new x old)

/-- The handler of a call is called at its time. -/
theorem onCourse_begin (behaves : engine.Behaves b) {w : Waiting}
    {next : Option (List Reply) → Program Execution} {alarms : List Alarm} {calls : List Made}
    {answer : Option (List Reply)} (there : m.agents[i]? = some (.calling w next))
    (foreseen : w.Foreseen b engine.handlers.contains stirs alarms m.time calls answer)
    (stirring : ∀ time, stirs time → m.Stirs i time)
    (comes : (next answer).Comes b engine.handlers.contains Q) {slot : Nat} {d : Made}
    (here : calls[slot]? = some d)
    (handled : engine.handlers.contains d.call.action.actionType = true) (time : d.time = m.time)
    (new : ∀ a ∈ m.alarmsOf (.background i), a ∈ alarms)
    (kept : ∀ a ∈ alarms, a.Concerns slot ∨ a ∈ m.alarmsOf (.background i)) :
    OnCourse engine b c Q i
      (Scene.onMachine (Scene.begin engine (.background i) slot d.call) m) := by
  obtain ⟨handler, found, duration, reply⟩ :=
    Behaviour.replyTo_of_behaves behaves handled m.supply m.world
  rw [onMachine_begin, found]
  simp only [duration, reply]
  generalize (handler d.call m.supply m.world).world = world
  generalize (handler d.call m.supply m.world).supply = supply
  split
  · next atOnce =>
    refine onCourse_deliver (m := { m with world, supply }) there foreseen comes here ?_ new kept
    rw [Made.ending, atOnce, time, Nat.add_zero]
  · let f : Alarm := ⟨m.time + b.duration d.call, .background i,
      .finish slot (b.replyTo engine.handlers.contains d.call)⟩
    have set : f ∈ (m.setAlarm f).alarmsOf (.background i) :=
      mem_alarmsOf_setAlarm.2 (.inl ⟨rfl, rfl⟩)
    have old {a : Alarm} (ha : a ∈ m.alarmsOf (.background i)) :
        a ∈ (m.setAlarm f).alarmsOf (.background i) := mem_alarmsOf_setAlarm.2 (.inr ha)
    refine ⟨_, there, calls, answer, foreseen.run here handled (f := f) rfl ?_ (fun a ha => ?_) set
      (fun a ha _ => (kept a ha).imp_right old) ?_, comes⟩
    · rw [Made.ending, time]
    · exact (mem_alarmsOf_setAlarm.1 ha).imp (·.1) (new a)
    · intro time stir
      obtain ⟨a, ha, wake, due⟩ := stirring time stir
      exact ⟨a, old ha, wake, due⟩

/-- The alarm that goes off is taken away, and no other. -/
theorem Rings.mem_iff {a : Alarm} {others : List Alarm} (rings : m.Rings engine i a others m')
    (x : Alarm) : x ∈ m.alarmsOf (.background i) ↔
      x = a ∨ x ∈ alarmsOf (.background i) { m with time := a.time, alarms := others } := by
  rw [rings.alarms x, mem_alarmsOf]

/-- An agent in the background stays on course when it is woken. -/
theorem Rings.onCourse_woken {a : Alarm} {others : List Alarm} {agent : Agent Execution}
    (rings : m.Rings engine i a others m') (there : m.agents[i]? = some agent)
    (wake : a.signal = .wake)
    (course : agent.OnCourse b engine.handlers.contains c Q (m.Stirs i)
      (m.alarmsOf (.background i)) a.time)
    (unedited : ∀ p, agent = .ready p → ∀ k, m.store.collections.table k = c.table k) :
    OnCourse engine b c Q i m' := by
  let m₁ : Machine σ := { m with time := a.time, alarms := others }
  have old : ∀ x ∈ m₁.alarmsOf (.background i), x ∈ m.alarmsOf (.background i) :=
    fun x hx => (rings.mem_iff x).2 (.inr hx)
  have sets : Sets (m.alarmsOf (.background i)) [] a.time (m₁.alarmsOf (.background i)) :=
    .nothing (fun x hx notWake =>
      ((rings.mem_iff x).1 hx).resolve_left fun same => notWake (same ▸ wake)) old
  have stirring : ∀ time, m.Stirs i time → a.time ≤ time := by
    rintro time ⟨x, hx, -, due⟩
    exact Nat.le_trans (rings.first x hx) due
  have acts : Acts engine (.background i) m₁ _ := acts_resume false agent m₁
  have time : (resume engine (.background i) false agent m₁).2.time = m₁.time := acts.spares.time
  have resumed : Agent.OnCourse b engine.handlers.contains c Q
      (Stirs i (resume engine (.background i) false agent m₁).2)
      (alarmsOf (.background i) (resume engine (.background i) false agent m₁).2) m₁.time
      (resume engine (.background i) false agent m₁).1 :=
    onCourse_resume (course.sets sets stirring) (fun x hx => rings.first x (old x hx)) nofun
      unedited
  rw [rings.resumes wake there]
  refine ⟨_, List.getElem?_set_self (List.getElem?_eq_some_iff.1 there).1, ?_⟩
  rw [← time] at resumed
  exact resumed

/-- An agent in the background stays on course when one of its calls is made or ends. -/
theorem Rings.onCourse_served (behaves : engine.Behaves b) {a : Alarm} {others : List Alarm}
    {w : Waiting} {next : Option (List Reply) → Program Execution}
    (rings : m.Rings engine i a others m') (there : m.agents[i]? = some (.calling w next))
    (notWake : a.signal ≠ .wake)
    (course : (Agent.calling w next).OnCourse b engine.handlers.contains c Q (m.Stirs i)
      (m.alarmsOf (.background i)) a.time) : OnCourse engine b c Q i m' := by
  let m₁ : Machine σ := { m with time := a.time, alarms := others }
  have old : ∀ x ∈ m₁.alarmsOf (.background i), x ∈ m.alarmsOf (.background i) :=
    fun x hx => (rings.mem_iff x).2 (.inr hx)
  have kept {slot : Nat} (concerns : a.Concerns slot) : ∀ x ∈ m.alarmsOf (.background i),
      x.Concerns slot ∨ x ∈ m₁.alarmsOf (.background i) := fun x hx =>
    ((rings.mem_iff x).1 hx).imp_left fun (same : x = a) => same ▸ concerns
  have still : ∀ time, m.Stirs i time → m₁.Stirs i time := by
    rintro time ⟨x, hx, wakes, due⟩
    exact ⟨x, ((rings.mem_iff x).1 hx).resolve_left fun same => notWake (same ▸ wakes), wakes, due⟩
  obtain ⟨calls, answer, foreseen, comes⟩ := course
  have fits := foreseen.inTime.fits a ((rings.mem_iff a).2 (.inl rfl))
  have own := rings.own
  rw [rings.after]
  change OnCourse engine b c Q i (Scene.onMachine (Scene.goOff engine a) m₁)
  obtain ⟨time, owner, signal⟩ := a
  cases own
  cases signal with
  | wake => exact absurd rfl notWake
  | start slot call =>
    obtain ⟨d, hd, handled, rfl, time⟩ := fits
    exact onCourse_begin (m := m₁) behaves there foreseen still comes hd handled time.symm old
      (kept (.inl ⟨_, rfl⟩))
  | finish slot reply =>
    obtain ⟨d, hd, handled, rfl, time⟩ := fits
    exact onCourse_deliver (m := m₁) there foreseen comes hd time.symm old (kept (.inr ⟨_, rfl⟩))

/-- An agent in the background stays on course when one of its alarms goes off. -/
theorem Rings.onCourse (behaves : engine.Behaves b) {a : Alarm} {others : List Alarm}
    {agent : Agent Execution} (rings : m.Rings engine i a others m')
    (there : m.agents[i]? = some agent)
    (delivers : agent.Delivers P (m.alarmsOf (.background i)))
    (course : agent.OnCourse b engine.handlers.contains c Q (m.Stirs i)
      (m.alarmsOf (.background i)) m.time)
    (unedited : ∀ p, agent = .ready p → ∀ k, m.store.collections.table k = c.table k) :
    OnCourse engine b c Q i m' := by
  have now := course.later rings.due (delivers.le_deadline rings.first)
  by_cases wake : a.signal = .wake
  · exact rings.onCourse_woken there wake now unedited
  · have here : a ∈ m.alarmsOf (.background i) := (rings.mem_iff a).2 (.inl rfl)
    rcases now.calling_or_finished here wake with ⟨w, next, rfl⟩ | ⟨result, rfl⟩
    · exact rings.onCourse_served behaves there wake now
    · refine ⟨.finished result, ?_, course⟩
      rcases (rings.fills wake).agent with same | ⟨slot, reply, filled⟩
      · exact same.trans there
      · rw [filled]
        exact congrArg (Option.map (Agent.fill slot reply)) there

/-- Whatever happens, an agent in the background stays on course, unless definitions are edited
before it has begun. -/
theorem Happens.onCourse (behaves : engine.Behaves b) (step : m.Happens engine m') (h : m.Orderly)
    {agent : Agent Execution} (there : m.agents[i]? = some agent)
    (delivers : agent.Delivers P (m.alarmsOf (.background i)))
    (course : agent.OnCourse b engine.handlers.contains c Q (m.Stirs i)
      (m.alarmsOf (.background i)) m.time)
    (unedited : ∀ p, agent = .ready p → ∀ k, m.store.collections.table k = c.table k) :
    OnCourse engine b c Q i m' := by
  rcases step.passes_or_rings h (List.getElem?_eq_some_iff.1 there).1 with
    passes | ⟨a, others, rings⟩
  · refine ⟨agent, passes.agent.trans there, ?_⟩
    unfold Stirs at course ⊢
    have first := passes.first
    rw [← passes.alarms] at course first delivers
    exact course.later passes.later (delivers.le_deadline first)
  · exact rings.onCourse behaves there delivers course unedited

end Background

end Machine

end EventFlow
