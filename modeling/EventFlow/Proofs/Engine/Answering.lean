import EventFlow.Proofs.Engine.Schedule

/-!
# Answers on schedule

An agent in front that asks for calls of a schedule waits for calls that are on schedule, whatever
goes on in the background (`Scene.timed_next`). So it is answered as the schedule says, and every
call is made when its turn comes (`Schedule.ends_of_await`). An agent in front that sleeps goes on
when it has slept (`Machine.sleeps_of_await`). What an agent asks for is turned into alarms by
`Machine.advance`, and `Machine.resume` answers it (`EventFlow.Engine.Agent`).
-/

set_option autoImplicit false

namespace EventFlow

variable {σ β : Type} {engine : Engine σ} {r : Schedule} {f : Option (List Reply) → β}

/-- A program that asks for the calls of a schedule, and says what the answer comes to. -/
def Schedule.request (r : Schedule) (f : Option (List Reply) → β) : Program β :=
  .call (some r.limit) r.order r.calls fun answer => .done (f answer)

/-- There is a handler for each call of the schedule, and a time that each call takes. -/
structure Schedule.Served (engine : Engine σ) (r : Schedule) : Prop where
  length : r.lastings.length = r.calls.length
  handled : ∀ call ∈ r.calls, engine.handlers.contains call.action.actionType = true

/-- The agent waits for calls that are on schedule, or has been answered on schedule. -/
def Agent.Timed (r : Schedule) (f : Option (List Reply) → β) :
    Agent β → List Alarm → Nat → Prop → Prop
  | .calling w next, alarms, now, stirred =>
    w.Timed r alarms now stirred ∧ ∀ answer, next answer = .done (f answer)
  | .finished result, _, now, _ => ∃ answer, result = f answer ∧ r.Ends answer now
  | _, _, _, _ => False

theorem Agent.Timed.calling {agent : Agent β} {alarms : List Alarm} {now : Nat} {stirred : Prop}
    (h : agent.Timed r f alarms now stirred) (going : agent.result? = none) :
    ∃ w next, agent = .calling w next ∧ w.Timed r alarms now stirred ∧
      ∀ answer, next answer = .done (f answer) := by
  cases agent with
  | ready p => exact h.elim
  | asleep wakeTime p => exact h.elim
  | calling w next => exact ⟨w, next, rfl, h⟩
  | finished result => cases going

/-! ## The first calls -/

namespace Waiting

/-- So many of the calls are made at once: the first of calls in turn, and all calls that are made
together. -/
theorem start_of_handled {known : String → Bool} {calls : List Invocation}
    (handled : ∀ call ∈ calls, known call.action.actionType = true) (some_call : calls ≠ [])
    (deadline : Option Nat) (order : CallOrder) :
    ∃ count made, 0 < count ∧ (order = .inTurn → count = 1) ∧
      (order = .together → count = calls.length) ∧
      start known deadline order calls =
        .pending ⟨deadline, List.replicate count none, calls.drop count⟩ made ∧
      ∀ slot call, (slot, call) ∈ made ↔ slot < count ∧ calls[slot]? = some call := by
  cases order with
  | inTurn =>
    cases calls with
    | nil => exact absurd rfl some_call
    | cons call rest =>
      have first := handled call List.mem_cons_self
      refine ⟨1, [(0, call)], Nat.one_pos, fun _ => rfl, CallOrder.noConfusion, ?_, ?_⟩
      · simp [start, poll, all?, first]
      · intro slot other
        cases slot <;> simp [eq_comm]
  | together =>
    have open_replies : refusals known calls = List.replicate calls.length none := by
      rw [refusals, List.eq_replicate_iff]
      refine ⟨List.length_map _, ?_⟩
      intro reply hreply
      obtain ⟨call, hcall, rfl⟩ := List.mem_map.1 hreply
      rw [if_pos (handled call hcall)]
    have positive : 0 < calls.length := List.length_pos_iff.2 some_call
    have missing : all? (List.replicate calls.length none) = none := by
      rw [all?_eq_none_iff, List.mem_replicate]
      exact ⟨Nat.ne_of_gt positive, rfl⟩
    have starts : start known deadline .together calls =
        .pending ⟨deadline, List.replicate calls.length none, calls.drop calls.length⟩
          ((calls.zipIdx.filter fun c => known c.1.action.actionType).map fun c => (c.2, c.1)) := by
      simp only [start, ← refusals.eq_1, open_replies, missing, List.drop_length]
    refine ⟨calls.length, _, positive, CallOrder.noConfusion, fun _ => rfl, starts, ?_⟩
    intro slot call
    refine mem_made.trans ⟨?_, ?_⟩
    · rintro ⟨here, -⟩
      exact ⟨(List.getElem?_eq_some_iff.1 here).1, here⟩
    · rintro ⟨-, here⟩
      exact ⟨here, handled call (List.mem_of_getElem? here)⟩

/-- When all calls that have been made are replied to, that is the answer, or the next call in turn
is made. -/
theorem poll_of_handled {known : String → Bool} {w : Waiting} {replies : List Reply}
    (all : all? w.replies = some replies)
    (handled : ∀ call ∈ w.rest, known call.action.actionType = true) :
    (w.poll known = .settled replies ∧ (replies.any isFailure = true ∨ w.rest = [])) ∨
      ∃ call rest, w.rest = call :: rest ∧ ¬ replies.any isFailure = true ∧
        w.poll known =
          .pending ⟨w.deadline, w.replies ++ [none], rest⟩ [(w.replies.length, call)] := by
  simp only [poll, all]
  by_cases fails : replies.any isFailure = true
  · rw [if_pos fails]
    exact .inl ⟨rfl, .inl fails⟩
  · rw [if_neg fails]
    cases left : w.rest with
    | nil => exact .inl ⟨rfl, .inr rfl⟩
    | cons call rest =>
      rw [left] at handled
      exact .inr ⟨call, rest, rfl, fails, if_pos (handled call List.mem_cons_self)⟩

/-- The first calls of a schedule are made when it starts. -/
theorem timed_start {alarms : List Alarm} {stirred : Prop} {count : Nat} (positive : 0 < count)
    (inTurn : r.order = .inTurn → count = 1)
    (together : r.order = .together → count = r.calls.length) (inTime : 0 < r.limit)
    (set : ∀ a, a ∈ alarms ↔ ∃ slot call, slot < count ∧ r.calls[slot]? = some call ∧
      a = ⟨r.start, .front, .start slot call⟩) (within : count ≤ r.calls.length) :
    Timed r alarms r.start stirred
      ⟨some r.deadline, List.replicate count none, r.calls.drop count⟩ where
  deadline := rfl
  early := Nat.lt_add_of_pos_right inTime
  rest := by rw [List.length_replicate]
  whole order := by rw [List.length_replicate, together order]
  come slot reply hreply := by
    have mem := List.mem_of_getElem? hreply
    cases (List.mem_replicate.1 mem).2
  passed order slot inside := by
    rw [List.length_replicate, inTurn order] at inside
    omega
  toCome slot hslot := by
    obtain ⟨inside, -⟩ := List.getElem?_eq_some_iff.1 hslot
    rw [List.length_replicate] at inside
    obtain ⟨call, here⟩ : ∃ call, r.calls[slot]? = some call :=
      ⟨_, List.getElem?_eq_getElem (Nat.lt_of_lt_of_le inside within)⟩
    exact ⟨_, (set _).2 ⟨slot, call, inside, here, rfl⟩, .inl ⟨call, rfl⟩⟩
  scheduled a ha := by
    obtain ⟨slot, call, inside, here, rfl⟩ := (set a).1 ha
    refine ⟨here, ?_⟩
    cases order : r.order with
    | together => simp only [Schedule.turn, order]
    | inTurn =>
      rw [inTurn order] at inside
      obtain rfl : slot = 0 := by omega
      simp [Schedule.turn, order, Lasting.altogether]
  stirred complete := absurd (List.mem_replicate.2 ⟨Nat.ne_of_gt positive, rfl⟩) complete

end Waiting

namespace Machine

/-- A program that asks for calls of a schedule at its start waits for them, or is answered at
once. -/
theorem timed_advance (served : r.Served engine) {m : Machine σ} (start : m.time = r.start)
    (none_left : m.alarmsOf .front = []) {stirred : Prop} :
    (advance engine .front (r.request f) m).1.Timed r f
      ((advance engine .front (r.request f) m).2.alarmsOf .front) r.start stirred := by
  rw [Schedule.request, advance]
  by_cases some_call : r.calls = []
  · -- Nothing has to be waited for.
    have settles : Waiting.start engine.handlers.contains (some (m.time + r.limit)) r.order
        r.calls = .settled [] := by
      rw [some_call]
      cases r.order <;> rfl
    rw [Option.map_some, settles]
    exact ⟨some [], rfl, Schedule.ends_of_nil (List.eq_nil_of_length_eq_zero
      (served.length.trans (congrArg List.length some_call)))⟩
  · obtain ⟨count, made, positive, inTurn, together, starts, mem⟩ :=
      Waiting.start_of_handled served.handled some_call (some (m.time + r.limit)) r.order
    rw [Option.map_some, starts]
    dsimp only
    split
    · -- No time is left for any call.
      next limit =>
      have limit : r.limit = 0 := Option.some.inj limit
      refine ⟨none, rfl, ?_⟩
      have ends : r.Ends none r.deadline := .late (by omega)
      rwa [Schedule.deadline, limit, Nat.add_zero] at ends
    · next ms nonzero limit =>
      have limit : r.limit = ms := Option.some.inj limit
      have within : count ≤ r.calls.length := by
        cases order : r.order with
        | inTurn =>
          rw [inTurn order]
          exact List.length_pos_iff.2 some_call
        | together => exact Nat.le_of_eq (together order)
      have set (a : Alarm) : a ∈ (m.makeCalls .front made).alarmsOf .front ↔
          ∃ slot call, slot < count ∧ r.calls[slot]? = some call ∧
            a = ⟨r.start, .front, .start slot call⟩ := by
        rw [mem_alarmsOf_makeCalls_iff, none_left, start]
        simp only [mem, List.not_mem_nil, or_false, and_assoc]
      rw [start, ← Schedule.deadline]
      refine ⟨Waiting.timed_start positive inTurn together ?_ set within, fun _ => rfl⟩
      rw [limit]
      exact Nat.pos_of_ne_zero nonzero
    · next limit => cases limit

/-- An agent that looks after its calls goes on as the schedule says. -/
theorem timed_resume (served : r.Served engine) {agent : Agent β} {m : Machine σ}
    {stirred stirred' : Prop} (timed : agent.Timed r f (m.alarmsOf .front) m.time stirred) :
    (resume engine .front false agent m).1.Timed r f
      ((resume engine .front false agent m).2.alarmsOf .front) m.time stirred' := by
  cases agent with
  | ready p => exact timed.elim
  | asleep wakeTime p => exact timed.elim
  | finished result => exact timed
  | calling w next =>
    obtain ⟨waits, answers⟩ := timed
    have early : ¬ (false || w.deadline.any fun time => decide (time ≤ m.time)) = true := by
      rw [waits.deadline]
      simpa using waits.early
    rw [resume]
    cases all : Waiting.all? w.replies with
    | none =>
      have missing := Waiting.all?_eq_none_iff.1 all
      rw [Waiting.poll_of_none all]
      dsimp only
      rw [if_neg early]
      exact ⟨waits.look missing, answers⟩
    | some replies =>
      have handled : ∀ call ∈ w.rest, engine.handlers.contains call.action.actionType = true :=
        fun call hcall => served.handled call (List.mem_of_mem_drop (waits.rest ▸ hcall))
      -- What was made is answered: that settles the request, or the next call is made.
      rcases Waiting.poll_of_handled all handled with
        ⟨settles, last⟩ | ⟨call, rest, left, well, goes⟩
      · rw [settles]
        dsimp only
        rw [answers]
        exact ⟨some replies, rfl, waits.ends served.length all last⟩
      · rw [goes]
        dsimp only
        rw [if_neg early]
        refine ⟨waits.goesOn all well left ?_ ?_, answers⟩
        · exact mem_alarmsOf_makeCalls_iff.2 (.inl ⟨_, _, List.mem_singleton_self _, rfl⟩)
        · intro a ha
          rcases mem_alarmsOf_makeCalls_iff.1 ha with ⟨slot, call', made, rfl⟩ | old
          · cases List.mem_singleton.1 made
            exact .inr rfl
          · exact .inl old

end Machine

/-! ## Steps -/

namespace Scene

open Machine (Acts Timely)

variable {s t : Scene σ β}

/-- The agent in front looks after its calls. -/
theorem timed_resumeFront (served : r.Served engine) (h : s.Holds (Agent.Timed r f)) :
    (s.resumeFront engine false).Holds (Agent.Timed r f) := by
  have acts : Acts engine .front s.machine (s.resumeFront engine false).machine :=
    Machine.acts_resume false s.front s.machine
  refine ⟨h.timely.of_front acts, ?_⟩
  rw [acts.spares.time]
  exact Machine.timed_resume served h.front

/-- An agent in front that is due is told that the time is up, and the calls take that long. -/
theorem timed_expire (served : r.Served engine) (h : s.Holds (Agent.Timed r f))
    (going : s.front.result? = none) (roundOver : ¬ (s.woken && s.isRoundOver) = true)
    (isDue : s.isDue = true) : (s.expire engine).Holds (Agent.Timed r f) := by
  obtain ⟨w, next, front, waits, answers⟩ := h.front.calling going
  have due : s.front.due = some r.deadline := by rw [front, Agent.due, waits.deadline]
  obtain ⟨after, now, timely⟩ := h.timely_atTime isDue due (Nat.le_of_lt waits.early)
  -- An agent that has been stirred lets no time pass.
  have missing : none ∈ w.replies := by
    by_contra complete
    obtain ⟨a, rest, alarms, rings⟩ :=
      Alone.exists_alarm_of_woken roundOver (waits.stirred complete).1
    have := after a (alarms ▸ List.mem_cons_self)
    have := waits.early
    omega
  have late : r.limit ≤ r.takes := waits.limit_le served.length missing fun a ha =>
    after a (Machine.mem_alarmsOf.1 ha).1
  have told : (s.expire engine).front = .finished (f none) ∧
      (s.expire engine).machine = (s.atTime r.deadline).machine.cancel .front := by
    simp only [Scene.expire, due, Option.getD_some, Scene.resumeFront]
    rw [show (s.atTime r.deadline).front = .calling w next from front, Machine.resume,
      Waiting.poll_of_none (Waiting.all?_eq_none_iff.2 missing)]
    simp only [Bool.true_or, if_true, answers]
    exact ⟨rfl, rfl⟩
  refine ⟨?_, ?_⟩
  · rw [told.2]
    have cancels : Acts engine .front (s.atTime r.deadline).machine _ := .single (.cancels _)
    exact timely.of_front cancels
  · rw [told.1, told.2]
    refine ⟨none, rfl, ?_⟩
    rw [show ((s.atTime r.deadline).machine.cancel .front).time = r.deadline from now]
    exact .late late

/-- The agent in front gets a reply at its time. -/
theorem timed_deliver {w : Waiting} {next : Option (List Reply) → Program β} {alarms : List Alarm}
    {stirred : Prop} (timely : s.machine.Timely) (front : s.front = .calling w next)
    (waits : w.Timed r alarms s.machine.time stirred)
    (answers : ∀ answer, next answer = .done (f answer)) {slot : Nat} {x : Lasting}
    (here : r.lastings[slot]? = some x) (ends : s.machine.time = r.turn slot + x.duration)
    (new : ∀ a ∈ s.machine.alarmsOf .front, a ∈ alarms)
    (kept : ∀ a ∈ alarms, a.Concerns slot ∨ a ∈ s.machine.alarmsOf .front) :
    (s.deliver .front slot x.reply).Holds (Agent.Timed r f) := by
  have filled : (s.deliver .front slot x.reply).front = .calling (w.fill slot x.reply) next := by
    simp only [Scene.deliver, Scene.wake, front, Agent.fill]
  refine ⟨timely, ?_⟩
  rw [filled]
  exact ⟨waits.fill here ends new kept rfl, answers⟩

/-- The handler of a call is called when its turn comes. -/
theorem timed_begin {w : Waiting} {next : Option (List Reply) → Program β} {alarms : List Alarm}
    (timely : s.machine.Timely) (front : s.front = .calling w next)
    (waits : w.Timed r alarms s.machine.time (s.woken = true))
    (answers : ∀ answer, next answer = .done (f answer)) {slot : Nat} {call : Invocation}
    {handler : Handler σ} {started : Call σ}
    (found : Assoc.find? call.action.actionType engine.handlers = some handler)
    (starts : handler call s.machine.supply s.machine.world = started)
    (here : r.lastings[slot]? = some ⟨started.duration, started.reply⟩)
    (turn : s.machine.time = r.turn slot)
    (new : ∀ a ∈ s.machine.alarmsOf .front, a ∈ alarms)
    (kept : ∀ a ∈ alarms, a.Concerns slot ∨ a ∈ s.machine.alarmsOf .front) :
    (s.begin engine .front slot call).Holds (Agent.Timed r f) := by
  refine .begin found starts timely ?_ ?_
  · intro atOnce
    rw [front]
    refine ⟨waits.fill here ?_ new kept rfl, answers⟩
    rw [atOnce, turn, Nat.add_zero]
  · intro alarm sets
    have scheduled : alarm.Scheduled r := by
      rw [sets]
      exact ⟨_, here, rfl, congrArg (· + started.duration) turn⟩
    have concerns : alarm.Concerns slot := by
      rw [sets]
      exact .inr ⟨_, rfl⟩
    have own : alarm.owner = .front := by rw [sets]
    rw [front]
    refine ⟨waits.run scheduled concerns (Machine.mem_alarmsOf_setAlarm.2 (.inl ⟨rfl, own⟩)) ?_ ?_,
      answers⟩
    · exact fun a ha => (Machine.mem_alarmsOf_setAlarm.1 ha).imp And.left (new a)
    · exact fun a ha => (kept a ha).imp_right fun old => Machine.mem_alarmsOf_setAlarm.2 (.inr old)

/-- One of the alarms of the agent in front goes off. -/
theorem timed_goOff (served : r.Served engine) {a : Alarm} {alarms : List Alarm}
    (going : s.front.result? = none) (timely : s.machine.Timely) (own : a.owner = .front)
    (now : s.machine.time = a.time)
    (set : ∀ x, x ∈ alarms ↔ x = a ∨ x ∈ s.machine.alarmsOf .front)
    (timed : s.front.Timed r f alarms s.machine.time (s.woken = true))
    (fits : ∀ c ∈ a.timedCalls engine s.machine, r.Fits c) :
    (s.goOff engine a).Holds (Agent.Timed r f) := by
  have new : ∀ x ∈ s.machine.alarmsOf .front, x ∈ alarms := fun x hx => (set x).2 (.inr hx)
  have kept {slot : Nat} (concerns : a.Concerns slot) : ∀ x ∈ alarms,
      x.Concerns slot ∨ x ∈ s.machine.alarmsOf .front := fun x hx =>
    ((set x).1 hx).imp_left fun (same : x = a) => same ▸ concerns
  obtain ⟨w, next, front, waits, answers⟩ := timed.calling going
  have scheduled := waits.scheduled a ((set a).2 (.inl rfl))
  obtain ⟨time, owner, signal⟩ := a
  cases own
  cases now
  cases signal with
  | wake => exact scheduled.elim
  | start slot call =>
    obtain ⟨asked, turn⟩ := scheduled
    obtain ⟨handler, found⟩ :=
      Option.isSome_iff_exists.1 (served.handled call (List.mem_of_getElem? asked))
    have here := fits _ (by
      simp only [Alarm.timedCalls, found]
      exact List.mem_singleton_self _) asked
    exact timed_begin timely front waits answers found rfl here turn new (kept (.inl ⟨_, rfl⟩))
  | finish slot reply =>
    obtain ⟨x, here, rfl, ends⟩ := scheduled
    exact timed_deliver timely front waits answers here ends new (kept (.inr ⟨_, rfl⟩))

/-- A call is made when its turn comes. -/
theorem onTime_timedCalls (h : s.Holds (Agent.Timed r f)) (going : s.front.result? = none)
    {a : Alarm} (set : a ∈ s.machine.alarms) (early : a.time < r.deadline) :
    ∀ c ∈ a.timedCalls engine s.machine, r.OnTime c := by
  intro c hc
  obtain ⟨w, next, -, waits, -⟩ := h.front.calling going
  have now : max s.machine.time a.time = a.time := Nat.max_eq_right (h.timely.due a set)
  unfold Alarm.timedCalls at hc
  split at hc
  · next slot call own signal =>
    have scheduled := waits.scheduled a (Machine.mem_alarmsOf.2 ⟨set, own⟩)
    unfold Alarm.Scheduled at scheduled
    rw [signal] at scheduled
    split at hc
    · obtain rfl := List.mem_singleton.1 hc
      unfold Schedule.OnTime
      rw [now]
      exact ⟨scheduled.1, scheduled.2, early⟩
    · cases hc
  · cases hc

/-- The next alarm goes off before the time is up. -/
theorem timed_tick (served : r.Served engine) (h : s.Holds (Agent.Timed r f))
    (going : s.front.result? = none) (roundOver : ¬ (s.woken && s.isRoundOver) = true)
    {a : Alarm} {rest : List Alarm} (alarms : s.machine.alarms = a :: rest)
    (early : a.time < r.deadline) (fits : ∀ c ∈ a.timedCalls engine s.machine, r.Fits c)
    (ticks : s.tick engine = some t) : t.Holds (Agent.Timed r f) := by
  have set : a ∈ s.machine.alarms := by
    rw [alarms]
    exact List.mem_cons_self
  have after : s.machine.time ≤ a.time := h.timely.due a set
  obtain ⟨w, next, front, waits, answers⟩ := h.front.calling going
  have lasts : s.front.Timed r f (s.machine.alarmsOf .front) a.time (s.woken = true) := by
    rw [front]
    refine ⟨waits.later after early ?_, answers⟩
    intro woken
    obtain ⟨b, others, first, now⟩ := Alone.exists_alarm_of_woken roundOver woken
    cases alarms.symm.trans first
    exact Nat.le_antisymm now after
  refine h.tick ticks ?_ ?_
  · rw [alarms]
    rintro _ ⟨⟩
    exact lasts
  · intro b others turns first own timely
    cases alarms.symm.trans first
    refine timed_goOff served going timely own rfl (mem_alarmsOf_front_iff alarms own a.time)
      lasts ?_
    have same : a.timedCalls engine { s.machine with time := a.time, alarms := rest } =
        a.timedCalls engine s.machine := by
      simp only [Alarm.timedCalls, Nat.max_self, Nat.max_eq_right after]
    rw [same]
    exact fits

/-- Whatever the machine does next, the agent in front is answered on schedule, and calls are made
when their turn comes. -/
theorem timed_next (served : r.Served engine) (h : s.Holds (Agent.Timed r f))
    (going : s.front.result? = none) (fits : ∀ c ∈ s.timedCalls engine, r.Fits c) :
    (s.next engine).Holds (Agent.Timed r f) ∧ ∀ c ∈ s.timedCalls engine, r.OnTime c := by
  unfold Scene.timedCalls at fits ⊢
  unfold Scene.next
  by_cases roundOver : (s.woken && s.isRoundOver) = true
  · rw [if_pos roundOver, roundOver, Bool.true_or, if_pos rfl]
    exact ⟨timed_resumeFront served h, List.forall_mem_nil _⟩
  · by_cases isDue : s.isDue = true
    · rw [if_neg roundOver, if_pos isDue, isDue, Bool.or_true, if_pos rfl]
      exact ⟨timed_expire served h going roundOver isDue, List.forall_mem_nil _⟩
    · have neither : ¬ ((s.woken && s.isRoundOver) || s.isDue) = true := by simp_all
      rw [if_neg neither] at fits ⊢
      rw [if_neg roundOver, if_neg isDue]
      cases alarms : s.machine.alarms with
      | nil => simp [Scene.isDue, alarms] at isDue
      | cons a rest =>
        rw [alarms] at fits
        obtain ⟨w, next, front, waits, -⟩ := h.front.calling going
        have early : a.time < r.deadline := by
          simpa [Scene.isDue, alarms, front, Agent.due, waits.deadline] using isDue
        cases ticks : s.tick engine with
        | none => simp [Scene.tick, alarms] at ticks
        | some t =>
          have set : a ∈ s.machine.alarms := by
            rw [alarms]
            exact List.mem_cons_self
          exact ⟨timed_tick served h going roundOver alarms early fits ticks,
            onTime_timedCalls h going set early⟩

end Scene

/-! ## Runs -/

/-- A program that asks for calls of a schedule is answered as the schedule says, and every call is
made when its turn comes, before the time is up. -/
theorem Schedule.ends_of_await (served : r.Served engine) {m : Machine σ} (orderly : m.Orderly)
    (start : m.time = r.start) (fits : ∀ c ∈ m.timeline engine (r.request f), r.Fits c) :
    (∃ answer, (m.await engine (r.request f)).1 = f answer ∧
      r.Ends answer (m.await engine (r.request f)).2.time) ∧
      ∀ c ∈ m.timeline engine (r.request f), r.OnTime c := by
  have begun := Scene.Holds.start engine (C := Agent.Timed r f) orderly (start ▸
    Machine.timed_advance served (m := m.cancel .front) start (Machine.alarmsOf_cancel .front m))
  obtain ⟨⟨last, ends, front, machine⟩, onTime⟩ :=
    Scene.run_keeps_timeline (fun s h going => Scene.timed_next served h going) begun fits
  refine ⟨?_, onTime⟩
  have answered := ends.front
  rw [front, machine] at answered
  exact answered

/-! ## Sleep -/

/-- The agent sleeps until a time, or has come to its result at this time. -/
def Agent.Sleeps (wakeTime : Nat) (result : β) : Agent β → List Alarm → Nat → Prop → Prop
  | .asleep time p, alarms, now, stirred =>
    time = wakeTime ∧ p = .done result ∧ alarms = [] ∧ now ≤ wakeTime ∧ ¬ stirred
  | .finished other, _, now, _ => other = result ∧ now = wakeTime
  | _, _, _, _ => False

theorem Scene.sleeps_next {s : Scene σ β} {wakeTime : Nat} {result : β}
    (h : s.Holds (Agent.Sleeps wakeTime result)) (going : s.front.result? = none) :
    (s.next engine).Holds (Agent.Sleeps wakeTime result) := by
  have sleeps := h.front
  cases front : s.front with
  | ready p =>
    rw [front] at sleeps
    exact sleeps.elim
  | calling w next =>
    rw [front] at sleeps
    exact sleeps.elim
  | finished other =>
    rw [front] at going
    cases going
  | asleep time p =>
    rw [front] at sleeps
    obtain ⟨rfl, rfl, none_set, before, quiet⟩ := sleeps
    have roundOver : ¬ (s.woken && s.isRoundOver) = true := by simp_all
    have due : s.front.due = some time := by rw [front, Agent.due]
    unfold Scene.next
    rw [if_neg roundOver]
    -- Until its time has come, only the background does anything, as no alarm is the agent's own.
    by_cases isDue : s.isDue = true
    · obtain ⟨-, now, timely⟩ := h.timely_atTime isDue due before
      have ends : s.expire engine =
          ⟨(s.atTime time).machine, .finished result, false, 0⟩ := by
        simp only [Scene.expire, due, Option.getD_some, Scene.resumeFront]
        rw [show (s.atTime time).front = .asleep time (.done result) from front]
        rfl
      rw [if_pos isDue, ends]
      exact ⟨timely, rfl, now⟩
    · rw [if_neg isDue]
      cases ticks : s.tick engine with
      | none => exact h
      | some t =>
        refine h.tick ticks ?_ ?_
        · intro a ha
          obtain ⟨rest, alarms⟩ := List.head?_eq_some_iff.1 ha
          have early : a.time < time := by simpa [Scene.isDue, alarms, due] using isDue
          rw [front]
          exact ⟨rfl, rfl, none_set, Nat.le_of_lt early, quiet⟩
        · intro a rest turns alarms own
          have mine : a ∈ s.machine.alarmsOf .front :=
            Machine.mem_alarmsOf.2 ⟨alarms ▸ List.mem_cons_self, own⟩
          rw [none_set] at mine
          cases mine

/-- A program that sleeps has its result when it has slept, whatever goes on in the background. -/
theorem Machine.await_sleep {m : Machine σ} (orderly : m.Orderly) (ms : Nat) (result : β) :
    (m.await engine (.sleep ms (.done result))).1 = result ∧
      (m.await engine (.sleep ms (.done result))).2.time = m.time + Sleep.lasting ms := by
  have asleep : (advance engine .front (.sleep ms (.done result)) (m.cancel .front)).1.Sleeps
      (m.time + Sleep.lasting ms) result
      ((advance engine .front (.sleep ms (.done result)) (m.cancel .front)).2.alarmsOf .front)
      m.time (false = true) := by
    rw [advance]
    split
    · next atOnce =>
      rw [atOnce]
      exact ⟨rfl, rfl⟩
    · exact ⟨rfl, rfl, alarmsOf_cancel .front m, Nat.le_add_right _ _, Bool.false_ne_true⟩
  have begun := Scene.Holds.start engine orderly asleep
  obtain ⟨last, ends, front, machine⟩ :=
    Scene.run_keeps (fun s h going => Scene.sleeps_next h going) begun
  have slept := ends.front
  rw [front, machine] at slept
  exact slept

/-- An agent in front sleeps as long as it asks to, if that is not too long. -/
theorem Machine.sleeps_of_await {m : Machine σ} (orderly : m.Orderly) {ms : Nat}
    (within : ms ≤ Sleep.longest) (result : β) :
    (m.await engine (.sleep ms (.done result))).1 = result ∧
      (m.await engine (.sleep ms (.done result))).2.time = m.time + ms := by
  have slept : _ ∧ (m.await engine (.sleep ms (.done result))).2.time = _ :=
    Machine.await_sleep orderly ms result
  rwa [Sleep.lasting_of_le within] at slept

end EventFlow
