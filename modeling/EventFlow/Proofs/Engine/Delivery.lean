import EventFlow.Proofs.Engine.Interleaving
import EventFlow.Proofs.Engine.Isolation
import EventFlow.Proofs.Engine.Kindred
import EventFlow.Proofs.Store.Ledger

/-!
# Agents deliver

`Program.Delivers P p` says that `p` ends by recording an execution with the property `P`, which is
also its result, and that it waits for no call without a limit. Driving a workflow delivers a
terminal execution with the identifier that it has begun with (`Engine.delivers_drive`). Whatever
happens to a machine, an agent that delivers stays so, with an alarm that will wake it, and at most
one execution is recorded (`Happens.becomes`, `Happens.ledger`). So no agent is left behind: who
waits for one in the background is told its result (`outcome?_join`). Driving is `Engine.drive`, in
`EventFlow.Engine.Run`; the waiting for an agent in the background is `Machine.join`, in
`EventFlow.Engine.Machine`.
-/

set_option autoImplicit false

open Relation (ReflTransGen)

namespace EventFlow

variable {σ α β : Type}

/-- The program ends by recording an execution with a property, which is then its result. Its calls
have limits. -/
def Program.Delivers (P : Execution → Prop) : Program Execution → Prop
  | .done _ => False
  | .clock next => ∀ time, (next time).Delivers P
  | .collections next => ∀ c, (next c).Delivers P
  | .record e next => P e ∧ next = .done e
  | .sleep _ next => next.Delivers P
  | .call limit _ _ next => limit.isSome ∧ ∀ answer, (next answer).Delivers P

/-- Whoever delivers what a kindred program ends with delivers. -/
theorem Program.Kindred.delivers {P : Execution → Prop} {R : α → β → Prop} {p : Program α}
    {q : Program β} (h : p.Kindred R q) {f : α → Program Execution}
    (hf : ∀ a b, R a b → (f a).Delivers P) : (p >>= f).Delivers P := by
  change (p.bind f).Delivers P
  induction h with
  | done h => exact hf _ _ h
  | clock _ ih => exact fun time => ih time time
  | sleep ms _ ih => exact ih
  | call limit order calls _ ih => exact ⟨rfl, ih⟩

/-- The execution is over, and has an identifier. -/
def Execution.Ended (id : Uuid) (e : Execution) : Prop := e.id = id ∧ e.status.isTerminal = true

namespace Engine

/-- What is left of a run when its plan has been made delivers an execution. -/
theorem delivers_driven (engine : Engine σ) (w : Workflow) (c : Collections) {e : Execution}
    (running : e.status = .running) : (engine.driven e w c).Delivers (Execution.Ended e.id) :=
  (engine.kindred_run _ ⟨.refl e, rfl, rfl, running⟩).delivers fun _ _ h =>
    ⟨⟨h.own, h.terminal⟩, rfl⟩

/-- Driving a workflow delivers a terminal execution with the identifier of the first. -/
theorem delivers_drive (engine : Engine σ) (w : Workflow) {e : Execution}
    (running : e.status = .running) : (engine.drive w e).Delivers (Execution.Ended e.id) :=
  fun c => engine.delivers_driven w c running

end Engine

/-- The agent will deliver, and one of its alarms is set to wake it when it is due. -/
def Agent.Delivers (P : Execution → Prop) (alarms : List Alarm) : Agent Execution → Prop
  | .ready p => p.Delivers P ∧ ∃ a ∈ alarms, a.signal = .wake
  | .asleep wakeTime p => p.Delivers P ∧ ∃ a ∈ alarms, a.signal = .wake ∧ a.time = wakeTime
  | .calling waiting next => (∀ answer, (next answer).Delivers P) ∧
    ∃ a ∈ alarms, a.signal = .wake ∧ waiting.deadline = some a.time
  | .finished e => P e

namespace Agent.Delivers

variable {P : Execution → Prop} {alarms alarms' : List Alarm} {agent : Agent Execution}

/-- Only the alarms that wake the agent matter. -/
theorem mono (h : agent.Delivers P alarms)
    (kept : ∀ a ∈ alarms, a.signal = .wake → a ∈ alarms') : agent.Delivers P alarms' := by
  cases agent with
  | ready p =>
    obtain ⟨delivers, a, ha, wakes⟩ := h
    exact ⟨delivers, a, kept a ha wakes, wakes⟩
  | asleep wakeTime p =>
    obtain ⟨delivers, a, ha, wakes, due⟩ := h
    exact ⟨delivers, a, kept a ha wakes, wakes, due⟩
  | calling waiting next =>
    obtain ⟨delivers, a, ha, wakes, due⟩ := h
    exact ⟨delivers, a, kept a ha wakes, wakes, due⟩
  | finished e => exact h

/-- An agent that is told a reply delivers as before. -/
theorem fill (h : agent.Delivers P alarms) (slot : Nat) (reply : Reply) :
    (agent.fill slot reply).Delivers P alarms := by
  cases agent <;> exact h

/-- An agent that has ended has delivered. -/
theorem of_result {e : Execution} (h : agent.Delivers P alarms) (ended : agent.result? = some e) :
    P e := by
  cases agent with
  | finished result =>
    cases ended
    exact h
  | ready p => cases ended
  | asleep wakeTime p => cases ended
  | calling waiting next => cases ended

/-- An agent that has not ended has an alarm. -/
theorem exists_alarm (h : agent.Delivers P alarms) (going : agent.result? = none) :
    ∃ a, a ∈ alarms := by
  cases agent with
  | ready p => exact ⟨_, h.2.choose_spec.1⟩
  | asleep wakeTime p => exact ⟨_, h.2.choose_spec.1⟩
  | calling waiting next => exact ⟨_, h.2.choose_spec.1⟩
  | finished e => cases going

end Agent.Delivers

/-- To look what has come in moves no deadline. -/
theorem Waiting.deadline_of_poll {contains : String → Bool} {w w' : Waiting}
    {made : List (Nat × Invocation)} (h : w.poll contains = .pending w' made) :
    w'.deadline = w.deadline := by
  unfold poll at h
  split at h
  · cases h; rfl
  · split at h
    · cases h
    · split at h
      · cases h
      · split at h
        · cases h; rfl
        · cases h

/-- Calls are waited for until the deadline they were made with. -/
theorem Waiting.deadline_of_start {contains : String → Bool} {deadline : Option Nat}
    {order : CallOrder} {calls : List Invocation} {w : Waiting} {made : List (Nat × Invocation)}
    (h : start contains deadline order calls = .pending w made) : w.deadline = deadline := by
  unfold start at h
  split at h
  · exact deadline_of_poll h
  · dsimp only at h
    split at h
    · cases h
    · cases h; rfl

namespace Machine

variable {engine : Engine σ} {P : Execution → Prop} {m m' : Machine σ} {i : Nat}

/-- Who makes calls keeps the alarms it has. -/
theorem mem_alarmsOf_makeCalls {owner : Owner} (made : List (Nat × Invocation)) {m : Machine σ}
    {a : Alarm} (h : a ∈ m.alarmsOf owner) : a ∈ (m.makeCalls owner made).alarmsOf owner := by
  induction made generalizing m with
  | nil => exact h
  | cons c rest ih => exact ih (mem_alarmsOf_setAlarm.2 (.inr h))

/-- Calls leave the store alone until handlers have ended. -/
theorem store_makeCalls (owner : Owner) (made : List (Nat × Invocation)) (m : Machine σ) :
    (m.makeCalls owner made).store = m.store := by
  induction made generalizing m with
  | nil => rfl
  | cons c rest ih => exact ih _

/-- Who waits for a limit has an alarm that wakes it. -/
theorem mem_alarmsOf_setTimer (i time : Nat) (m : Machine σ) :
    ⟨time, .background i, .wake⟩ ∈
      (m.setTimer (.background i) time).alarmsOf (.background i) :=
  mem_alarmsOf_setAlarm.2 (.inl ⟨rfl, rfl⟩)

/-- How an agent may have gone on that delivers: it has ended and recorded its execution, or it
waits for something, and has not touched the store. -/
structure WentOn (engine : Engine σ) (P : Execution → Prop) (i : Nat) (m : Machine σ)
    (agent : Agent Execution) (m' : Machine σ) : Prop where
  delivers : agent.Delivers P (m'.alarmsOf (.background i))
  recorded : ∀ e, agent.result? = some e →
    m'.store = ((engine.disk.facing m.world m.store).record e).2
  untouched : agent.result? = none → m'.store = m.store

/-- An agent that delivers goes on until it waits with an alarm, or has recorded its execution. The
induction is on the program. -/
theorem wentOn_advance {i : Nat} {p : Program Execution} (h : p.Delivers P) (m : Machine σ) :
    WentOn engine P i m (advance engine (.background i) p m).1
      (advance engine (.background i) p m).2 := by
  induction p generalizing m with
  | done result => exact h.elim
  | clock next ih =>
    have later := ih m.supply.now.1 (h _) { m with supply := m.supply.now.2 }
    exact ⟨later.delivers, later.recorded, later.untouched⟩
  | collections next ih => exact ih _ (h _) m
  | record e next ih =>
    obtain ⟨holds, rfl⟩ := h
    exact ⟨holds, fun _ same => by cases same; rfl, fun going => by cases going⟩
  | sleep ms next ih =>
    rw [advance]
    split
    · exact ih h m
    · exact ⟨⟨h, _, mem_alarmsOf_setTimer _ _ _, rfl, rfl⟩, (fun _ ended => by cases ended),
        fun _ => rfl⟩
  | call limit order calls next ih =>
    obtain ⟨limited, next_delivers⟩ := h
    obtain ⟨limit, rfl⟩ := Option.isSome_iff_exists.1 limited
    rw [advance]
    split
    · exact ih _ (next_delivers _) m
    · next waiting made begun =>
      split
      · exact ih _ (next_delivers _) m
      · next same =>
        cases same
        exact ⟨⟨next_delivers, _, mem_alarmsOf_setTimer _ _ _, rfl,
          Waiting.deadline_of_start begun⟩, (fun _ ended => by cases ended),
          fun _ => store_makeCalls _ made m⟩
      · next same => cases same

/-- An agent that one of its alarms wakes goes on if it is due; if not, the alarm that it waits for
is another one. -/
theorem wentOn_resume {i : Nat} {agent : Agent Execution} {a : Alarm} (due : a.time ≤ m.time)
    (h : agent.Delivers P (a :: m.alarmsOf (.background i))) (going : agent.result? = none) :
    WentOn engine P i m (resume engine (.background i) false agent m).1
      (resume engine (.background i) false agent m).2 := by
  cases agent with
  | ready p => exact wentOn_advance h.1 m
  | asleep wakeTime p =>
    obtain ⟨delivers, b, hb, wakes, hbtime⟩ := h
    rw [resume, Bool.false_or]
    split
    · exact wentOn_advance delivers m
    · next early =>
      refine ⟨⟨delivers, b, (List.mem_cons.1 hb).resolve_left ?_, wakes, hbtime⟩,
        (fun _ ended => by cases ended), fun _ => rfl⟩
      rintro rfl
      exact early (decide_eq_true (hbtime ▸ due))
  | calling waiting next =>
    obtain ⟨delivers, b, hb, wakes, deadline⟩ := h
    have cancelled (answer : Option (List Reply)) :
        WentOn engine P i m (advance engine (.background i) (next answer) (m.cancel _)).1
          (advance engine (.background i) (next answer) (m.cancel _)).2 :=
      have later := wentOn_advance (delivers answer) (m.cancel (.background i))
      ⟨later.delivers, later.recorded, later.untouched⟩
    simp only [resume, Bool.false_or]
    split
    · exact cancelled _
    · next waiting' made polled =>
      split
      · exact cancelled none
      · next early =>
        refine ⟨⟨delivers, b, mem_alarmsOf_makeCalls made ((List.mem_cons.1 hb).resolve_left ?_),
          wakes, (Waiting.deadline_of_poll polled).trans deadline⟩,
          (fun _ ended => by cases ended), fun _ => store_makeCalls _ made m⟩
        rintro rfl
        rw [Waiting.deadline_of_poll polled, deadline] at early
        exact early (decide_eq_true due)
  | finished e => cases going

/-! ## What happens to one agent -/

/-- What happens is no matter of an agent in the background: it and its alarms stay, and none of
these is missed. -/
structure Passes (i : Nat) (m m' : Machine σ) : Prop where
  agent : m'.agents[i]? = m.agents[i]?
  alarms : m'.alarmsOf (.background i) = m.alarmsOf (.background i)
  later : m.time ≤ m'.time
  first : ∀ a ∈ m.alarmsOf (.background i), m'.time ≤ a.time

/-- An alarm of the agent goes off, one of those that are due first. -/
structure Rings (engine : Engine σ) (i : Nat) (a : Alarm) (others : List Alarm)
    (m m' : Machine σ) : Prop where
  own : a.owner = .background i
  alarms : ∀ b, b ∈ m.alarmsOf (.background i) ↔ b = a ∨ b ∈ others ∧ b.owner = .background i
  due : m.time ≤ a.time
  first : ∀ b ∈ m.alarmsOf (.background i), a.time ≤ b.time
  after : m' = Scene.onMachine (Scene.goOff engine a) { m with time := a.time, alarms := others }

/-- An alarm of the background that is due first rings for its agent. -/
theorem Orderly.rings_goOff (h : m.Orderly) {a : Alarm} {before after : List Alarm}
    (alarms : m.alarms = before ++ a :: after) (own : a.owner = .background i)
    (first : ∀ b ∈ m.alarms, b.owner ≠ .front → a.time ≤ b.time) :
    m.Rings engine i a (before ++ after) (m.goOff engine a (before ++ after)) := by
  have due : m.time ≤ a.time := h.due a (by rw [alarms]; simp) (by rw [own]; nofun)
  refine ⟨own, fun b => ?_, due, fun b hb => ?_, by rw [goOff, Nat.max_eq_right due]⟩
  · rw [mem_alarmsOf, alarms]
    simp only [List.mem_append, List.mem_cons]
    constructor
    · rintro ⟨hb | rfl | ha, hown⟩
      · exact .inr ⟨.inl hb, hown⟩
      · exact .inl rfl
      · exact .inr ⟨.inr ha, hown⟩
    · rintro (rfl | ⟨hb | ha, hown⟩)
      · exact ⟨.inr (.inl rfl), own⟩
      · exact ⟨.inl hb, hown⟩
      · exact ⟨.inr (.inr ha), hown⟩
  · obtain ⟨member, hown⟩ := mem_alarmsOf.1 hb
    exact first b member (by rw [hown]; nofun)

/-- What happens is no matter of an agent, or is that one of its alarms goes off. -/
theorem Happens.passes_or_rings (step : m.Happens engine m') (h : m.Orderly) {i : Nat}
    (there : i < m.agents.length) :
    m.Passes i m' ∨ ∃ a others, m.Rings engine i a others m' := by
  have unmissed : ∀ a ∈ m.alarmsOf (.background i), m.time ≤ a.time := fun a ha => by
    obtain ⟨member, own⟩ := mem_alarmsOf.1 ha
    exact h.due a member (by rw [own]; nofun)
  cases step with
  | @goesOff a before after alarms background first =>
    have first' : ∀ b ∈ m.alarmsOf (.background i), a.time ≤ b.time := fun b hb => by
      obtain ⟨member, own⟩ := mem_alarmsOf.1 hb
      exact first b member (by rw [own]; nofun)
    have due : m.time ≤ a.time := h.due a (by rw [alarms]; simp) background
    by_cases own : a.owner = .background i
    · exact .inr ⟨a, before ++ after, h.rings_goOff alarms own first⟩
    · -- The alarm is one of another agent.
      obtain ⟨j, hj⟩ := exists_background background
      have acts : Acts engine (.background j) _ _ := acts_goOff hj (before ++ after) m
      have spares := acts.spares
      have apart : .background j ≠ Owner.background i := fun same => own (hj.trans same)
      refine .inl ⟨spares.agents i apart, (spares.alarms _ apart.symm).trans ?_, ?_, fun b hb => ?_⟩
      · simp [alarmsOf, alarms, own]
      · rw [spares.time]
        exact Nat.le_max_left _ _
      · rw [spares.time]
        exact Nat.max_le.2 ⟨unmissed b hb, first' b hb⟩
  | requested request supply => exact .inl ⟨rfl, rfl, Nat.le_refl _, unmissed⟩
  | recorded e => exact .inl ⟨rfl, rfl, Nat.le_refl _, unmissed⟩
  | launched w data =>
    refine .inl ⟨List.getElem?_append_left there, alarmsOf_setAlarm_of_ne ?_ _, Nat.le_refl _,
      unmissed⟩
    rintro same
    cases same
    exact absurd there (Nat.lt_irrefl _)
  | aside agents store alarms ordered later first =>
    refine .inl ⟨by rw [agents], alarms i, later, fun a ha => ?_⟩
    obtain ⟨member, own⟩ := mem_alarmsOf.1 ha
    exact first a member (by rw [own]; nofun)

/-- What it means for the machine alone that a reply is delivered to an agent of the background. -/
theorem onMachine_deliver (i slot : Nat) (reply : Reply) (m : Machine σ) :
    Scene.onMachine (Scene.deliver (.background i) slot reply) m =
      if m.alarms.any (Alarm.wakes (.background i) m.time) then
        { m with agents := m.agents.modify i (·.fill slot reply) }
      else
        setAlarm ⟨m.time, .background i, .wake⟩
          { m with agents := m.agents.modify i (·.fill slot reply) } := by
  unfold Scene.onMachine Scene.deliver Scene.wake
  dsimp only
  split <;> rfl

/-- What it means for the machine alone that an agent of the background calls a handler. -/
theorem onMachine_begin (engine : Engine σ) (i slot : Nat) (call : Invocation) (m : Machine σ) :
    Scene.onMachine (Scene.begin engine (.background i) slot call) m =
      match Assoc.find? call.action.actionType engine.handlers with
      | none => Scene.onMachine (Scene.deliver (.background i) slot (Waiting.refusal call)) m
      | some handler =>
        let started := handler call m.supply m.world
        let reply := started.reply.mapError DispatchError.handler
        let m := { m with world := started.world, supply := started.supply }
        if started.duration = 0 then Scene.onMachine (Scene.deliver (.background i) slot reply) m
        else m.setAlarm ⟨m.time + started.duration, .background i, .finish slot reply⟩ := by
  unfold Scene.begin
  cases Assoc.find? call.action.actionType engine.handlers with
  | none => rfl
  | some handler =>
    simp only [Scene.onMachine]
    split
    · rw [Scene.machine_deliver]
    · rfl

/-- What happens to an agent while it waits: a reply may come, and alarms may be added. -/
structure Fills (i : Nat) (m m' : Machine σ) : Prop where
  store : m'.store = m.store
  agent : m'.agents[i]? = m.agents[i]? ∨
    ∃ slot reply, m'.agents[i]? = m.agents[i]?.map (·.fill slot reply)
  alarms : ∀ a ∈ m.alarmsOf (.background i), a ∈ m'.alarmsOf (.background i)

/-- A reply fills a slot of the agent, and does nothing else. -/
theorem fills_deliver (i slot : Nat) (reply : Reply) (m : Machine σ) :
    m.Fills i (Scene.onMachine (Scene.deliver (.background i) slot reply) m) := by
  rw [onMachine_deliver]
  have filled : (m.agents.modify i (·.fill slot reply))[i]? =
      m.agents[i]?.map (·.fill slot reply) := by simp
  split
  · exact ⟨rfl, .inr ⟨slot, reply, filled⟩, fun _ ha => ha⟩
  · exact ⟨rfl, .inr ⟨slot, reply, filled⟩, fun _ ha => mem_alarmsOf_setAlarm.2 (.inr ha)⟩

/-- A handler that is called fills a slot of the agent, now or when its alarm goes off. -/
theorem fills_begin (i slot : Nat) (call : Invocation) (m : Machine σ) :
    m.Fills i (Scene.onMachine (Scene.begin engine (.background i) slot call) m) := by
  rw [onMachine_begin]
  split
  · exact fills_deliver i slot _ m
  · dsimp only
    split
    · obtain ⟨store, agent, alarms⟩ := fills_deliver i slot _ _
      exact ⟨store, agent, alarms⟩
    · exact ⟨rfl, .inl rfl, fun _ ha => mem_alarmsOf_setAlarm.2 (.inr ha)⟩

/-- What becomes of an agent that delivers, when something happens: it delivers still, and if it has
ended now, then its execution has been recorded, and nothing else. -/
structure Becomes (engine : Engine σ) (P : Execution → Prop) (i : Nat) (agent : Agent Execution)
    (m m' : Machine σ) (agent' : Agent Execution) : Prop where
  there : m'.agents[i]? = some agent'
  delivers : agent'.Delivers P (m'.alarmsOf (.background i))
  kept : ∀ e, agent.result? = some e → agent'.result? = some e
  recorded : ∀ e, agent.result? = none → agent'.result? = some e →
    m'.store = ((engine.disk.facing m.world m.store).record e).2

/-- An alarm that is none to wake fills a slot of its agent. -/
theorem Rings.fills {a : Alarm} {others : List Alarm} (rings : m.Rings engine i a others m')
    (notWake : a.signal ≠ .wake) :
    Fills i { m with time := a.time, alarms := others } m' := by
  obtain ⟨time, owner, signal⟩ := a
  obtain ⟨rfl, -, -, -, rfl⟩ := rings
  cases signal with
  | wake => exact absurd rfl notWake
  | start slot call => exact fills_begin _ slot call _
  | finish slot reply => exact fills_deliver _ slot reply _

/-- An agent that one of its alarms wakes goes on. -/
theorem Rings.resumes {a : Alarm} {others : List Alarm} {agent : Agent Execution}
    (rings : m.Rings engine i a others m') (wakes : a.signal = .wake)
    (there : m.agents[i]? = some agent) :
    m' = { (resume engine (.background i) false agent
        { m with time := a.time, alarms := others }).2 with
      agents := m.agents.set i (resume engine (.background i) false agent
        { m with time := a.time, alarms := others }).1 } := by
  obtain ⟨time, owner, signal⟩ := a
  obtain ⟨rfl, -, -, -, rfl⟩ := rings
  cases wakes
  have agents : (resume engine (.background i) false agent
      { m with time := time, alarms := others }).2.agents = m.agents :=
    (Machine.resume_remaining engine (.background i) false agent _).1
  simp only [Scene.onMachine, Scene.goOff, Scene.resumeBackground, there, agents]

/-- What becomes of an agent whose alarm goes off: it delivers as before, and if it has ended now,
its execution has been recorded and nothing else. -/
theorem Rings.becomes {a : Alarm} {others : List Alarm} {agent : Agent Execution}
    (rings : m.Rings engine i a others m') (there : m.agents[i]? = some agent)
    (delivers : agent.Delivers P (m.alarmsOf (.background i))) :
    ∃ agent', Becomes engine P i agent m m' agent' ∧
      (agent.result? = agent'.result? → m'.store = m.store) := by
  have alarms : ∀ b ∈ m.alarmsOf (.background i), b ∈ a :: alarmsOf (.background i)
      { m with time := a.time, alarms := others } := fun b hb => by
    rw [List.mem_cons, mem_alarmsOf]
    exact (rings.alarms b).1 hb
  -- An alarm that wakes makes the agent go on; any other brings it a reply at most.
  by_cases wakes : a.signal = .wake
  · have after := rings.resumes wakes there
    have inside : i < m.agents.length := (List.getElem?_eq_some_iff.1 there).1
    cases ended : agent.result? with
    | some e =>
      cases agent with
      | finished e' =>
        refine ⟨.finished e', ⟨?_, delivers, fun _ h => h, nofun⟩, fun _ => by rw [after]; rfl⟩
        rw [after]
        exact List.getElem?_set_self inside
      | ready p => cases ended
      | asleep wakeTime p => cases ended
      | calling waiting next => cases ended
    | none =>
      have went : WentOn engine P i { m with time := a.time, alarms := others } _ _ :=
        wentOn_resume (Nat.le_refl _) (delivers.mono fun b hb _ => alarms b hb) ended
      generalize resume engine (.background i) false agent
        { m with time := a.time, alarms := others } = went' at after went
      obtain ⟨agent', resumed⟩ := went'
      subst after
      refine ⟨agent', ⟨List.getElem?_set_self inside, went.delivers,
        fun _ h => (by cases ended.symm.trans h), fun e _ now => went.recorded e now⟩,
        fun same => went.untouched same.symm⟩
  · have fills := rings.fills wakes
    have kept : ∀ b ∈ m.alarmsOf (.background i), b.signal = .wake →
        b ∈ m'.alarmsOf (.background i) := fun b hb wake => by
      refine fills.alarms b ((List.mem_cons.1 (alarms b hb)).resolve_left ?_)
      rintro rfl
      exact wakes wake
    rcases fills.agent with same | ⟨slot, reply, filled⟩
    · exact ⟨agent, ⟨same.trans there, delivers.mono kept, fun _ h => h,
        fun e going now => by cases going.symm.trans now⟩, fun _ => fills.store⟩
    · refine ⟨agent.fill slot reply, ⟨filled.trans (by rw [there]; rfl),
        (delivers.fill slot reply).mono kept, fun _ h => (Agent.result?_fill _ _ _).trans h,
        fun e going now => ?_⟩, fun _ => fills.store⟩
      rw [Agent.result?_fill] at now
      cases going.symm.trans now

/-- Whatever happens, an agent that delivers goes on to do so. -/
theorem Happens.becomes (step : m.Happens engine m') (h : m.Orderly) {i : Nat}
    {agent : Agent Execution} (there : m.agents[i]? = some agent)
    (delivers : agent.Delivers P (m.alarmsOf (.background i))) :
    ∃ agent', Becomes engine P i agent m m' agent' := by
  rcases step.passes_or_rings h (List.getElem?_eq_some_iff.1 there).1 with
    passes | ⟨a, others, rings⟩
  · refine ⟨agent, passes.agent.trans there, ?_, fun _ h => h,
      fun e going now => by cases going.symm.trans now⟩
    rw [passes.alarms]
    exact delivers
  · obtain ⟨agent', becomes, -⟩ := rings.becomes there delivers
    exact ⟨agent', becomes⟩

/-- An agent that delivers stays one, whatever happens, and keeps its result once it has one. -/
theorem Path.becomes (path : m.Path engine m') (h : m.Orderly) {agent : Agent Execution}
    (there : m.agents[i]? = some agent) (delivers : agent.Delivers P (m.alarmsOf (.background i))) :
    ∃ agent', m'.agents[i]? = some agent' ∧
      agent'.Delivers P (m'.alarmsOf (.background i)) ∧
      ∀ e, agent.result? = some e → agent'.result? = some e := by
  induction path with
  | refl => exact ⟨agent, there, delivers, fun _ h => h⟩
  | tail before step ih =>
    obtain ⟨middle, hthere, hdelivers, kept⟩ := ih
    obtain ⟨agent', becomes⟩ := step.becomes (Path.orderly before h) hthere hdelivers
    exact ⟨agent', becomes.there, becomes.delivers, fun e he => becomes.kept e (kept e he)⟩

/-! ## Sound machines -/

/-- Every agent in the background will deliver an execution that is over. -/
def Delivering (m : Machine σ) : Prop :=
  ∀ (i : Nat) (agent : Agent Execution), m.agents[i]? = some agent →
    ∃ id, agent.Delivers (Execution.Ended id) (m.alarmsOf (.background i))

/-- The machine is in order, all agents in the background will deliver, and the ledger is sound. -/
structure Sound (m : Machine σ) : Prop where
  orderly : m.Orderly
  delivering : m.Delivering
  ledger : Ledger.Sound m.store.ledger

/-- A machine that nobody has used, with an empty store. -/
structure Fresh (m : Machine σ) : Prop where
  agents : m.agents = []
  alarms : m.alarms = []
  store : m.store.collections = .empty

/-- A machine on which nobody is under way is sound if its ledger is. -/
theorem sound_of_idle (agents : m.agents = []) (alarms : m.alarms = [])
    (ledger : Ledger.Sound m.store.ledger) : m.Sound where
  orderly := by
    constructor <;> rw [alarms]
    · exact .nil
    · exact nofun
    · exact nofun
  delivering i agent there := by
    rw [agents] at there
    cases there
  ledger := ledger

/-- A machine on which nothing has happened is sound. -/
theorem Fresh.sound (h : m.Fresh) : m.Sound := by
  refine sound_of_idle h.agents h.alarms ?_
  rw [Store.ledger, h.store]
  exact ⟨List.nodup_nil, List.forall_mem_nil _⟩

/-- What a launched workflow will do, and the alarm that lets it begin. -/
theorem agent_launch (engine : Engine σ) (w : Workflow) (data : Json) (h : m.Orderly) :
    (engine.launch w data m).2.agents[m.agents.length]? =
        some (.ready (engine.drive w (engine.prepare w data m.supply).1)) ∧
      (engine.launch w data m).2.alarmsOf (.background m.agents.length) =
        [⟨m.time, .background m.agents.length, .wake⟩] := by
  refine ⟨List.getElem?_concat_length, ?_⟩
  have unused : m.alarmsOf (.background m.agents.length) = [] := by
    rw [alarmsOf, List.filter_eq_nil_iff]
    intro a ha
    rw [decide_eq_true_eq]
    intro own
    exact absurd (h.owned a ha _ own) (Nat.lt_irrefl _)
  have perm := ((Alarm.insert_perm ⟨m.time, .background m.agents.length, .wake⟩ m.alarms).filter
    fun a => decide (a.owner = .background m.agents.length))
  rw [List.filter_cons_of_pos (by simp), ← alarmsOf, unused] at perm
  exact perm.eq_singleton

/-- A launched workflow delivers an execution with the identifier that it was given. -/
theorem delivers_launch (engine : Engine σ) (w : Workflow) (data : Json) (h : m.Orderly) :
    Agent.Delivers (Execution.Ended (engine.prepare w data m.supply).1.id)
      ((engine.launch w data m).2.alarmsOf (.background m.agents.length))
      (.ready (engine.drive w (engine.prepare w data m.supply).1)) := by
  rw [(agent_launch engine w data h).2]
  exact ⟨engine.delivers_drive w rfl, _, List.mem_singleton_self _, rfl⟩

/-- The store after something has happened: its ledger is as it was, or it is that of the store
before after one execution was recorded. -/
theorem Happens.ledger_cases (step : m.Happens engine m') (h : m.Sound) :
    m'.store.ledger = m.store.ledger ∨
      ∃ s e, s.collections = m.store.collections ∧ m'.store = (Store.record s e).2 := by
  cases step with
  | @goesOff a before after alarms own first =>
    obtain ⟨i, hi⟩ := exists_background own
    have inside : i < m.agents.length := h.orderly.owned a (by rw [alarms]; simp) i hi
    have there : m.agents[i]? = some m.agents[i] := List.getElem?_eq_getElem inside
    obtain ⟨id, delivers⟩ := h.delivering i _ there
    have rings : m.Rings engine i a _ _ := h.orderly.rings_goOff alarms hi first
    obtain ⟨agent', becomes, untouched⟩ := rings.becomes there delivers
    cases before : m.agents[i].result? with
    | some e =>
      have kept := before.trans (becomes.kept e before).symm
      exact .inl (congrArg Store.ledger (untouched kept))
    | none =>
      cases after : agent'.result? with
      | none => exact .inl (congrArg Store.ledger (untouched (before.trans after.symm)))
      | some e =>
        exact .inr ⟨_, e, Disk.collections_facing _ _ _, becomes.recorded e before after⟩
  | requested request supply =>
    left
    have kept := request.executions_perform supply (engine.disk.facing m.world m.store)
    rw [Disk.collections_facing] at kept
    exact kept
  | recorded e => exact .inr ⟨_, e, Disk.collections_facing _ _ _, rfl⟩
  | launched w data => exact .inl rfl
  | aside agents store alarms ordered later first => exact .inl (by rw [store])

/-- Whatever happens, the ledger stays as it is, or one entry is put at its end. -/
theorem Happens.ledger (step : m.Happens engine m') (h : m.Sound) :
    m'.store.ledger = m.store.ledger ∨ ∃ e, m'.store.ledger = m.store.ledger ++ [e] := by
  rcases step.ledger_cases h with same | ⟨s, e, hs, after⟩
  · exact .inl same
  · have ledger : s.ledger = m.store.ledger := congrArg Collections.executions hs
    rw [after, ← ledger]
    exact (s.records_record e).ledger_eq.imp_right fun added => ⟨e, added⟩

/-- Whatever happens, every agent goes on to deliver. A launched agent is the only new one. -/
theorem Happens.delivering (step : m.Happens engine m') (h : m.Sound) : m'.Delivering := by
  intro i agent there
  -- An agent that was there before goes on to deliver.
  have old {before : Agent Execution} (hbefore : m.agents[i]? = some before) :
      ∃ id, agent.Delivers (Execution.Ended id) (m'.alarmsOf (.background i)) := by
    obtain ⟨id, delivers⟩ := h.delivering i before hbefore
    obtain ⟨agent', becomes⟩ := step.becomes h.orderly hbefore delivers
    cases there.symm.trans becomes.there
    exact ⟨id, becomes.delivers⟩
  cases found : m.agents[i]? with
  | some before => exact old found
  | none =>
    have outside : m.agents.length ≤ i := List.getElem?_eq_none_iff.1 found
    have inside : i < m'.agents.length := (List.getElem?_eq_some_iff.1 there).1
    cases step with
    | @goesOff a before after alarms own first =>
      obtain ⟨j, hj⟩ := exists_background own
      have length : (m.goOff engine a (before ++ after)).agents.length = m.agents.length :=
        (acts_goOff hj (before ++ after) m).spares.length
      rw [length] at inside
      exact absurd inside (Nat.not_lt.2 outside)
    | requested request supply => exact absurd inside (Nat.not_lt.2 outside)
    | recorded e => exact absurd inside (Nat.not_lt.2 outside)
    | launched w data =>
      have length : (engine.launch w data m).2.agents.length = m.agents.length + 1 :=
        List.length_append
      have new : i = m.agents.length := by omega
      subst new
      cases there.symm.trans (agent_launch engine w data h.orderly).1
      exact ⟨_, delivers_launch engine w data h.orderly⟩
    | aside agents =>
      rw [agents] at inside
      exact absurd inside (Nat.not_lt.2 outside)

/-- A sound machine stays so, whatever happens. -/
theorem Happens.sound (step : m.Happens engine m') (h : m.Sound) : m'.Sound where
  orderly := step.orderly h.orderly
  delivering := step.delivering h
  ledger := by
    rcases step.ledger_cases h with same | ⟨s, e, hs, after⟩
    · rw [same]
      exact h.ledger
    · rw [after]
      refine (s.records_record e).sound ?_
      rw [Store.ledger, hs]
      exact h.ledger

/-- A sound machine stays so, however much happens. -/
theorem Path.sound (path : m.Path engine m') (h : m.Sound) : m'.Sound := by
  induction path with
  | refl => exact h
  | tail _ step ih => exact step.sound ih

/-- An agent that has ended stays so. -/
theorem Happens.outcome?_kept (step : m.Happens engine m') (h : m.Sound) {e : Execution}
    (outcome : m.outcome? i = some e) : m'.outcome? i = some e := by
  obtain ⟨agent, there, ended⟩ := Option.bind_eq_some_iff.1 outcome
  obtain ⟨id, delivers⟩ := h.delivering i agent there
  obtain ⟨agent', becomes⟩ := step.becomes h.orderly there delivers
  rw [outcome?, becomes.there]
  exact becomes.kept e ended

/-- What an agent has ended with it has ended with for good. -/
theorem Path.outcome?_kept (path : m.Path engine m') (h : m.Sound) {e : Execution}
    (outcome : m.outcome? i = some e) : m'.outcome? i = some e := by
  induction path with
  | refl => exact outcome
  | tail before step ih => exact step.outcome?_kept (Path.sound before h) ih

/-- To launch a workflow is not to end any. -/
theorem outcome?_launch (engine : Engine σ) (w : Workflow) (data : Json) (m : Machine σ) (i : Nat) :
    (engine.launch w data m).2.outcome? i = m.outcome? i := by
  change (m.agents ++ [_])[i]?.bind Agent.result? = m.agents[i]?.bind Agent.result?
  rcases Nat.lt_or_ge i m.agents.length with inside | outside
  · rw [List.getElem?_append_left inside]
  · rw [List.getElem?_append_right outside, List.getElem?_eq_none outside]
    rcases Nat.eq_zero_or_pos (i - m.agents.length) with new | beyond
    · rw [new]
      rfl
    · rw [List.getElem?_eq_none beyond]

/-- The ledger before is where the ledger after begins. -/
theorem Path.grows (path : m.Path engine m') (h : m.Sound) :
    m.store.ledger <+: m'.store.ledger := by
  induction path with
  | refl => exact List.prefix_rfl
  | tail before step ih =>
    rcases step.ledger (Path.sound before h) with same | ⟨e, added⟩
    · rw [same]
      exact ih
    · rw [added]
      exact ih.trans (List.prefix_append _ _)

/-! ## Nobody waits in vain -/

/-- A machine runs until what is waited for is so, or nobody has an alarm any more. -/
theorem runUntil_ends (stop : Machine σ → Bool) (s : Scene σ Unit) :
    stop (runUntil engine stop s) = true ∨ (runUntil engine stop s).alarms = [] := by
  induction s using runUntil.induct engine stop with
  | case1 s stops =>
    rw [runUntil, if_pos stops]
    exact .inl (Bool.and_eq_true_iff.1 stops).2
  | case2 s goes ends =>
    rw [runUntil, if_neg goes]
    split
    · right
      unfold Scene.tick at ends
      split at ends
      · assumption
      · cases ends
    · next ticks => cases ends.symm.trans ticks
  | case3 s goes t ticks ih =>
    rw [runUntil, if_neg goes]
    split
    · next ends => cases ticks.symm.trans ends
    · next t' ticks' =>
      cases ticks.symm.trans ticks'
      exact ih

/-- An agent in the background that is waited for ends. -/
theorem outcome?_join (h : m.Sound) (inside : i < m.agents.length) :
    ∃ e, (m.join engine i).1 = some e ∧ (m.join engine i).2.outcome? i = some e := by
  unfold join
  dsimp only
  split
  · next ended =>
    obtain ⟨e, he⟩ := Option.isSome_iff_exists.1 ended
    exact ⟨e, he, he⟩
  · generalize last_eq : runUntil engine (fun m => (m.outcome? i).isSome)
      ⟨m, .finished (), false, 0⟩ = last
    have path : m.Path engine last := by
      rw [← last_eq]
      exact Runs.path (runs_runUntil _ ⟨m, .finished (), false, 0⟩ h.orderly)
    have ends : (last.outcome? i).isSome = true ∨ last.alarms = [] := by
      rw [← last_eq]
      exact runUntil_ends (fun m => (m.outcome? i).isSome) _
    have ended : (last.outcome? i).isSome = true := by
      obtain ⟨id, delivers⟩ := h.delivering i _ (List.getElem?_eq_getElem inside)
      obtain ⟨agent, there, delivers', -⟩ :=
        Path.becomes path h.orderly (List.getElem?_eq_getElem inside) delivers
      cases result : agent.result? with
      | some e => simp [outcome?, there, result]
      | none =>
        -- It has an alarm left, so it was not for want of alarms that the machine came to rest.
        refine ends.resolve_right fun none_left => ?_
        obtain ⟨a, ha⟩ := delivers'.exists_alarm result
        rw [mem_alarmsOf, none_left] at ha
        cases ha.1
    obtain ⟨e, he⟩ := Option.isSome_iff_exists.1 ended
    exact ⟨e, he, he⟩

end Machine

end EventFlow
