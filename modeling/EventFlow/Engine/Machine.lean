import EventFlow.Engine.Remaining
import EventFlow.Engine.Run
import EventFlow.Store.Definitions

/-!
# The machine

The machine runs one agent in front and any number in the background. The agent in front goes on
when its time has come, before everything else of that time, or when its calls have been answered,
at the end of a round; the alarms go off in order, and the time moves on only when nothing is left
to do at it. A round is over when nothing is left to do at its time, or when as many alarms have
gone off as a round has turns. `Scene.next` is one step of this; it always brings the machine
nearer to rest, so `Machine.await` ends with a result.
-/

set_option autoImplicit false

namespace EventFlow

variable {σ β : Type}

/-- A machine with an agent in front. -/
structure Scene (σ β : Type) where
  machine : Machine σ
  front : Agent β
  /-- Whether the agent in front has something new to look at. -/
  woken : Bool
  /-- How many alarms have gone off in this round. -/
  turns : Nat

namespace Scene

/-- The owner of a call is told to go on. -/
def wake (owner : Owner) (s : Scene σ β) : Scene σ β :=
  match owner with
  | .front => { s with woken := true }
  | .background _ =>
    if s.machine.alarms.any (Alarm.wakes owner s.machine.time) then s
    else { s with machine := s.machine.setAlarm ⟨s.machine.time, owner, .wake⟩ }

/-- A reply comes to the owner of a call. -/
def deliver (owner : Owner) (slot : Nat) (reply : Reply) (s : Scene σ β) : Scene σ β :=
  let s := match owner with
    | .front => { s with front := s.front.fill slot reply }
    | .background i =>
      { s with
        machine := { s.machine with agents := s.machine.agents.modify i (·.fill slot reply) } }
  s.wake owner

/-- A handler is called. -/
def begin (engine : Engine σ) (owner : Owner) (slot : Nat) (call : Invocation) (s : Scene σ β) :
    Scene σ β :=
  match Assoc.find? call.action.actionType engine.handlers with
  | none => s.deliver owner slot (Waiting.refusal call)
  | some handler =>
    let m := s.machine
    let started := handler call m.supply m.world
    let reply := started.reply.mapError DispatchError.handler
    let m := { m with world := started.world, supply := started.supply }
    if started.duration = 0 then { s with machine := m }.deliver owner slot reply
    else
      let finish : Alarm := ⟨m.time + started.duration, owner, .finish slot reply⟩
      { s with machine := m.setAlarm finish }

/-- An agent in the background goes on. -/
def resumeBackground (engine : Engine σ) (i : Nat) (s : Scene σ β) : Scene σ β :=
  match s.machine.agents[i]? with
  | none => s
  | some agent =>
    let (agent, m) := Machine.resume engine (.background i) false agent s.machine
    { s with machine := { m with agents := m.agents.set i agent } }

/-- The agent in front goes on. -/
def resumeFront (engine : Engine σ) (expired : Bool) (s : Scene σ β) : Scene σ β :=
  let (front, m) := Machine.resume engine .front expired s.front s.machine
  ⟨m, front, false, 0⟩

/-- An alarm goes off. -/
def goOff (engine : Engine σ) (a : Alarm) (s : Scene σ β) : Scene σ β :=
  match a.signal, a.owner with
  | .wake, .front => s
  | .wake, .background i => s.resumeBackground engine i
  | .start slot call, owner => s.begin engine owner slot call
  | .finish slot reply, owner => s.deliver owner slot reply

/-- The time is at least this. -/
def atTime (time : Nat) (s : Scene σ β) : Scene σ β :=
  { s with machine := { s.machine with time := max s.machine.time time } }

/-- Whether nothing is left to do at the time it is. -/
def isQuiet (s : Scene σ β) : Bool :=
  s.machine.alarms.head?.all fun a => decide (s.machine.time < a.time)

/-- How many alarms may go off in a round. -/
def turnsOfRound : Nat := 61

/-- Whether the round is over. -/
def isRoundOver (s : Scene σ β) : Bool := s.isQuiet || decide (turnsOfRound ≤ s.turns)

/-- The next alarm goes off, if there is one. -/
def tick (engine : Engine σ) (s : Scene σ β) : Option (Scene σ β) :=
  match s.machine.alarms with
  | [] => none
  | a :: rest =>
    let turns := if s.isRoundOver then 1 else s.turns + 1
    let machine := { s.machine with alarms := rest }
    some (({ s with machine, turns }.atTime a.time).goOff engine a)

/-- The agent in front goes on because its time has come, or because nothing else will happen. -/
def expire (engine : Engine σ) (s : Scene σ β) : Scene σ β :=
  (s.atTime (s.front.due.getD 0)).resumeFront engine true

/-- Whether the agent in front is due before the next alarm. -/
def isDue (s : Scene σ β) : Bool :=
  match s.machine.alarms with
  | [] => true
  | a :: _ => s.front.due.any fun time => decide (time ≤ a.time)

/-- The next thing that happens. -/
def next (engine : Engine σ) (s : Scene σ β) : Scene σ β :=
  if s.woken && s.isRoundOver then s.resumeFront engine false
  else if s.isDue then s.expire engine
  else (s.tick engine).getD s

/-! ## Coming to rest -/

/-- How much may still happen before any agent goes on. -/
def load (s : Scene σ β) : Nat :=
  Alarm.weights s.machine.alarms + 4 * s.front.unmade +
    4 * total (s.machine.agents.map Agent.unmade) + s.woken.toNat

/-- What all agents have left to do. -/
def remaining (s : Scene σ β) : Remaining β × List (Remaining Execution) × Nat :=
  (s.front.remaining, s.machine.agents.map Agent.remaining, s.load)

/-- `Before s t`: the scene `s` is nearer to rest than `t`. -/
def Before (s t : Scene σ β) : Prop :=
  Prod.Lex Remaining.Below (Prod.Lex Remaining.OneBelow (· < ·)) s.remaining t.remaining

theorem before_wellFounded : WellFounded (Before (σ := σ) (β := β)) :=
  InvImage.wf remaining
    (Prod.lex ⟨_, Remaining.below_wellFounded⟩
      (Prod.lex ⟨_, Remaining.oneBelow_wellFounded⟩ Nat.lt_wfRel)).wf

theorem before_of_front {s t : Scene σ β}
    (h : Remaining.Below s.front.remaining t.front.remaining) : s.Before t :=
  Prod.Lex.left _ _ h

theorem before_of_agents {s t : Scene σ β} (hf : s.front.remaining = t.front.remaining)
    (h : Remaining.OneBelow (s.machine.agents.map Agent.remaining)
      (t.machine.agents.map Agent.remaining)) : s.Before t := by
  unfold Before remaining
  rw [hf]
  exact Prod.Lex.right _ (Prod.Lex.left _ _ h)

theorem before_of_load {s t : Scene σ β} (hf : s.front.remaining = t.front.remaining)
    (ha : s.machine.agents.map Agent.remaining = t.machine.agents.map Agent.remaining)
    (h : s.load < t.load) : s.Before t := by
  unfold Before remaining
  rw [hf, ha]
  exact Prod.Lex.right _ (Prod.Lex.right _ h)

/-- A wake-up changes nothing that agents have left to do, and weighs at most one. -/
theorem wake_le (owner : Owner) (s : Scene σ β) :
    (s.wake owner).front = s.front ∧ (s.wake owner).machine.agents = s.machine.agents ∧
      (s.wake owner).load ≤ s.load + 1 := by
  unfold wake
  split
  · refine ⟨rfl, rfl, ?_⟩
    have h := Bool.toNat_le s.woken
    simp only [load, Bool.toNat_true]
    omega
  · split
    · exact ⟨rfl, rfl, Nat.le_succ _⟩
    · refine ⟨rfl, rfl, ?_⟩
      simp only [load, Machine.setAlarm, Alarm.weights_insert, Alarm.weight]
      omega

theorem map_modify_fill {γ : Type} (view : Agent Execution → γ) (slot : Nat) (reply : Reply)
    (h : ∀ a : Agent Execution, view (a.fill slot reply) = view a)
    (agents : List (Agent Execution)) (i : Nat) :
    (agents.modify i (·.fill slot reply)).map view = agents.map view := by
  induction agents generalizing i with
  | nil => simp
  | cons a rest ih => cases i <;> simp [h, ih]

/-- A reply changes nothing that agents have left to do, and weighs at most one. -/
theorem deliver_le (owner : Owner) (slot : Nat) (reply : Reply) (s : Scene σ β) :
    (s.deliver owner slot reply).front.remaining = s.front.remaining ∧
      (s.deliver owner slot reply).machine.agents.map Agent.remaining =
        s.machine.agents.map Agent.remaining ∧
      (s.deliver owner slot reply).load ≤ s.load + 1 := by
  unfold deliver
  cases owner with
  | front =>
    obtain ⟨hf, ha, hl⟩ := wake_le .front { s with front := s.front.fill slot reply }
    refine ⟨by simp [hf], by rw [ha], Nat.le_trans hl ?_⟩
    simp [load]
  | background i =>
    obtain ⟨hf, ha, hl⟩ := wake_le (.background i)
      { s with machine :=
        { s.machine with agents := s.machine.agents.modify i (·.fill slot reply) } }
    refine ⟨by rw [hf], ?_, Nat.le_trans hl ?_⟩
    · rw [ha]
      exact map_modify_fill _ slot reply (Agent.remaining_fill slot reply) _ i
    · have unmade := map_modify_fill _ slot reply (Agent.unmade_fill slot reply) s.machine.agents i
      simp only [load, unmade, Nat.le_refl]

theorem before_of_deliver (owner : Owner) (slot : Nat) (reply : Reply) {s t : Scene σ β}
    (hf : s.front.remaining = t.front.remaining)
    (ha : s.machine.agents.map Agent.remaining = t.machine.agents.map Agent.remaining)
    (h : s.load + 1 < t.load) : (s.deliver owner slot reply).Before t := by
  obtain ⟨hf', ha', hl⟩ := deliver_le owner slot reply s
  exact before_of_load (hf'.trans hf) (ha'.trans ha) (Nat.lt_of_le_of_lt hl h)

theorem total_map_set {γ : Type} (f : γ → Nat) {list : List γ} {i : Nat} {b : γ}
    (hi : list[i]? = some b) (a : γ) :
    total ((list.set i a).map f) + f b = total (list.map f) + f a := by
  induction list generalizing i with
  | nil => simp at hi
  | cons c rest ih =>
    cases i with
    | zero =>
      simp only [List.getElem?_cons_zero, Option.some.injEq] at hi
      subst hi
      simp only [List.set_cons_zero, List.map_cons, total_cons]
      omega
    | succ i =>
      have := ih (i := i) (by simpa using hi)
      simp only [List.set_cons_succ, List.map_cons, total_cons]
      omega

theorem map_set_of_eq {γ δ : Type} (f : γ → δ) {list : List γ} {i : Nat} {a b : γ}
    (hi : list[i]? = some b) (h : f a = f b) : (list.set i a).map f = list.map f := by
  induction list generalizing i with
  | nil => simp
  | cons c rest ih =>
    cases i with
    | zero =>
      simp only [List.getElem?_cons_zero, Option.some.injEq] at hi
      subst hi
      simp [h]
    | succ i => simp [ih (i := i) (by simpa using hi)]

theorem resumeBackground_before (engine : Engine σ) (i : Nat) {s t : Scene σ β}
    (hf : s.front = t.front) (ha : s.machine.agents = t.machine.agents)
    (h : s.load < t.load) : (s.resumeBackground engine i).Before t := by
  unfold resumeBackground
  split
  · exact before_of_load (by rw [hf]) (by rw [ha]) h
  · next agent hagent =>
    obtain ⟨hagents, hr⟩ :=
      Machine.resume_remaining engine (.background i) false agent s.machine
    cases hr with
    | inl hbelow =>
      refine before_of_agents (by rw [hf]) ?_
      simp only [hagents, List.map_set, ← ha]
      exact Remaining.oneBelow_set (by simp [hagent]) hbelow
    | inr hsame =>
      refine before_of_load (by rw [hf]) ?_ ?_
      · simp only [hagents, ← ha]
        exact map_set_of_eq _ hagent hsame.1
      · have hsum := total_map_set Agent.unmade hagent
          (Machine.resume engine (.background i) false agent s.machine).1
        have hle := hsame.2
        simp only [load, hagents] at h ⊢
        omega

/-- An alarm that goes off brings the machine nearer to rest. -/
theorem goOff_before (engine : Engine σ) (a : Alarm) {s t : Scene σ β} (hf : s.front = t.front)
    (ha : s.machine.agents = t.machine.agents) (h : s.load + a.weight = t.load) :
    (s.goOff engine a).Before t := by
  have hf' : s.front.remaining = t.front.remaining := by rw [hf]
  have ha' : s.machine.agents.map Agent.remaining = t.machine.agents.map Agent.remaining := by
    rw [ha]
  unfold goOff
  split
  · next hs _ =>
    simp only [Alarm.weight, hs] at h
    exact before_of_load hf' ha' (by omega)
  · next hs _ =>
    simp only [Alarm.weight, hs] at h
    exact resumeBackground_before engine _ hf ha (by omega)
  · next slot call hs =>
    simp only [Alarm.weight, hs] at h
    unfold begin
    split
    · exact before_of_deliver _ slot _ hf' ha' (by omega)
    · dsimp only
      split
      · refine before_of_deliver _ slot _ hf' ha' ?_
        simp only [load] at h ⊢
        omega
      · refine before_of_load hf' ha' ?_
        simp only [load, Machine.setAlarm, Alarm.weights_insert, Alarm.weight] at h ⊢
        omega
  · next slot reply hs =>
    simp only [Alarm.weight, hs] at h
    exact before_of_deliver _ slot reply hf' ha' (by omega)

theorem tick_before {engine : Engine σ} {s t : Scene σ β} (h : s.tick engine = some t) :
    t.Before s := by
  unfold tick at h
  split at h
  · cases h
  · next a rest halarms =>
    cases h
    refine goOff_before engine a rfl rfl ?_
    simp only [load, atTime, halarms, Alarm.weights, List.map_cons, total_cons]
    omega

/-- Whatever happens next brings the machine nearer to rest, as long as the agent in front has not
ended. -/
theorem next_before (engine : Engine σ) {s : Scene σ β} (h : s.front.result? = none) :
    (s.next engine).Before s := by
  unfold next
  split
  · next hw =>
    obtain ⟨hagents, hr⟩ := Machine.resume_remaining engine .front false s.front s.machine
    simp only [Bool.and_eq_true] at hw
    cases hr with
    | inl hbelow => exact before_of_front hbelow
    | inr hsame =>
      refine before_of_load hsame.1 (by simp [resumeFront, hagents]) ?_
      have hle := hsame.2
      simp only [load, resumeFront, hagents, hw.1, Bool.toNat_true, Bool.toNat_false]
      omega
  · split
    · exact before_of_front (Machine.resume_expired engine .front _ _ h)
    · next hdue =>
      cases htick : s.tick engine with
      | some t => exact tick_before htick
      | none =>
        unfold tick at htick
        split at htick
        · next halarms => simp [isDue, halarms] at hdue
        · cases htick

/-- Runs until the agent in front has ended. -/
def run (engine : Engine σ) (s : Scene σ β) : β × Machine σ :=
  match _h : s.front.result? with
  | some result => (result, s.machine)
  | none => run engine (s.next engine)
termination_by before_wellFounded.wrap s
decreasing_by exact next_before engine ‹_›

end Scene

namespace Machine

/-- Runs a program in front to its end. No alarm of an earlier one goes off. -/
def await (engine : Engine σ) (p : Program β) (m : Machine σ) : β × Machine σ :=
  let (front, m) := advance engine .front p (m.cancel .front)
  Scene.run engine ⟨m, front, false, 0⟩

/-- Lets the agents in the background run until a round is over at whose end something holds, or
nothing is left to do. -/
def runUntil (engine : Engine σ) (stop : Machine σ → Bool) (s : Scene σ Unit) : Machine σ :=
  if s.isRoundOver && stop s.machine then s.machine
  else match _h : s.tick engine with
    | none => s.machine
    | some t => runUntil engine stop t
termination_by Scene.before_wellFounded.wrap s
decreasing_by exact Scene.tick_before ‹_›

/-- The execution of an agent in the background, if it has ended. -/
def outcome? (i : Nat) (m : Machine σ) : Option Execution := m.agents[i]?.bind Agent.result?

/-- Lets the agents in the background run until a round is over in which one has ended. An agent
that has ended before is not waited for. -/
def join (engine : Engine σ) (i : Nat) (m : Machine σ) : Option Execution × Machine σ :=
  let ended (m : Machine σ) := (m.outcome? i).isSome
  if ended m then (m.outcome? i, m)
  else
    let m := runUntil engine ended ⟨m, .finished (), false, 0⟩
    (m.outcome? i, m)

/-- A program is put into the background; it begins when the machine next runs. -/
def spawn (p : Program Execution) (m : Machine σ) : Nat × Machine σ :=
  let i := m.agents.length
  let m := { m with agents := m.agents ++ [Agent.ready p] }
  (i, m.setAlarm ⟨m.time, .background i, .wake⟩)

end Machine

end EventFlow
