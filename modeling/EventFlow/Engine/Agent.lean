import EventFlow.Engine.Attempt
import EventFlow.Engine.Waiting
import EventFlow.Store.Ledger
import EventFlow.Time.Sleep

/-!
# Agents

An agent is a program that is under way: it sleeps until a time, or waits for the replies of the
calls it has made, or has ended. A `Machine` is what all agents share: the time in milliseconds,
the clock and identifiers, the store, the world of the handlers, the agents in the background, and
the alarms that are set, in the order in which they go off. `advance` lets a program go on until it
has to wait, and `resume` lets an agent go on if what it waits for has come.
-/

set_option autoImplicit false

namespace EventFlow

/-- A program that is under way. -/
inductive Agent (ρ : Type) where
  /-- It has not begun. -/
  | ready (p : Program ρ)
  | asleep (wakeTime : Nat) (p : Program ρ)
  | calling (waiting : Waiting) (next : Option (List Reply) → Program ρ)
  | finished (result : ρ)

namespace Agent

variable {ρ : Type}

/-- The agent after the reply for a slot of its calls has come. -/
def fill (slot : Nat) (reply : Reply) : Agent ρ → Agent ρ
  | calling waiting next => .calling (waiting.fill slot reply) next
  | other => other

/-- The time at which the agent goes on without anything else happening. -/
def due : Agent ρ → Option Nat
  | asleep wakeTime _ => some wakeTime
  | calling waiting _ => waiting.deadline
  | _ => none

/-- The result of an agent that has ended. -/
def result? : Agent ρ → Option ρ
  | finished result => some result
  | _ => none

theorem result?_fill (slot : Nat) (reply : Reply) (agent : Agent ρ) :
    (agent.fill slot reply).result? = agent.result? := by
  cases agent <;> rfl

/-- How many calls the agent still has to make. -/
def unmade : Agent ρ → Nat
  | calling waiting _ => waiting.rest.length
  | _ => 0

end Agent

/-- Who waits for a call: the agent in front, or one in the background. -/
inductive Owner where
  | front
  | background (index : Nat)
deriving DecidableEq

/-- What an alarm does. -/
inductive Signal where
  /-- Its owner goes on. -/
  | wake
  /-- A handler is called. -/
  | start (slot : Nat) (call : Invocation)
  /-- A call ends. -/
  | finish (slot : Nat) (reply : Reply)

/-- Something that happens at a time. -/
structure Alarm where
  time : Nat
  owner : Owner
  signal : Signal

namespace Alarm

/-- The alarms with one more, which goes off after those of the same time. -/
def insert (a : Alarm) : List Alarm → List Alarm
  | [] => [a]
  | b :: rest => if a.time < b.time then a :: b :: rest else b :: insert a rest

/-- Whether an alarm wakes an owner up to a time. -/
def wakes (owner : Owner) (time : Nat) (a : Alarm) : Bool :=
  decide (a.owner = owner ∧ a.time ≤ time) && match a.signal with
    | .wake => true
    | _ => false

end Alarm

/-- What all agents share. -/
structure Machine (σ : Type) where
  time : Nat
  supply : Supply
  store : Store
  world : σ
  agents : List (Agent Execution)
  /-- The alarms in the order in which they go off. -/
  alarms : List Alarm

namespace Machine

variable {σ ρ : Type}

/-- The machine with one more alarm. -/
def setAlarm (a : Alarm) (m : Machine σ) : Machine σ := { m with alarms := a.insert m.alarms }

/-- The machine with alarms that make calls now. -/
def makeCalls (owner : Owner) : List (Nat × Invocation) → Machine σ → Machine σ
  | [], m => m
  | (slot, call) :: rest, m => makeCalls owner rest (m.setAlarm ⟨m.time, owner, .start slot call⟩)

/-- The machine with an alarm that wakes an owner in the background. The agent in front needs
none: whoever lets the machine run looks after it. -/
def setTimer (owner : Owner) (time : Nat) (m : Machine σ) : Machine σ :=
  match owner with
  | .front => m
  | .background _ => m.setAlarm ⟨time, owner, .wake⟩

/-- What a change of the store answers, and the machine after it. -/
def change {α : Type} (disk : Disk σ) (f : Store → α × Store) (m : Machine σ) : α × Machine σ :=
  let (answer, store) := f (disk.facing m.world m.store)
  (answer, { m with store, world := disk.settled store m.world })

/-- The machine without the alarms of an owner. -/
def cancel (owner : Owner) (m : Machine σ) : Machine σ :=
  { m with alarms := m.alarms.filter fun a => decide (a.owner ≠ owner) }

/-- A program goes on until it has to wait: the agent that it becomes, and the machine. Calls that
may take no time at all are not made. -/
def advance (engine : Engine σ) (owner : Owner) : Program ρ → Machine σ → Agent ρ × Machine σ
  | .done result, m => (.finished result, m)
  | .clock next, m =>
    let (time, supply) := m.supply.now
    advance engine owner (next time) { m with supply }
  | .collections next, m => advance engine owner (next m.store.collections) m
  | .record e next, m => advance engine owner next (m.change engine.disk (·.record e)).2
  | .sleep ms next, m =>
    if ms = 0 then advance engine owner next m
    else
      let wakeTime := m.time + Sleep.lasting ms
      (.asleep wakeTime next, m.setTimer owner wakeTime)
  | .call limit order calls next, m =>
    match Waiting.start engine.handlers.contains (limit.map (m.time + ·)) order calls with
    | .settled replies => advance engine owner (next (some replies)) m
    | .pending waiting made =>
      match limit with
      | some 0 => advance engine owner (next none) m
      | some ms => (.calling waiting next, (m.makeCalls owner made).setTimer owner (m.time + ms))
      | none => (.calling waiting next, m.makeCalls owner made)

/-- An agent goes on if what it waits for has come, if its time has, or if it is told that nothing
more will come. -/
def resume (engine : Engine σ) (owner : Owner) (expired : Bool) :
    Agent ρ → Machine σ → Agent ρ × Machine σ
  | .ready p, m => advance engine owner p m
  | .asleep wakeTime p, m =>
    if expired || decide (wakeTime ≤ m.time) then advance engine owner p m
    else (.asleep wakeTime p, m)
  | .calling waiting next, m =>
    match waiting.poll engine.handlers.contains with
    | .settled replies => advance engine owner (next (some replies)) (m.cancel owner)
    | .pending waiting made =>
      if expired || waiting.deadline.any (fun deadline => decide (deadline ≤ m.time)) then
        advance engine owner (next none) (m.cancel owner)
      else (.calling waiting next, m.makeCalls owner made)
  | .finished result, m => (.finished result, m)

end Machine

end EventFlow
