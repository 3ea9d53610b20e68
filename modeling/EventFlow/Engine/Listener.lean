import EventFlow.Engine.Trigger

/-!
# The listener of the bus

A listener works at a station, while others publish events, edit definitions and let executions go
on. `Station.act` is the next thing it does: it receives, looks for the workflows that an event
triggers, launches them one after the other, and listens again; when the bus is closed, it waits for
the executions that are still in flight. `Engine.listen` is what comes of that where nobody else
acts in the meantime.
-/

set_option autoImplicit false

namespace EventFlow

/-- What a listener does next. -/
inductive Phase where
  /-- It receives. -/
  | listening
  /-- It looks for the workflows that an event triggers. -/
  | matching (e : Event)
  /-- It launches workflows over the data of an event; others are launched already. -/
  | launching (data : Json) (rest : List Workflow) (launched : List Started)
  /-- It waits for the executions in flight. -/
  | joining
  | returned

/-- A subscriber of the bus that dispatches what it receives. -/
structure Listener where
  subscriber : Nat
  phase : Phase
  /-- The executions it has dispatched, without those that had ended when it last looked. -/
  inFlight : List Started
  /-- How many executions it has dispatched. -/
  started : Nat

/-- A listener, the bus it listens to, and the machine on which it launches workflows. -/
structure Station (σ : Type) where
  bus : Bus
  machine : Machine σ
  listener : Listener

/-- What there is to tell of one thing that is done at a station. -/
inductive Deed (σ : Type) where
  /-- Somebody publishes an event. -/
  | published (e : Event)
  | received (r : Received)
  /-- The workflows in the store that an event triggers are launched next. -/
  | matched (e : Event) (store : Store)
  | launched (w : Workflow) (data : Json) (s : Started)
  /-- Something happens to the machine. -/
  | happened (before after : Machine σ)
  /-- It is none of these. -/
  | aside

namespace Station

variable {σ : Type}

/-- Somebody begins to listen to a bus. -/
def enter (bus : Bus) (machine : Machine σ) : Station σ :=
  let (subscriber, bus) := bus.subscribe
  ⟨bus, machine, ⟨subscriber, .listening, [], 0⟩⟩

/-- What the listener does next, unless it has to wait or has returned. -/
def act (engine : Engine σ) (t : Station σ) : Option (Deed σ × Station σ) :=
  let l := t.listener
  match l.phase with
  | .listening =>
    match t.bus.receive l.subscriber with
    | (some (.event e), bus) =>
      let inFlight := l.inFlight.filter fun s => (t.machine.outcome? s.agent).isNone
      some (.received (.event e),
        { t with bus, listener := { l with phase := .matching e, inFlight } })
    | (some (.lagged lost), bus) => some (.received (.lagged lost), { t with bus })
    | (some .closed, bus) =>
      some (.received .closed, { t with bus, listener := { l with phase := .joining } })
    | _ => none
  | .matching e =>
    let found := t.machine.store.findActive e.eventType
    some (.matched e t.machine.store,
      { t with listener := { l with phase := .launching e.data found [] } })
  | .launching data (w :: rest) launched =>
    let (s, machine) := engine.launch w data t.machine
    some (.launched w data s,
      { t with machine, listener := { l with phase := .launching data rest (launched ++ [s]) } })
  | .launching _ [] launched =>
    let started := l.started + launched.length
    some (.aside, { t with listener :=
      { l with phase := .listening, inFlight := l.inFlight ++ launched, started } })
  | .joining =>
    match l.inFlight with
    | [] => some (.aside, { t with listener := { l with phase := .returned } })
    | s :: inFlight =>
      if (t.machine.outcome? s.agent).isSome then
        some (.aside, { t with listener := { l with inFlight } })
      else none
  | .returned => none

end Station

end EventFlow
