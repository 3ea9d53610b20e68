import EventFlow.Event.Basic

/-!
# The event bus

Every subscriber receives every event that is published after its subscription, in order. The bus
keeps a bounded number of events, so a subscriber that is slow loses the oldest ones; it is told
once how many, and goes on with the oldest event that is kept. `Bus.backlog` is all that a
subscriber still receives.
-/

set_option autoImplicit false

namespace EventFlow

/-- A bus of events. -/
structure Bus where
  /-- How many events are kept. -/
  room : Nat
  /-- Every event that had a subscriber, the oldest first. -/
  sent : List Event
  /-- For each subscriber the number of the event it receives next, unless it has left. -/
  positions : List (Option Nat)
  isOpen : Bool

/-- What a subscriber gets when it asks for the next event. -/
inductive Received where
  | event (e : Event)
  /-- Some events are lost. -/
  | lagged (lost : Nat)
  /-- There is no event yet. -/
  | empty
  /-- There will be no more events. -/
  | closed
deriving DecidableEq

namespace Bus

/-- The number of events that a bus keeps where nothing else is said. -/
def defaultCapacity : Nat := 256

/-- How many events are kept where room for a number of them is asked for: the next power of
two. -/
def roomFor (capacity : Nat) : Nat := (max capacity 1).nextPowerOfTwo

/-- The most events for which there are addresses in memory. -/
def largestRoom : Nat := 1 <<< 56

/-- A bus that keeps at least a number of events. -/
def make (capacity : Nat) : Bus := ⟨roomFor capacity, [], [], true⟩

/-- How many subscribers there are. -/
def subscribers (b : Bus) : Nat := b.positions.countP Option.isSome

/-- A new subscriber's number, and the bus with it. -/
def subscribe (b : Bus) : Nat × Bus :=
  (b.positions.length, { b with positions := b.positions ++ [some b.sent.length] })

/-- The bus without a subscriber. -/
def leave (subscriber : Nat) (b : Bus) : Bus :=
  { b with positions := b.positions.set subscriber none }

/-- How many subscribers receive an event, and the bus after it; an event that nobody receives is
not kept. -/
def publish (e : Event) (b : Bus) : Nat × Bus :=
  if b.subscribers = 0 then (0, b) else (b.subscribers, { b with sent := b.sent ++ [e] })

/-- The bus after its last event. -/
def close (b : Bus) : Bus := { b with isOpen := false }

/-- The number of the oldest event that is kept. -/
def oldest (b : Bus) : Nat := b.sent.length - b.room

/-- What a subscriber at a position gets next, and its position after that. -/
def next (b : Bus) (position : Nat) : Received × Nat :=
  if position < b.oldest then (.lagged (b.oldest - position), b.oldest)
  else match b.sent[position]? with
    | some e => (.event e, position + 1)
    | none => (if b.isOpen then .empty else .closed, position)

/-- What a subscriber gets next, if it has not left, and the bus after that. -/
def receive (subscriber : Nat) (b : Bus) : Option Received × Bus :=
  match b.positions[subscriber]? with
  | some (some position) =>
    let (got, position) := b.next position
    (some got, { b with positions := b.positions.set subscriber (some position) })
  | _ => (none, b)

/-- All that a subscriber at a position still receives. -/
def backlog (b : Bus) (position : Nat) : List Received :=
  let events := (b.sent.drop (max position b.oldest)).map Received.event
  if position < b.oldest then .lagged (b.oldest - position) :: events else events

end Bus

end EventFlow
