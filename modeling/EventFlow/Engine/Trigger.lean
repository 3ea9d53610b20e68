import EventFlow.Engine.Machine
import EventFlow.Event.Bus
import EventFlow.Store.Workflows

/-!
# Triggers

An event starts one execution, each on its own, of every active workflow that its type triggers.
`Engine.listen` does so for everything that a subscriber of the bus receives, and counts what it
starts.
-/

set_option autoImplicit false

namespace EventFlow

/-- An execution that is under way. -/
structure Started where
  workflowId : String
  executionId : Uuid
  /-- The number of its agent. -/
  agent : Nat
deriving DecidableEq

namespace Engine

variable {σ : Type}

/-- Starts a workflow over data in the background. -/
def launch (engine : Engine σ) (w : Workflow) (data : Json) (m : Machine σ) :
    Started × Machine σ :=
  let (e, supply) := engine.prepare w data m.supply
  let (agent, m) := { m with supply }.spawn (engine.drive w e)
  (⟨w.id, e.id, agent⟩, m)

/-- Starts workflows over data, one after the other. -/
def launchAll (engine : Engine σ) (data : Json) :
    List Workflow → Machine σ → List Started × Machine σ
  | [], m => ([], m)
  | w :: rest, m =>
    let (started, m) := engine.launch w data m
    let (others, m) := engine.launchAll data rest m
    (started :: others, m)

/-- Starts every active workflow that an event type triggers. -/
def dispatch (engine : Engine σ) (eventType : String) (data : Json) (m : Machine σ) :
    List Started × Machine σ :=
  engine.launchAll data (m.store.findActive eventType) m

/-- Dispatches every event that is received; a loss of events is passed over. -/
def dispatchAll (engine : Engine σ) : List Received → Machine σ → List Started × Machine σ
  | [], m => ([], m)
  | .event e :: rest, m =>
    let (started, m) := engine.dispatch e.eventType e.data m
    let (others, m) := engine.dispatchAll rest m
    (started ++ others, m)
  | _ :: rest, m => engine.dispatchAll rest m

/-- Waits for executions, one after the other. -/
def awaitAll (engine : Engine σ) : List Started → Machine σ → Machine σ
  | [], m => m
  | s :: rest, m => engine.awaitAll rest (m.join engine s.agent).2

/-- Dispatches every event that is received until the bus is closed, and waits for all executions:
how many they are, and the machine after them. -/
def listen (engine : Engine σ) (received : List Received) (m : Machine σ) : Nat × Machine σ :=
  let (started, m) := engine.dispatchAll received m
  (started.length, engine.awaitAll started m)

/-- Runs a workflow over data to its end. -/
def start (engine : Engine σ) (w : Workflow) (data : Json) (m : Machine σ) :
    Execution × Machine σ :=
  let (e, supply) := engine.prepare w data m.supply
  Machine.await engine (engine.drive w e) { m with supply }

/-- Runs the workflow of an identifier over data to its end, if it is active. -/
def execute (engine : Engine σ) (id : String) (data : Json) (m : Machine σ) :
    Except EngineError Execution × Machine σ :=
  match m.store.find? id with
  | none => (.error (.workflowNotFound id), m)
  | some (w : Workflow) =>
    if w.isActive then
      let (e, m) := engine.start w data m
      (.ok e, m)
    else (.error (.workflowInactive w.id), m)

/-- Performs one action over data, for as long as it takes. -/
def invoke (engine : Engine σ) (a : Action) (data : Json) (m : Machine σ) :
    Reply × Machine σ :=
  let (replies, m) := Machine.await engine (Program.invoke none .inTurn [prepared data a]) m
  match replies with
  | some [reply] => (reply, m)
  | _ => (.error (.handler (.crashed "handler task was never started")), m)

end Engine

end EventFlow
