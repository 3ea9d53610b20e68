import EventFlow.Engine.Failure
import EventFlow.Engine.Plan
import EventFlow.Engine.Program
import EventFlow.Engine.Settings
import EventFlow.Store.Disk
import EventFlow.Template.Interpolate
import EventFlow.Time.Sleep

/-!
# Attempts at a step

One attempt at a step, bounded by its timeout. An action step calls its handlers in turn and ends
with the first failure; a parallel step calls them all at once and fails with the first failing
action of its list. Both call nothing at all if an action is missing or, except where failures are
passed over, its type has no handler. A condition step answers whether all its conditions hold,
and a wait step sleeps.
-/

set_option autoImplicit false

namespace EventFlow

/-- What an engine works with: the handlers, the predicates, the settings, and where the store is
kept. -/
structure Engine (σ : Type) where
  handlers : Registry σ
  predicates : Predicates
  settings : EngineSettings
  disk : Disk σ

namespace Engine

variable {σ : Type}

/-- What an action is called with: it is interpolated, and the data is the run's. -/
def prepared (data : Json) (a : Action) : Invocation := ⟨Template.interpolateAction data a, data⟩

/-- The actions of identifiers, or the first identifier that leads nowhere. -/
def resolve (p : Plan) : List String → Except StepError (List Action)
  | [] => .ok []
  | id :: rest =>
    match p.action? id with
    | some a => (resolve p rest).map (a :: ·)
    | none => .error (.missingAction id)

/-- The failure of the first action whose type has no handler. -/
def unregistered? (engine : Engine σ) (actions : List Action) : Option StepError :=
  (actions.find? fun a => !engine.handlers.contains a.actionType).map fun a =>
    .action a.id (.notRegistered a.actionType)

/-- The actions of a step, all of them with a handler. -/
def callable (engine : Engine σ) (p : Plan) (s : Step) : Except StepError (List Action) :=
  match resolve p s.actionIds with
  | .error e => .error e
  | .ok actions =>
    match engine.unregistered? actions with
    | some e => .error e
    | none => .ok actions

/-- The outputs of actions, or the failure of the first that fails. -/
def outputs : List Action → List Reply → Except StepError (List Json)
  | a :: actions, reply :: replies =>
    match reply with
    | .ok output => (outputs actions replies).map (output :: ·)
    | .error e => .error (.action a.id e)
  | _, _ => .ok []

/-- Whether all conditions hold; those after the first that does not are not looked at. -/
def holdAll (engine : Engine σ) (p : Plan) (data : Json) : List String → Except StepError Bool
  | [] => .ok true
  | id :: rest =>
    match p.condition? id with
    | none => .error (.missingCondition id)
    | some c =>
      match c.kind.evaluate engine.predicates data with
      | .error e => .error (.condition id e)
      | .ok false => .ok false
      | .ok true => engine.holdAll p data rest

/-- The milliseconds that a wait step sleeps. -/
def duration (engine : Engine σ) (s : Step) : Except StepError Nat :=
  match s.config.get? "duration" with
  | none | some .null => .ok engine.settings.defaultWaitMs.toNat
  | some value =>
    match value.asUInt64? with
    | some ms => .ok ms.toNat
    | none => .error (.invalidDuration s.id value)

/-- The milliseconds that an attempt at a step may take. -/
def limit (s : Step) : Nat := s.timeoutMs.toNat

/-- The failure of an attempt that takes too long. -/
def timedOut (s : Step) : StepError := .timeout s.id s.timeoutMs

/-- Calls actions for a step, for as long as it may take. -/
def callAll (s : Step) (order : CallOrder) (data : Json) (actions : List Action) :
    Program (Except StepError (List Reply)) := do
  match ← Program.invoke (some (limit s)) order (actions.map (prepared data)) with
  | some replies => return .ok replies
  | none => return .error (timedOut s)

/-- An attempt at an action step. -/
def runActions (engine : Engine σ) (p : Plan) (s : Step) (data : Json) :
    Program (Except StepError Json) :=
  match engine.callable p s with
  | .error e => return .error e
  | .ok actions => do
    match ← callAll s .inTurn data actions with
    | .error e => return .error e
    | .ok replies => return (outputs actions replies).map .array

/-- An attempt at a wait step: a wait that lasts as long as the step may take succeeds. -/
def wait (engine : Engine σ) (s : Step) : Program (Except StepError Json) :=
  match engine.duration s with
  | .error e => return .error e
  | .ok ms => do
    let lasting := Sleep.lasting ms
    Program.pause (min lasting (limit s))
    if limit s < lasting then return .error (timedOut s)
    else return .ok (.ofMembers [("waited", .ofNat ms)])

/-- An attempt at a step of one of the kinds that are run one call at a time. -/
def interpret (engine : Engine σ) (p : Plan) (s : Step) (data : Json) :
    Program (Except StepError Json) :=
  match s.kind with
  | .action => engine.runActions p s data
  | .condition => return (engine.holdAll p data s.conditionIds).map .bool
  | .wait => engine.wait s
  | .parallel => return .error (.unsupportedKind s.kind)

/-- What a parallel step says of an action that has an output. -/
def outputEntry (a : Action) (output : Json) : Json :=
  .ofMembers [("action_id", .string a.id), ("output", output)]

/-- What a parallel step says of an action that fails. -/
def errorEntry (a : Action) (text : String) : Json :=
  .ofMembers [("action_id", .string a.id), ("error", .string text)]

/-- An attempt at a parallel step, which fails with the first failing action of its list. -/
def fanOut (engine : Engine σ) (p : Plan) (s : Step) (data : Json) :
    Program (Except StepError Json) :=
  match engine.callable p s with
  | .error e => return .error e
  | .ok actions => do
    match ← callAll s .together data actions with
    | .error e => return .error e
    | .ok replies =>
      return (outputs actions replies).map fun values =>
        .array (List.zipWith outputEntry actions values)

/-- An attempt at a step. -/
def attempt (engine : Engine σ) (p : Plan) (s : Step) (data : Json) :
    Program (Except StepError Json) :=
  if s.kind = .parallel then engine.fanOut p s data else engine.interpret p s data

/-- An attempt at a parallel step that passes over failing actions: what becomes of each action,
in the order of the list. -/
def fanOutAll (p : Plan) (s : Step) (data : Json) :
    Program (Except StepError (List (Action × Reply))) :=
  match resolve p s.actionIds with
  | .error e => return .error e
  | .ok actions => do
    match ← callAll s .together data actions with
    | .error e => return .error e
    | .ok replies => return .ok (actions.zip replies)

end Engine

end EventFlow
