import EventFlow.Engine.Attempt

/-!
# Runs of workflows

A run takes the positions of a plan in order. What a failing step does to the run is up to its
error policy: the run fails, the failure is recorded and the run goes on, or the step is attempted
again after a delay. A condition step that does not hold stops the run. A run always ends in a
terminal status and is then put into the ledger.
-/

set_option autoImplicit false

namespace EventFlow.Engine

variable {σ : Type}

/-- What a run does after a step. -/
inductive Flow where
  | proceed
  | halt (status : ExecutionStatus)
deriving DecidableEq

/-- The position of a plan that a run is at. -/
structure Place where
  index : Nat
  step : Step

/-- The execution with one more result. -/
def noteResult (s : Step) (output : Json) (e : Execution) : Program Execution := do
  return e.pushResult s.id s.name output (← Program.now)

/-- The execution with one more error. -/
def noteError (place : Place) (text : String) (e : Execution) : Program Execution := do
  return e.pushError place.index place.step.id text (← Program.now)

/-- After a step that succeeds: its output is recorded, unless it is a condition that does not
hold, which stops the run. -/
def succeed (s : Step) (output : Json) (e : Execution) : Program (Flow × Execution) :=
  if s.kind = .condition ∧ output = .bool false then return (.halt .stopped, e)
  else return (.proceed, ← noteResult s output e)

/-- After a failure that is passed over: it is recorded as an error and as the step's output. -/
def passOver (place : Place) (text : String) (e : Execution) : Program (Flow × Execution) := do
  let e ← noteError place text e
  return (.proceed, ← noteResult place.step (.ofMembers [("error", .string text)]) e)

/-- What a parallel step that passes over failures records of its actions: an error for each
failure, and an entry of its output for each action. -/
def noteReplies (place : Place) : List (Action × Reply) → Execution →
    Program (List Json × Execution)
  | [], e => return ([], e)
  | (a, .ok output) :: rest, e => do
    let (entries, e) ← noteReplies place rest e
    return (outputEntry a output :: entries, e)
  | (a, .error error) :: rest, e => do
    let text := (StepError.action a.id error).message
    let e ← noteError place text e
    let (entries, e) ← noteReplies place rest e
    return (errorEntry a text :: entries, e)

/-- A step whose failure ends the run. -/
def runOnce (engine : Engine σ) (p : Plan) (data : Json) (place : Place) (e : Execution) :
    Program (Flow × Execution) := do
  match ← engine.attempt p place.step data with
  | .ok output => succeed place.step output e
  | .error error =>
    let e ← noteError place error.message e
    return (.halt .failed, e)

/-- A step whose failure is passed over. -/
def runAnyway (engine : Engine σ) (p : Plan) (data : Json) (place : Place) (e : Execution) :
    Program (Flow × Execution) := do
  if place.step.kind = .parallel then
    match ← fanOutAll p place.step data with
    | .ok replies =>
      let (entries, e) ← noteReplies place replies e
      return (.proceed, ← noteResult place.step (.array entries) e)
    | .error error => passOver place error.message e
  else
    match ← engine.attempt p place.step data with
    | .ok output => succeed place.step output e
    | .error error => passOver place error.message e

/-- A step that is attempted `left` more times, of `total` in all. -/
def runAgain (engine : Engine σ) (p : Plan) (data : Json) (place : Place) (total : Nat) :
    Nat → Execution → Program (Flow × Execution)
  | 0, e => return (.halt .failed, e)
  | left + 1, e => do
    match ← engine.attempt p place.step data with
    | .ok output => succeed place.step output e
    | .error error =>
      let number := total - left
      let text := error.message
      let e ← noteError place s!"attempt {number}/{total}: {text}" e
      if left = 0 then return (.halt .failed, e)
      else
        Program.pause (engine.settings.retryDelay number)
        engine.runAgain p data place total left e

/-- How often a step is attempted at most when it is run up to `attempts` more times: once more
than that, as far as 32 bits go. -/
def totalAttempts (attempts : UInt32) : Nat := min (attempts.toNat + 1) (UInt32.size - 1)

/-- A step under its error policy. -/
def runStep (engine : Engine σ) (p : Plan) (data : Json) (place : Place) (e : Execution) :
    Program (Flow × Execution) :=
  match place.step.errorPolicy with
  | .stop => engine.runOnce p data place e
  | .continue => engine.runAnyway p data place e
  | .retry attempts =>
    let total := totalAttempts attempts
    engine.runAgain p data place total total e

/-- The execution moved to a terminal status. -/
def finished (status : ExecutionStatus) (e : Execution) : Program Execution := do
  return e.finish status (← Program.now)

/-- The positions of a plan from an index on. -/
def runFrom (engine : Engine σ) (p : Plan) (data : Json) :
    Nat → List PlanEntry → Execution → Program Execution
  | _, [], e => finished .completed e
  | index, entry :: rest, e =>
    let e := { e with currentStepIndex := index }
    match entry.step with
    | none => do
      let text := (StepError.missingStep entry.stepId).message
      let e := e.pushError index entry.stepId text (← Program.now)
      finished .failed e
    | some s => do
      match ← engine.runStep p data ⟨index, s⟩ e with
      | (.proceed, e) => engine.runFrom p data (index + 1) rest e
      | (.halt status, e) => finished status e

/-- A run of a plan. -/
def run (engine : Engine σ) (p : Plan) (e : Execution) : Program Execution :=
  engine.runFrom p e.data 0 p.entries e

/-- A workflow is run: its plan is taken, run, and the execution put into the ledger. -/
def drive (engine : Engine σ) (w : Workflow) (e : Execution) : Program Execution := do
  let collections ← Program.snapshot
  let e ← engine.run (Plan.ofCollections collections w) e
  Program.recorded e
  return e

/-- The data of a run: the defaults of the workflow, overlaid by the members of the event's data;
data of another form is kept as the payload. -/
def context (defaults data : Json) : Json :=
  let base := match defaults with
    | .object members => members
    | _ => []
  match data with
  | .object members => .object (Assoc.overlay base members)
  | .null => .object base
  | other => .object (Assoc.insert "payload" other base)

/-- A running execution of a workflow over an event's data. -/
def prepare (engine : Engine σ) (w : Workflow) (data : Json) (supply : Supply) :
    Execution × Supply :=
  Execution.begin w (context w.defaults data) engine.settings.actor supply

end EventFlow.Engine
