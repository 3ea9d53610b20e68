import EventFlow.CommandLine.Failure
import EventFlow.CommandLine.Invocation
import EventFlow.CommandLine.Report
import EventFlow.Engine.Trigger
import EventFlow.Handler.Builtin
import EventFlow.Store.Starter

/-!
# Running commands

`run` carries out an invocation over a tree of files, and says what is printed, how it ends and
which files there are then. The store is read from its file once; from then on it writes its
snapshots into the tree, where file actions may be in its way.
-/

set_option autoImplicit false

namespace EventFlow.CommandLine

/-- A command under way: its machine, and the lines that it has printed. -/
structure Desk where
  machine : Machine World
  printed : List String

/-- What a command does; what is printed before it fails stays printed. -/
abbrev Running := ExceptT Failure (StateM Desk)

namespace Running

variable {α : Type}

/-- Prints a line. -/
def print (line : String) : Running Unit :=
  modify fun d => { d with printed := d.printed ++ [line] }

/-- Prints lines. -/
def printAll (lines : List String) : Running Unit :=
  modify fun d => { d with printed := d.printed ++ lines }

/-- What the machine does. -/
def onMachine (f : Machine World → α × Machine World) : Running α :=
  modifyGet fun d =>
    let (a, machine) := f d.machine
    (a, { d with machine })

/-- What draws on the supply. -/
def onSupply (f : Supply → α × Supply) : Running α :=
  onMachine fun m =>
    let (a, supply) := f m.supply
    (a, { m with supply })

/-- What changes the store at a path, and may draw on the supply. -/
def onStore (path : String) (f : Store → Supply → α × Store × Supply) : Running α :=
  onMachine fun m =>
    let ((a, supply), m) := m.change (World.disk path) fun s =>
      let (a, s, supply) := f s m.supply
      ((a, supply), s)
    (a, { m with supply })

/-- The store as it is. -/
def store : Running Store := return (← get).machine.store

/-- The files as they are. -/
def files : Running FileTree := return (← get).machine.world.files

/-- The workflow of an identifier. -/
def workflow (id : String) : Running Workflow := do
  match (← store).get Workflow id with
  | .ok w => return w
  | .error e => throw (.store e)

/-- The bundle of a file. -/
def bundle (path : String) : Running Collections := do
  match (← files).read path with
  | .error _ => throw (.bundleUnreadable path)
  | .ok text =>
    match ← onSupply fun supply =>
      match Store.readSnapshot text supply with
      | some (c, supply) => (some c, supply)
      | none => (none, supply) with
    | some c => return c
    | none => throw (.bundleMalformed path)

end Running

open Running

/-- Loads a bundle, the starter bundle if no file is named. -/
def load (source : Option String) (storePath : String) : Running Unit := do
  let c ← match source with
    | some path => bundle path
    | none => pure (Starter.bundle (← onSupply Supply.now))
  match ← onStore storePath fun s supply => s.seed c supply with
  | .ok report => print (loadedLine report storePath)
  | .error e => throw (.store e)

/-- Validates a workflow, or all of them. -/
def validate (engine : Engine World) (id : Option String) : Running Unit := do
  let targets ← match id with
    | some id => pure [← workflow id]
    | none => pure ((← store).list Workflow)
  let c := (← store).collections
  let answers := targets.map fun w => (w.id, engine.validate c w)
  printAll (answers.flatMap fun (id, answer) => validationLines id answer)
  let invalid := answers.countP fun (_, answer) => !answer.toBool
  if 0 < invalid then throw (.invalidWorkflows invalid targets.length)

/-- Describes a workflow. -/
def describe (id : String) : Running Unit := do
  let w ← workflow id
  printAll (workflowLines w ((← store).stepsOf w.id))

/-- Publishes an event, and waits for the executions that it starts. -/
def publish (engine : Engine World) (capacity : Nat) (eventType data : String) :
    Running Unit := do
  match Json.read? data with
  | none => throw .malformedData
  | some data =>
    if Bus.largestRoom < Bus.roomFor capacity then throw .noRoom
    let since ← onSupply Supply.now
    let (subscriber, bus) := (Bus.make capacity).subscribe
    let event ← onSupply (Event.make eventType data)
    let received := (bus.publish event).2.close.backlog subscriber
    let started ← onMachine (engine.listen received)
    print s!"Event '{eventType}' started {started} execution(s)"
    let executions := (← store).query ⟨none, none, some since, none⟩
    printAll (executions.flatMap startedLines)
    let messages ← onMachine fun m =>
      let (messages, world) := m.world.drain
      (messages, { m with world })
    printAll (messages.map messageLine)

/-- Lists executions, newest first. -/
def list (workflowId : Option String) (status : Option ExecutionStatus) (limit : Nat) :
    Running Unit := do
  let executions := (← store).query ⟨workflowId, status, none, none⟩
  printAll ((executions.take limit).map executionLine)

/-- Exports a collection into a file, or prints it. -/
def exportAll (format : ExportFormat) (target : ExportTarget) (output : Option String) :
    Running Unit := do
  let text ← onSupply ((← store).exportText format target)
  match output with
  | none => print text
  | some path =>
    match (← files).write path text with
    | .error _ => throw (.outputUnwritable path)
    | .ok files =>
      onMachine fun m => ((), { m with world := { m.world with files } })

/-- Carries out a command. -/
def execute (engine : Engine World) (config : Config) : Command → Running Unit
  | .serve bind => throw (.noListener (bind.getD config.bind))
  | .init source => load source config.storePath
  | .validate id => validate engine id
  | .describe id => describe id
  | .publish eventType data => publish engine config.eventCapacity eventType data
  | .executions workflowId status limit => list workflowId status limit
  | .stats => do print (← store).statistics.document.pretty
  | .exportText format target output => exportAll format target output

/-! ## From files to files -/

/-- The configuration of an invocation. -/
def configuration (i : Invocation) (files : FileTree) : Except Failure Config :=
  let withStore (c : Config) : Config := { c with storePath := i.store.getD c.storePath }
  match i.config with
  | none => .ok (withStore .default)
  | some path =>
    match Config.ofFile path (files.read path).toOption with
    | .ok c => .ok (withStore c)
    | .error e => .error (.config e)

/-- The snapshot file of a path, which need not exist. -/
def backing (files : FileTree) (path : String) : Except Failure Backing :=
  let withContent (content : Option String) : Backing := ⟨content, none, fun _ => .written⟩
  match files.read path with
  | .ok text => .ok (withContent (some text))
  | .error .notFound => .ok (withContent none)
  | .error _ => .error (.storeUnreadable path)

/-- The store of a path. -/
def openStore (files : FileTree) (path : String) (supply : Supply) :
    Except Failure (Store × Supply) := do
  let b ← backing files path
  match Store.openFile b supply with
  | .ok opened => .ok opened
  | .error _ => .error (.storeUnreadable path)

/-- How an invocation ends. -/
structure Outcome where
  /-- What is printed. -/
  output : String
  failure : Option Failure
  files : FileTree
  supply : Supply
  /-- The milliseconds that were waited. -/
  elapsed : Nat

/-- What lines print. -/
def textOfLines (lines : List String) : String := String.join (lines.map (· ++ "\n"))

/-- Carries out an invocation over files. -/
def run (i : Invocation) (files : FileTree) (supply : Supply) : Outcome :=
  let refused (f : Failure) : Outcome := ⟨"", some f, files, supply, 0⟩
  match configuration i files with
  | .error f => refused f
  | .ok config =>
    match openStore files config.storePath supply with
    | .error f => refused f
    | .ok (store, supply) =>
      let engine : Engine World :=
        ⟨.builtin config.fileBaseDir, fun _ => none, config.engine, World.disk config.storePath⟩
      let start : Desk := ⟨⟨0, supply, store, .start files, [], []⟩, []⟩
      let (result, d) := (execute engine config i.command).run.run start
      let failure := match result with
        | .ok () => none
        | .error f => some f
      let m := d.machine
      ⟨textOfLines d.printed, failure, m.world.files, m.supply, m.time⟩

end EventFlow.CommandLine
