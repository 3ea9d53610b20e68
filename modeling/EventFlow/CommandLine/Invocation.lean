import EventFlow.CommandLine.Help
import EventFlow.Store.Bundle
import EventFlow.Text.Digits

/-!
# Invocations

The eight commands, their options and operands, and the two options that every command shares.
The shared options may stand before the command's name and after it, where the latter counts, and
take their values from the environment where they are not given. A ninth name asks for help, as
two flags do.
-/

set_option autoImplicit false

namespace EventFlow.CommandLine

/-- What is to be done. -/
inductive Command where
  | serve (bind : Option String)
  | init (source : Option String)
  | validate (workflowId : Option String)
  | describe (workflowId : String)
  | publish (eventType data : String)
  | executions (workflowId : Option String) (status : Option ExecutionStatus) (limit : Nat)
  | stats
  | exportText (format : ExportFormat) (target : ExportTarget) (output : Option String)
deriving DecidableEq

/-- A command, and the files of the configuration and of the store. -/
structure Invocation where
  config : Option String
  store : Option String
  command : Command
deriving DecidableEq

/-- What can be asked for by its name. -/
inductive Verb where
  | serve
  | init
  | validate
  | describe
  | publish
  | executions
  | stats
  | exportText
  | help
deriving DecidableEq

namespace Verb

def all : List Verb :=
  [serve, init, validate, describe, publish, executions, stats, exportText, help]

def name : Verb → String
  | serve => "serve"
  | init => "init"
  | validate => "validate"
  | describe => "show"
  | publish => "publish"
  | executions => "executions"
  | stats => "stats"
  | exportText => "export"
  | help => "help"

/-- What it is for. -/
def about : Verb → String
  | serve => "Start the REST API server"
  | init => "Load definitions into the store.  Existing ids are kept"
  | validate => "Validate one workflow, or every workflow in the store"
  | describe => "Print a workflow and the steps it owns"
  | publish => "Publish an event and wait for the executions it starts"
  | executions => "List recorded executions, newest first"
  | stats => "Print workflow and execution counters"
  | exportText => "Export workflow definitions or the execution ledger"
  | help => "Print this message or the help of the given subcommand(s)"

/-- The verb of a name. -/
def ofName? (text : String) : Option Verb := all.find? (·.name == text)

theorem ofName?_name (v : Verb) : ofName? v.name = some v := by cases v <;> decide

end Verb

/-! ## Options -/

/-- An option whose value is a path. -/
def pathOption (name : String) (letter : Option Char) (about : String) : Spec :=
  ⟨name, letter, about, (!·.isEmpty), none, none, []⟩

/-- An option whose value is any text. -/
def textOption (name about : String) : Spec := ⟨name, none, about, fun _ => true, none, none, []⟩

/-- The number that the text of a limit stands for. -/
def limit? (text : String) : Option Nat :=
  (Text.natural? text.toList).filter (· < UInt64.size)

/-- The limit of a list of executions that names none. -/
def defaultLimit : Nat := 20

/-- The data of an event that comes with none. -/
def defaultData : String := "\x7b\x7d"

/-- The file of the configuration. -/
def configOption : Spec :=
  { pathOption "config" (some 'c') "TOML configuration file" with
    variableName := some "WORKFLOW_CONFIG" }

/-- The file of the store. -/
def storeOption : Spec :=
  { pathOption "store" none "Store snapshot file; overrides `[store] path`" with
    variableName := some "WORKFLOW_STORE" }

/-- The address to listen on. -/
def bindOption : Spec :=
  { textOption "bind" "Overrides `[server] bind`" with variableName := some "WORKFLOW_BIND" }

/-- The data of an event. -/
def dataOption : Spec :=
  { textOption "data" "Event payload as JSON" with fallback := some defaultData }

/-- The status of listed executions. -/
def statusOption : Spec :=
  { textOption "status" "" with accepts := fun text => (ExecutionStatus.ofName? text).isSome }

/-- The number of listed executions. -/
def limitOption : Spec :=
  { textOption "limit" "" with
    accepts := fun text => (limit? text).isSome, fallback := some (toString defaultLimit) }

/-- How an export is written. -/
def formatOption : Spec :=
  { textOption "format" "" with
    accepts := fun text => (ExportFormat.ofName? text).isSome
    fallback := some "json", choices := ["json", "csv"] }

/-- What is exported. -/
def collectionOption : Spec :=
  { textOption "collection" "" with
    accepts := fun text => (ExportTarget.ofName? text).isSome
    fallback := some "workflows", choices := ["workflows", "executions"] }

/-! ## Levels -/

/-- The options that a verb understands, in the order in which they are shown. Those of the
configuration and of the store come with every command. -/
def Verb.options : Verb → List Spec
  | serve => [bindOption, configOption, storeOption]
  | init =>
    [configOption,
      pathOption "from" none "Definition bundle to load instead of the built-in defaults",
      storeOption]
  | validate | describe | stats => [configOption, storeOption]
  | publish => [configOption, dataOption, storeOption]
  | executions => [configOption, textOption "workflow" "", statusOption, storeOption, limitOption]
  | exportText =>
    [configOption, formatOption, collectionOption, storeOption,
      pathOption "output" (some 'o') "Write to this file instead of stdout"]
  | help => []

/-- The operands that a verb understands. -/
def Verb.operands : Verb → List Operand
  | validate => [⟨"[WORKFLOW_ID]", ""⟩]
  | describe => [⟨"<WORKFLOW_ID>", ""⟩]
  | publish => [⟨"<EVENT_TYPE>", ""⟩]
  | help => [⟨"[COMMAND]...", "Print help for the subcommand(s)"⟩]
  | _ => []

/-- The level of the arguments of a verb. -/
def Verb.level (v : Verb) : Level := ⟨v.options, v.operands, false⟩

/-- The level in front of a verb. -/
def outerLevel : Level := ⟨[configOption, storeOption], [], true⟩

/-- The name of the program. -/
def programName : String := "workflow-engine"

/-- The name and the version of the program. -/
def versionText : String := programName ++ " 0.1.0\n"

/-- What there is to say on a verb, or on the whole program. -/
def topic : Option Verb → Topic
  | some v => ⟨v.about, [programName, v.name], v.level, []⟩
  | none =>
    ⟨"Event-driven workflow automation engine", [programName], outerLevel,
      Verb.all.map fun v => (v.name, v.about)⟩

/-- What the user is told of a verb, or of the whole program. -/
def helpText (subject : Option Verb) (environment : Environment) : String :=
  String.join (((topic subject).lines environment).map (· ++ "\n"))

/-! ## Reading arguments -/

/-- What is said instead of carrying out a command. -/
inductive Reply where
  /-- That the arguments are not understood. -/
  | usage
  | help (subject : Option Verb)
  | version
deriving DecidableEq

/-- What is said where the arguments of a verb, or those in front of it, lead to no command. -/
def Halt.reply (subject : Option Verb) : Halt → Reply
  | usage => .usage
  | help => .help subject
  | version => .version

/-- The command of a verb and what is given for it. -/
def Verb.command? (v : Verb) (g : Given) (environment : Environment) : Option Command :=
  match v, g.operands with
  | .serve, _ => some (.serve (g.value? "bind" <|> environment.lookup "WORKFLOW_BIND"))
  | .init, _ => some (.init (g.value? "from"))
  | .validate, operands => some (.validate operands.head?)
  | .describe, [id] => some (.describe id)
  | .publish, [eventType] => some (.publish eventType ((g.value? "data").getD defaultData))
  | .executions, _ =>
    some (.executions (g.value? "workflow") ((g.value? "status").bind ExecutionStatus.ofName?)
      (((g.value? "limit").bind limit?).getD defaultLimit))
  | .stats, _ => some .stats
  | .exportText, _ =>
    some (.exportText (((g.value? "format").bind ExportFormat.ofName?).getD .json)
      (((g.value? "collection").bind ExportTarget.ofName?).getD .workflows) (g.value? "output"))
  | _, _ => none

/-- The value of a shared option: the one after the verb, the one before it, or the variable's. A
variable that is looked at must not be empty. -/
def shared (name variableName : String) (environment : Environment) (outer inner : Given) :
    Except Halt (Option String) :=
  let fallback := environment.lookup variableName
  match outer.value? name, inner.value? name with
  | some _, some value => .ok (some value)
  | before, behind =>
    if fallback == some "" then .error .usage
    else .ok (behind <|> before <|> fallback)

/-- What is said to a user who asks for help on what is named: on nothing, or on a verb. -/
def helpOn : List String → Reply
  | [] => .help none
  | [name] => match Verb.ofName? name with
    | some v => .help (some v)
    | none => .usage
  | _ => .usage

/-- The invocation of a verb, given what is in front of it and the arguments behind it. -/
def Verb.invocation (v : Verb) (outer : Given) (arguments : List String)
    (environment : Environment) : Except Halt Invocation := do
  let (inner, rest) ← v.level.scan arguments .nothing
  let inner ← v.level.settled inner
  let outer ← outerLevel.settled outer
  let config ← shared "config" "WORKFLOW_CONFIG" environment outer inner
  let store ← shared "store" "WORKFLOW_STORE" environment outer inner
  match rest, v.command? inner environment with
  | [], some command => .ok ⟨config, store, command⟩
  | _, _ => .error .usage

/-- The invocation that arguments make. -/
def parse (arguments : List String) (environment : Environment) : Except Reply Invocation :=
  match outerLevel.scan arguments .nothing with
  | .error h => .error (h.reply none)
  | .ok (_, []) => .error .usage
  | .ok (outer, name :: rest) =>
    match Verb.ofName? name with
    | none => .error .usage
    | some .help => .error (helpOn rest)
    | some v => (v.invocation outer rest environment).mapError (·.reply (some v))

end EventFlow.CommandLine
