import EventFlow.Config.Basic
import EventFlow.Store.Basic

/-!
# Failed commands

Why a command fails, and what the user is told.
-/

set_option autoImplicit false

namespace EventFlow.CommandLine

/-- Why a command fails. -/
inductive Failure where
  | config (e : ConfigError)
  | storeUnreadable (path : String)
  | bundleUnreadable (path : String)
  | bundleMalformed (path : String)
  | store (e : StoreError)
  | invalidWorkflows (invalid total : Nat)
  | malformedData
  /-- There is no memory for the events that a bus is to keep. -/
  | noRoom
  | outputUnwritable (path : String)
  | noListener (bind : String)
deriving DecidableEq

/-- What the user is told. -/
def Failure.message : Failure → String
  | config e => e.message
  | storeUnreadable path => s!"cannot open store {path}"
  | bundleUnreadable path => s!"cannot read {path}"
  | bundleMalformed path => s!"{path} is not a definition bundle"
  | store e => e.message
  | invalidWorkflows invalid total => s!"{invalid} of {total} workflow(s) failed validation"
  | malformedData => "--data is not valid JSON"
  | noRoom => "capacity overflow"
  | outputUnwritable path => s!"cannot write {path}"
  | noListener bind => s!"cannot listen on {bind}"

/-- The code that the program ends with. Where memory does not suffice it breaks off. -/
def Failure.exitCode : Failure → Nat
  | noRoom => 101
  | _ => 1

/-- The line that reports a failure, unless the program breaks off. -/
def Failure.report? : Failure → Option String
  | noRoom => none
  | f => some ("Error: " ++ f.message)

end EventFlow.CommandLine
