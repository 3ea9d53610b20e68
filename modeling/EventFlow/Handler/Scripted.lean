import EventFlow.Handler.World
import EventFlow.Time.Sleep

/-!
# Scripted handlers

A scripted handler stands in for a side effect: it keeps the calls it has had, and ends each of
them as its script says.
-/

set_option autoImplicit false

namespace EventFlow

/-- How the calls of a scripted handler end. -/
inductive Script where
  | succeed (value : Json)
  | fail (reason : String)
  /-- The first calls fail, the later ones succeed. -/
  | failFirst (times : Nat) (value : Json)
  | delay (ms : Nat) (value : Json)
  | crash (reason : String)
deriving DecidableEq

namespace Script

/-- The output of a call that succeeds: the handler's name and the action's identifier, overlaid
by the members of the script's value. -/
def output (name : String) (a : Action) (value : Json) : Json :=
  let own := Assoc.ofList [("handler", .string name), ("action_id", .string a.id)]
  match value with
  | .object members => .object (Assoc.overlay own members)
  | _ => .object own

/-- How a call ends after a number of earlier calls. -/
def reply (name : String) (a : Action) (earlier : Nat) : Script → Except HandlerFailure Json
  | succeed value => .ok (output name a value)
  | fail reason => .error (.failed reason)
  | failFirst times value =>
    if earlier < times then
      let number := earlier + 1
      .error (.failed s!"{name} failure #{number}")
    else .ok (output name a value)
  | delay _ value => .ok (output name a value)
  | crash reason => .error (.crashed reason)

/-- The milliseconds that a call takes. -/
def duration : Script → Nat
  | delay ms _ => Sleep.lasting ms
  | _ => 0

/-- The scripted handler of a number, which keeps its calls under that number. -/
def handler (number : Nat) (name : String) (script : Script) : Handler World :=
  fun call supply world =>
    let earlier := (world.calls[number]?.map List.length).getD 0
    let world := { world with calls := world.calls.modify number (· ++ [call]) }
    ⟨world, supply, script.duration, script.reply name call.action earlier⟩

end Script

end EventFlow
