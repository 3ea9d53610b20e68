import EventFlow.Data.Assoc
import EventFlow.Record.Action
import EventFlow.Text.Blank

/-!
# Handlers

A handler performs the actions of one type. It is called with the action, its placeholders already
replaced, and the data of the run; it may change the world `σ` it works in, takes a number of
milliseconds, and ends with an output or a failure, or crashes. A registry names the handler of
each type.
-/

set_option autoImplicit false

namespace EventFlow

/-- How a handler fails. -/
inductive HandlerFailure where
  /-- The action is unusable. -/
  | invalidInput (reason : String)
  /-- The side effect failed. -/
  | failed (reason : String)
  /-- The handler was torn down. -/
  | crashed (reason : String)
deriving DecidableEq

namespace HandlerFailure

/-- What a caller is told. -/
def message : HandlerFailure → String
  | invalidInput reason => s!"invalid action input: {reason}"
  | failed reason => s!"action failed: {reason}"
  | crashed reason => s!"handler crashed: {reason}"

end HandlerFailure

/-- Why an action has no output. -/
inductive DispatchError where
  | notRegistered (actionType : String)
  | handler (failure : HandlerFailure)
deriving DecidableEq

namespace DispatchError

/-- What a caller is told. -/
def message : DispatchError → String
  | notRegistered actionType => s!"no handler registered for action type '{actionType}'"
  | handler failure => failure.message

end DispatchError

/-- The output of an action, or why there is none. -/
abbrev Reply := Except DispatchError Json

/-- What a handler is called with: an action whose placeholders are replaced, and the data of the
run. -/
structure Invocation where
  action : Action
  data : Json
deriving DecidableEq

/-- A call that is under way: the world and the supply after its start, the milliseconds it takes,
and how it will end. -/
structure Call (σ : Type) where
  world : σ
  supply : Supply
  duration : Nat
  reply : Except HandlerFailure Json

/-- A handler in a world. -/
abbrev Handler (σ : Type) := Invocation → Supply → σ → Call σ

/-- The handlers by the type of action they perform, in ascending order of the types. -/
abbrev Registry (σ : Type) := List (String × Handler σ)

namespace Registry

variable {σ : Type}

/-- The registry with one more handler, which takes the place of an earlier one. -/
def register (actionType : String) (handler : Handler σ) (registry : Registry σ) : Registry σ :=
  Assoc.insert actionType handler registry

/-- Whether a type has a handler. -/
def contains (registry : Registry σ) (actionType : String) : Bool :=
  (Assoc.find? actionType registry).isSome

/-- The types that have a handler. -/
def types (registry : Registry σ) : List String := registry.map (·.1)

end Registry

/-- The address of a recipient: a text, or an object that holds one under a key. An address is not
blank. -/
def recipientAddress (recipient : Json) (key : String) : Option String :=
  let address := match recipient with
    | .string s => some s
    | .object members => (Assoc.find? key members).bind Json.asString?
    | _ => none
  address.filter fun s => !Text.isBlankText s

end EventFlow
