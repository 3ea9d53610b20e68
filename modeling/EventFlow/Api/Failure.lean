import EventFlow.Engine.Failure
import EventFlow.Http.Message
import EventFlow.Json.Printer
import EventFlow.Store.Basic

/-!
# Failed requests

A request is refused for its form, with nothing but a status, or fails for a reason that the
response tells.
-/

set_option autoImplicit false

namespace EventFlow.Api

/-- Why the form of a request is refused. -/
inductive Refusal where
  | unknownPath
  | wrongMethod
  /-- An identifier in the path is no text, or not of the right form. -/
  | badIdentifier
  | badQuery
  /-- The body is not said to be JSON. -/
  | wrongContentType
  | tooLarge
  /-- The body is not JSON. -/
  | malformedBody
  /-- The body is JSON of the wrong shape. -/
  | wrongShape
deriving DecidableEq

/-- The status of a refusal. -/
def Refusal.status : Refusal → Nat
  | unknownPath => 404
  | wrongMethod => 405
  | badIdentifier => 400
  | badQuery => 400
  | wrongContentType => 415
  | tooLarge => 413
  | malformedBody => 400
  | wrongShape => 422

/-- Why a request fails. -/
inductive Failure where
  | refused (r : Refusal)
  | store (e : StoreError)
  | engine (e : EngineError)
  | blankEventType
deriving DecidableEq

namespace Failure

/-- The status of a failure. -/
def status : Failure → Nat
  | refused r => r.status
  | store (.notFound _ _) => 404
  | store (.duplicate _ _) => 409
  | store (.alreadyRecorded _) => 409
  | store (.notTerminal _) => 422
  | store (.snapshotFile _) => 500
  | store .snapshotText => 500
  | engine (.workflowNotFound _) => 404
  | engine (.workflowInactive _) => 409
  | blankEventType => 400

/-- What a caller is told, if anything. -/
def message? : Failure → Option String
  | refused _ => none
  | store e => some e.message
  | engine e => some e.message
  | blankEventType => some "event_type must not be empty"

/-- The response to a request that fails. -/
def response (f : Failure) : Http.Response :=
  match f.message? with
  | some text => .json f.status (Document.object [("error", .string text)]).compact
  | none => .empty f.status

end Failure

end EventFlow.Api
