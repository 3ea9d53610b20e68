import EventFlow.Engine.Program

/-!
# Waiting for replies

The calls that a program has asked for are made in turn or together. `Waiting` says which replies
have come and which calls are still to be made; `Waiting.poll` says where to go on. Calls in turn
end with the first failure, and a call whose type has no handler is answered without being made.
-/

set_option autoImplicit false

namespace EventFlow

/-- Calls that a program waits for. -/
structure Waiting where
  /-- The time at which the program stops waiting. -/
  deadline : Option Nat
  /-- The replies to the calls made so far, as far as they have come. -/
  replies : List (Option Reply)
  /-- The calls that are made after these, one after the other. -/
  rest : List Invocation

namespace Waiting

/-- What comes of waiting. -/
inductive Outcome where
  /-- Every call has its reply. -/
  | settled (replies : List Reply)
  /-- There is more to wait for; these calls are to be made now, each for a slot of the replies. -/
  | pending (waiting : Waiting) (made : List (Nat × Invocation))

/-- The replies, if all have come. -/
def all? : List (Option Reply) → Option (List Reply)
  | [] => some []
  | some reply :: rest => (all? rest).map (reply :: ·)
  | none :: _ => none

/-- Whether a reply is a failure. -/
def isFailure (reply : Reply) : Bool := !reply.isOk

/-- The reply to a call whose type has no handler. -/
def refusal (call : Invocation) : Reply := .error (.notRegistered call.action.actionType)

/-- Where to go on, given which types have a handler. -/
def poll (contains : String → Bool) (w : Waiting) : Outcome :=
  match all? w.replies with
  | none => .pending w []
  | some replies =>
    if replies.any isFailure then .settled replies
    else match w.rest with
      | [] => .settled replies
      | call :: rest =>
        if contains call.action.actionType then
          .pending ⟨w.deadline, w.replies ++ [none], rest⟩ [(w.replies.length, call)]
        else .settled (replies ++ [refusal call])

/-- The first calls of a request. -/
def start (contains : String → Bool) (deadline : Option Nat) (order : CallOrder)
    (calls : List Invocation) : Outcome :=
  match order with
  | .inTurn => poll contains ⟨deadline, [], calls⟩
  | .together =>
    let known (call : Invocation) := contains call.action.actionType
    let replies := calls.map fun call => if known call then none else some (refusal call)
    match all? replies with
    | some replies => .settled replies
    | none =>
      let made := (calls.zipIdx.filter fun c => known c.1).map fun c => (c.2, c.1)
      .pending ⟨deadline, replies, []⟩ made

/-- The waiting after the reply for a slot has come. -/
def fill (slot : Nat) (reply : Reply) (w : Waiting) : Waiting :=
  { w with replies := w.replies.set slot (some reply) }

/-- Every call that is made leaves the list of those still to be made. -/
theorem length_rest_of_poll {contains : String → Bool} {w w' : Waiting}
    {made : List (Nat × Invocation)} (h : w.poll contains = .pending w' made) :
    w'.rest.length + made.length = w.rest.length := by
  unfold poll at h
  split at h
  · cases h; simp
  · split at h
    · cases h
    · split at h
      · cases h
      · next hrest =>
        split at h
        · cases h; simp [hrest]
        · cases h

end Waiting

end EventFlow
