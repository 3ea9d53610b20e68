import EventFlow.Proofs.Engine.Isolation
import EventFlow.Proofs.Engine.Kindred
import EventFlow.Proofs.Store.Requests

/-!
# What can be foreseen

A `Behaviour` says of every call how long it takes and how it ends, whatever else happens. Where
handlers behave so, calls that are made have one answer (`Behaviour.answer`), unless one of them
ends at the very instant at which the time is up (`Behaviour.Untied`), and a program has one result
(`Program.foreseen`). `Program.Comes` says that it comes to a result with some property. Neither
clock nor identifier decides what a run does, so driving a workflow comes to an execution that is
like the one foreseen for any other beginning (`Engine.comes_driven`). Driving is `Engine.drive`, in
`EventFlow.Engine.Run`.
-/

set_option autoImplicit false

namespace EventFlow

variable {σ α β γ δ : Type}

/-- What handlers do that depend on nothing but what they are called with: how many milliseconds a
call takes, and how it ends. -/
structure Behaviour where
  duration : Invocation → Nat
  reply : Invocation → Except HandlerFailure Json

/-- Whatever the world and the supply are, the handlers behave in one way. -/
def Engine.Behaves (engine : Engine σ) (b : Behaviour) : Prop :=
  ∀ (call : Invocation) (handler : Handler σ),
    Assoc.find? call.action.actionType engine.handlers = some handler →
    ∀ supply world, (handler call supply world).duration = b.duration call ∧
      (handler call supply world).reply = b.reply call

namespace Behaviour

variable (b : Behaviour) (known : String → Bool)

/-- The reply to a call. -/
def replyTo (call : Invocation) : Reply :=
  if known call.action.actionType then (b.reply call).mapError .handler else Waiting.refusal call

/-- Whether a call that is made now still runs when the time is up. -/
def isLate (left : Option Nat) (call : Invocation) : Bool :=
  known call.action.actionType && left.any fun ms => decide (ms ≤ b.duration call)

/-- The answer to calls made one after the other, up to the first that fails, when so many
milliseconds are left. -/
def inTurn : Option Nat → List Invocation → Option (List Reply)
  | _, [] => some []
  | left, call :: rest =>
    let reply := b.replyTo known call
    if b.isLate known left call then none
    else if Waiting.isFailure reply then some [reply]
    else (inTurn (left.map (· - b.duration call)) rest).map (reply :: ·)

/-- The answer to calls made all at once. -/
def together (left : Option Nat) (calls : List Invocation) : Option (List Reply) :=
  if calls.any (b.isLate known left) then none else some (calls.map (b.replyTo known))

/-- The answer to calls. -/
def answer (left : Option Nat) : CallOrder → List Invocation → Option (List Reply)
  | .inTurn => b.inTurn known left
  | .together => b.together known left

/-- A call that is made now does not end at the very instant at which the time is up. -/
def UntiedCall (left : Option Nat) (call : Invocation) : Prop :=
  known call.action.actionType = true → left ≠ some (b.duration call)

/-- Of calls made one after the other none ends at the very instant at which the time is up. -/
def UntiedInTurn : Option Nat → List Invocation → Prop
  | _, [] => True
  | left, call :: rest => b.UntiedCall known left call ∧
    (b.isLate known left call = false → Waiting.isFailure (b.replyTo known call) = false →
      UntiedInTurn (left.map (· - b.duration call)) rest)

/-- None of the calls that are made ends at the very instant at which the time is up. -/
def Untied (left : Option Nat) : CallOrder → List Invocation → Prop
  | .inTurn, calls => b.UntiedInTurn known left calls
  | .together, calls => ∀ call ∈ calls, b.UntiedCall known left call

variable {b known}

theorem replyTo_of_known {call : Invocation} (h : known call.action.actionType = true) :
    b.replyTo known call = (b.reply call).mapError .handler := if_pos h

/-- A call whose type has a handler takes as long as foreseen and is replied to as foreseen. -/
theorem replyTo_of_behaves {engine : Engine σ} (behaves : engine.Behaves b) {call : Invocation}
    (handled : engine.handlers.contains call.action.actionType = true) (supply : Supply)
    (world : σ) : ∃ handler, Assoc.find? call.action.actionType engine.handlers = some handler ∧
      (handler call supply world).duration = b.duration call ∧
      (handler call supply world).reply.mapError DispatchError.handler =
        b.replyTo engine.handlers.contains call := by
  obtain ⟨handler, found⟩ := Option.isSome_iff_exists.1 handled
  obtain ⟨duration, reply⟩ := behaves call handler found supply world
  exact ⟨handler, found, duration, by rw [reply, replyTo_of_known handled]⟩

theorem replyTo_of_unknown {call : Invocation} (h : known call.action.actionType = false) :
    b.replyTo known call = Waiting.refusal call := if_neg (by simp [h])

theorem isLate_of_unknown {left : Option Nat} {call : Invocation}
    (h : known call.action.actionType = false) : b.isLate known left call = false := by
  simp [isLate, h]

theorem isLate_iff {left : Option Nat} {call : Invocation}
    (h : known call.action.actionType = true) :
    b.isLate known left call = true ↔ ∃ ms, left = some ms ∧ ms ≤ b.duration call := by
  simp [isLate, h, Option.any_eq_true]

end Behaviour

/-! ## The results of programs -/

namespace Program

variable (b : Behaviour) (known : String → Bool) (c : Collections)

/-- The result of a program when the clock stands still, the collections are these, and its calls
are answered as foreseen. -/
def foreseen : Program α → α
  | .done a => a
  | .clock next => (next default).foreseen
  | .collections next => (next c).foreseen
  | .record _ next => next.foreseen
  | .sleep _ next => next.foreseen
  | .call limit order calls next => (next (b.answer known limit order calls)).foreseen

/-- On its way to that result, none of the program's calls ends at the very instant at which the
time is up. -/
def Untied : Program α → Prop
  | .done _ => True
  | .clock next => (next default).Untied
  | .collections next => (next c).Untied
  | .record _ next => next.Untied
  | .sleep _ next => next.Untied
  | .call limit order calls next => b.Untied known limit order calls ∧
    (next (b.answer known limit order calls)).Untied

/-- The program does not look into the store. Whatever the clock tells, it comes to a result with a
property if its calls are answered as foreseen, and none of them ends at the very instant at which
the time is up. -/
def Comes (Q : α → Prop) : Program α → Prop
  | .done a => Q a
  | .clock next => ∀ time, (next time).Comes Q
  | .collections _ => False
  | .record _ next => next.Comes Q
  | .sleep _ next => next.Comes Q
  | .call limit order calls next => b.Untied known limit order calls ∧
    (next (b.answer known limit order calls)).Comes Q

variable {b known c}

/-- What goes on from kindred programs to related results comes to what is foreseen for the
other. -/
theorem Kindred.comes {R : α → β → Prop} {S : γ → δ → Prop} {p : Program α} {q : Program β}
    (h : Kindred R p q) {f : α → Program γ} {g : β → Program δ}
    (hf : ∀ a a', R a a' → (f a).Comes b known fun x => S x ((g a').foreseen b known c))
    (untied : (q >>= g).Untied b known c) :
    (p >>= f).Comes b known fun x => S x ((q >>= g).foreseen b known c) := by
  change (q.bind g).Untied b known c at untied
  change (p.bind f).Comes b known fun x => S x ((q.bind g).foreseen b known c)
  induction h with
  | done h => exact hf _ _ h
  | clock _ ih => exact fun time => ih time default untied
  | sleep ms _ ih => exact ih untied
  | call limit order calls _ ih => exact ⟨untied.1, ih _ untied.2⟩

end Program

/-- A plan is taken from the definitions alone. -/
theorem Plan.ofCollections_congr {c c' : Collections} (same : ∀ k, c'.table k = c.table k)
    (w : Workflow) : Plan.ofCollections c' w = Plan.ofCollections c w := by
  have steps : c'.steps = c.steps := same .step
  have actions : c'.actions = c.actions := same .action
  have conditions : c'.conditions = c.conditions := same .condition
  simp only [Plan.ofCollections, steps, actions, conditions]

open Execution (Abreast EndAlike) in
/-- A workflow that is driven over an execution comes to one like that which is foreseen for any
other beginning. -/
theorem Engine.comes_driven (engine : Engine σ) {b : Behaviour} {known : String → Bool}
    (w : Workflow) {c c' : Collections} (same : ∀ k, c'.table k = c.table k) {e e' : Execution}
    (alike : e.Alike e') (running : e.status = .running)
    (untied : (engine.drive w e').Untied b known c) :
    (engine.driven e w c').Comes b known
      fun x => EndAlike e.id e'.id x ((engine.drive w e').foreseen b known c) := by
  have kindred : Program.Kindred (EndAlike e.id e'.id) (engine.run (.ofCollections c' w) e)
      (engine.run (.ofCollections c w) e') := by
    rw [Plan.ofCollections_congr same]
    exact engine.kindred_run _ ⟨alike, rfl, rfl, running⟩
  exact kindred.comes (fun _ _ ends => ends) untied

end EventFlow
