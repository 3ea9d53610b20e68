import EventFlow.Engine.Waiting

/-!
# What a program does

A program asks and the world around it answers. `Program.Performs` relates a program to the effects
it may have and to the result it then ends with, whatever the clock, the store and the handlers
say. Only the replies to calls are bound to a shape, by `Answers`: calls in turn are made one by one
up to the first that fails, calls made together are each made once in any order, and a type without
a handler is refused without a call. When the time is up, some of the calls may have been made.

What a composed program does is what its parts do, one after the other (`Performs.of_bind`).
Programs are those of `EventFlow.Engine.Program`.
-/

set_option autoImplicit false

namespace EventFlow

/-- A call of a handler, and how the handler ends it. -/
structure Served where
  call : Invocation
  outcome : Except HandlerFailure Json

/-- What a caller is told is a failure exactly if the handler has no output. -/
theorem Waiting.isFailure_mapError (outcome : Except HandlerFailure Json) :
    isFailure (outcome.mapError DispatchError.handler) = true ↔
      ¬ ∃ output, outcome = .ok output := by
  cases outcome with
  | ok output =>
    constructor
    · intro fails
      cases fails
    · intro fails
      exact absurd ⟨output, rfl⟩ fails
  | error failure =>
    constructor
    · rintro _ ⟨output, h⟩
      cases h
    · intro _
      rfl

namespace Served

/-- What the caller is told. -/
def reply (s : Served) : Reply := s.outcome.mapError .handler

/-- Whether the handler has an output. -/
def Succeeds (s : Served) : Prop := ∃ output, s.outcome = .ok output

theorem isFailure_reply (s : Served) : Waiting.isFailure s.reply = true ↔ ¬ s.Succeeds :=
  Waiting.isFailure_mapError s.outcome

end Served

/-- What a program does at once, with the answer it is given. The calls of a request stand together,
in the order in which the handlers were called. -/
inductive Effect where
  | readClock (time : Instant)
  | sawCollections (c : Collections)
  | recorded (e : Execution)
  | slept (ms : Nat)
  | called (served : List Served)

/-- The calls of handlers that effects consist of. -/
def Effect.calls (effects : List Effect) : List Served :=
  effects.flatMap fun
    | .called served => served
    | _ => []

namespace Effect

@[simp] theorem calls_nil : calls [] = [] := rfl

@[simp] theorem calls_append (first second : List Effect) :
    calls (first ++ second) = calls first ++ calls second := List.flatMap_append

@[simp] theorem calls_called (served : List Served) (rest : List Effect) :
    calls (.called served :: rest) = served ++ calls rest := rfl

@[simp] theorem calls_readClock (time : Instant) (rest : List Effect) :
    calls (.readClock time :: rest) = calls rest := rfl

@[simp] theorem calls_sawCollections (c : Collections) (rest : List Effect) :
    calls (.sawCollections c :: rest) = calls rest := rfl

@[simp] theorem calls_recorded (e : Execution) (rest : List Effect) :
    calls (.recorded e :: rest) = calls rest := rfl

@[simp] theorem calls_slept (ms : Nat) (rest : List Effect) :
    calls (.slept ms :: rest) = calls rest := rfl

end Effect

/-! ## Answers to calls -/

section Answers

variable (known : String → Bool)

/-- `InTurn known calls served replies`: calls that are made one after the other have been answered,
up to the first that fails or whose type has no handler. -/
inductive InTurn : List Invocation → List Served → List Reply → Prop
  | nil : InTurn [] [] []
  | unknown {call : Invocation} (rest : List Invocation)
      (h : known call.action.actionType = false) :
      InTurn (call :: rest) [] [Waiting.refusal call]
  | failed {s : Served} (rest : List Invocation) (h : known s.call.action.actionType = true)
      (fails : ¬ s.Succeeds) : InTurn (s.call :: rest) [s] [s.reply]
  | next {s : Served} {rest : List Invocation} {served : List Served} {replies : List Reply}
      (h : known s.call.action.actionType = true) (succeeds : s.Succeeds)
      (others : InTurn rest served replies) :
      InTurn (s.call :: rest) (s :: served) (s.reply :: replies)

/-- `Together known calls served replies`: every call has its reply, and those whose type has a
handler have been made. -/
inductive Together : List Invocation → List Served → List Reply → Prop
  | nil : Together [] [] []
  | unknown {call : Invocation} {rest : List Invocation} {served : List Served}
      {replies : List Reply} (h : known call.action.actionType = false)
      (others : Together rest served replies) :
      Together (call :: rest) served (Waiting.refusal call :: replies)
  | known {s : Served} {rest : List Invocation} {served : List Served} {replies : List Reply}
      (h : known s.call.action.actionType = true) (others : Together rest served replies) :
      Together (s.call :: rest) (s :: served) (s.reply :: replies)

/-- `Answers known order calls served answer`: calls may be answered so, and the handlers called are
these; there is no answer when the time is up. -/
inductive Answers : CallOrder → List Invocation → List Served → Option (List Reply) → Prop
  | inTurn {calls : List Invocation} {served : List Served} {replies : List Reply}
      (h : InTurn known calls served replies) : Answers .inTurn calls served (some replies)
  | together {calls : List Invocation} {made served : List Served} {replies : List Reply}
      (h : Together known calls served replies) (anyOrder : made.Perm served) :
      Answers .together calls made (some replies)
  | inTurnLate {calls : List Invocation} {served : List Served}
      (first : served.map Served.call <+: calls) (succeed : ∀ s ∈ served.dropLast, s.Succeeds) :
      Answers .inTurn calls served none
  | togetherLate {calls : List Invocation} {served : List Served} {others : List Invocation}
      (apart : (served.map Served.call ++ others).Perm calls) : Answers .together calls served none

end Answers

/-! ## Programs -/

namespace Program

variable {α β : Type} {known : String → Bool}

/-- `Performs known p effects a`: the program may have these effects, in this order, and then end
with the result `a`. -/
inductive Performs (known : String → Bool) : Program α → List Effect → α → Prop
  | done (a : α) : Performs known (.done a) [] a
  | clock {next : Instant → Program α} {effects : List Effect} {a : α} (time : Instant)
      (h : Performs known (next time) effects a) :
      Performs known (.clock next) (.readClock time :: effects) a
  | collections {next : Collections → Program α} {effects : List Effect} {a : α}
      (c : Collections) (h : Performs known (next c) effects a) :
      Performs known (.collections next) (.sawCollections c :: effects) a
  | record {next : Program α} {effects : List Effect} {a : α} (e : Execution)
      (h : Performs known next effects a) :
      Performs known (.record e next) (.recorded e :: effects) a
  | sleep {next : Program α} {effects : List Effect} {a : α} (ms : Nat)
      (h : Performs known next effects a) :
      Performs known (.sleep ms next) (.slept ms :: effects) a
  | call {limit : Option Nat} {order : CallOrder} {calls : List Invocation}
      {next : Option (List Reply) → Program α} {served : List Served}
      {answer : Option (List Reply)} {effects : List Effect} {a : α}
      (answered : Answers known order calls served answer)
      (h : Performs known (next answer) effects a) :
      Performs known (.call limit order calls next) (.called served :: effects) a

/-- A program followed by another does what the first does and then what the second does. -/
theorem Performs.of_bind {p : Program α} {f : α → Program β} {effects : List Effect} {b : β}
    (h : Performs known (p >>= f) effects b) :
    ∃ first a second, effects = first ++ second ∧ Performs known p first a ∧
      Performs known (f a) second b := by
  change Performs known (p.bind f) effects b at h
  induction p generalizing effects with
  | done a => exact ⟨[], a, effects, rfl, .done a, h⟩
  | clock next ih =>
    cases h with | clock time h =>
    obtain ⟨first, a, second, rfl, hp, hf⟩ := ih time h
    exact ⟨.readClock time :: first, a, second, rfl, .clock time hp, hf⟩
  | collections next ih =>
    cases h with | collections c h =>
    obtain ⟨first, a, second, rfl, hp, hf⟩ := ih c h
    exact ⟨.sawCollections c :: first, a, second, rfl, .collections c hp, hf⟩
  | record e next ih =>
    cases h with | record _ h =>
    obtain ⟨first, a, second, rfl, hp, hf⟩ := ih h
    exact ⟨.recorded e :: first, a, second, rfl, .record e hp, hf⟩
  | sleep ms next ih =>
    cases h with | sleep _ h =>
    obtain ⟨first, a, second, rfl, hp, hf⟩ := ih h
    exact ⟨.slept ms :: first, a, second, rfl, .sleep ms hp, hf⟩
  | call limit order calls next ih =>
    cases h with | call answered h =>
    obtain ⟨first, a, second, rfl, hp, hf⟩ := ih _ h
    exact ⟨_ :: first, a, second, rfl, .call answered hp, hf⟩

theorem Performs.of_pure {a b : α} {effects : List Effect}
    (h : Performs known (pure a) effects b) : effects = [] ∧ b = a := by
  cases h
  exact ⟨rfl, rfl⟩

theorem Performs.of_now {time : Instant} {effects : List Effect}
    (h : Performs known now effects time) : effects = [.readClock time] := by
  cases h with | clock time h =>
  cases h
  rfl

theorem Performs.of_pause {ms : Nat} {u : Unit} {effects : List Effect}
    (h : Performs known (pause ms) effects u) : effects = [.slept ms] := by
  cases h with | sleep _ h =>
  cases h
  rfl

theorem Performs.of_invoke {limit : Option Nat} {order : CallOrder} {calls : List Invocation}
    {answer : Option (List Reply)} {effects : List Effect}
    (h : Performs known (invoke limit order calls) effects answer) :
    ∃ served, effects = [.called served] ∧ Answers known order calls served answer := by
  cases h with | call answered h =>
  cases h
  exact ⟨_, rfl, answered⟩

end Program

end EventFlow
