import EventFlow.Proofs.Engine.Calls
import EventFlow.Proofs.Engine.Solo

/-!
# Actions in turn and all at once

Where the handlers of a step's actions end in a way that depends on what they are called with alone
(`Engine.EndsAs`), an attempt that calls them in turn and one that calls them all at once come to
the same: to the first failure of `FailsFirst`, or to an output of every action. One stops at the
first handler that fails and the other calls all of them, but neither looks at a reply after the
first failure (`Engine.outputs_of_inTurn`, `Engine.replies_of_together`). Both ask for their calls
by `Engine.callAll` and read the replies by `Engine.outputs` (`EventFlow.Engine.Attempt`).
-/

set_option autoImplicit false

namespace EventFlow

variable {σ β : Type}

/-- `engine.EndsAs outcome call`: whatever the supply and the world are, a handler that is called so
ends with one outcome. -/
def Engine.EndsAs (engine : Engine σ) (outcome : Invocation → Except HandlerFailure Json)
    (call : Invocation) : Prop :=
  ∀ handler, Assoc.find? call.action.actionType engine.handlers = some handler →
    ∀ supply world, (handler call supply world).reply = outcome call

/-! ## The calls of a machine -/

/-- A call that has been made of a handler of an engine. -/
def Served.MadeBy (engine : Engine σ) (s : Served) : Prop :=
  ∃ handler, Assoc.find? s.call.action.actionType engine.handlers = some handler ∧
    ∃ supply world, (handler s.call supply world).reply = s.outcome

/-- A handler that ends in one way has ended in it. -/
theorem Served.MadeBy.outcome_eq {engine : Engine σ} {s : Served} (h : s.MadeBy engine)
    {outcome : Invocation → Except HandlerFailure Json} (ends : engine.EndsAs outcome s.call) :
    s.outcome = outcome s.call := by
  obtain ⟨handler, found, supply, world, reply⟩ := h
  rw [← reply, ends handler found]

/-- What an alarm serves is served by a handler of the engine. -/
theorem Alarm.madeBy_of_served {engine : Engine σ} {m : Machine σ} {a : Alarm} {s : Served}
    (h : s ∈ a.served engine m) : s.MadeBy engine := by
  unfold Alarm.served at h
  split at h
  · split at h
    · next handler found =>
      obtain rfl := List.mem_singleton.1 h
      exact ⟨handler, found, m.supply, m.world, rfl⟩
    · cases h
  · cases h

/-- What is served next is served by a handler of the engine. -/
theorem Scene.madeBy_of_served {engine : Engine σ} {x : Scene σ β} {s : Served}
    (h : s ∈ x.served engine) : s.MadeBy engine := by
  unfold Scene.served at h
  split at h
  · cases h
  · split at h
    · cases h
    · exact Alarm.madeBy_of_served h

/-- Everything that is called until the agent in front has ended is a handler of the engine. -/
theorem Scene.madeBy_of_calls {engine : Engine σ} {x : Scene σ β} {s : Served}
    (h : s ∈ x.calls engine) : s.MadeBy engine := by
  induction x using Scene.calls.induct engine with
  | case1 x result hresult =>
    rw [calls] at h
    split at h <;> simp_all
  | case2 x hresult ih =>
    rw [calls] at h
    split at h
    · cases h
    · exact (List.mem_append.1 h).elim Scene.madeBy_of_served ih

/-- Everything that a program calls is served by handlers of the engine. -/
theorem Machine.madeBy_of_calls {engine : Engine σ} {p : Program β} {m : Machine σ} {s : Served}
    (h : s ∈ Machine.calls engine p m) : s.MadeBy engine :=
  Scene.madeBy_of_calls h

/-- A result that is changed comes from one. -/
theorem Except.exists_of_map_eq_ok {ε α γ : Type} {f : α → γ} {x : Except ε α} {c : γ}
    (h : x.map f = .ok c) : ∃ a, x = .ok a ∧ c = f a := by
  cases x with
  | ok a =>
    cases h
    exact ⟨a, rfl, rfl⟩
  | error e => cases h

/-- A failure is that of what was changed. -/
theorem Except.eq_error_of_map_eq_error {ε α γ : Type} {f : α → γ} {x : Except ε α} {e : ε}
    (h : x.map f = .error e) : x = .error e := by
  cases x with
  | ok a => cases h
  | error e' =>
    cases h
    rfl

namespace Engine

variable {engine : Engine σ} {p : Plan} {s : Step} {data : Json}
  {outcome : Invocation → Except HandlerFailure Json}

/-! ## Replies -/

/-- What the caller of an action is told. -/
def told (outcome : Invocation → Except HandlerFailure Json) (data : Json) (a : Action) : Reply :=
  (outcome (prepared data a)).mapError .handler

/-- The reply to a call is what its handler ends with. -/
theorem reply_eq_told {a : Action} {served : Served} (call : served.call = prepared data a)
    (ends : served.outcome = outcome served.call) : served.reply = told outcome data a := by
  rw [Served.reply, ends, call, told]

/-- Every action is told how its handler ends. -/
theorem replies_of_together {known : String → Bool} {actions : List Action} {served : List Served}
    {replies : List Reply} (all : ∀ a ∈ actions, known a.actionType = true)
    (ends : ∀ s ∈ served, s.outcome = outcome s.call)
    (h : Together known (actions.map (prepared data)) served replies) :
    replies = actions.map (told outcome data) := by
  induction actions generalizing served replies with
  | nil =>
    cases h
    rfl
  | cons a rest ih =>
    obtain ⟨known_first, known_others⟩ := List.forall_mem_cons.1 all
    rw [List.map_cons] at h
    generalize call : prepared data a = c at h
    cases h with
    | unknown unknown =>
      rw [← call] at unknown
      rw [show (prepared data a).action.actionType = a.actionType from rfl, known_first] at unknown
      cases unknown
    | known _ others =>
      obtain ⟨ends_first, ends_others⟩ := List.forall_mem_cons.1 ends
      rw [List.map_cons, reply_eq_told call.symm ends_first, ih known_others ends_others others]

/-- The first failing action of a list fails in the same way when those after it are not called. -/
theorem outputs_of_inTurn {known : String → Bool} {actions : List Action} {served : List Served}
    {replies : List Reply} (all : ∀ a ∈ actions, known a.actionType = true)
    (ends : ∀ s ∈ served, s.outcome = outcome s.call)
    (h : InTurn known (actions.map (prepared data)) served replies) :
    outputs actions replies = outputs actions (actions.map (told outcome data)) := by
  induction actions generalizing served replies with
  | nil =>
    cases h
    rfl
  | cons a rest ih =>
    obtain ⟨known_first, known_others⟩ := List.forall_mem_cons.1 all
    rw [List.map_cons] at h
    generalize call : prepared data a = c at h
    cases h with
    | unknown _ unknown =>
      rw [← call] at unknown
      rw [show (prepared data a).action.actionType = a.actionType from rfl, known_first] at unknown
      cases unknown
    | @failed s _ _ fails =>
      have reply := reply_eq_told call.symm (ends s (List.mem_singleton_self s))
      rw [List.map_cons, ← reply]
      rw [← Served.isFailure_reply] at fails
      cases failing : s.reply with
      | ok output =>
        rw [failing] at fails
        cases fails
      | error e => rfl
    | @next s _ _ _ _ succeeds others =>
      obtain ⟨ends_first, ends_others⟩ := List.forall_mem_cons.1 ends
      have reply := reply_eq_told call.symm ends_first
      have later := ih known_others ends_others others
      rw [List.map_cons, ← reply]
      cases s.reply with
      | ok output => exact congrArg (Except.map (output :: ·)) later
      | error e => rfl

/-! ## The first failure -/

/-- `engine.FailsFirst outcome p s data e`: how the first thing fails that is wrong with the actions
of a step. -/
inductive FailsFirst (engine : Engine σ) (outcome : Invocation → Except HandlerFailure Json)
    (p : Plan) (s : Step) (data : Json) : StepError → Prop
  | missing {before after : List String} {id : String} (here : s.actionIds = before ++ id :: after)
      (found : ∀ other ∈ before, ∃ a, p.action? other = some a) (nowhere : p.action? id = none) :
      FailsFirst engine outcome p s data (.missingAction id)
  /-- All actions are there, but not all have a handler. -/
  | unregistered {before after : List Action} {a : Action}
      (lists : p.Lists s (before ++ a :: after))
      (handled : ∀ b ∈ before, engine.handles b = true) (unhandled : engine.handles a = false) :
      FailsFirst engine outcome p s data (.action a.id (.notRegistered a.actionType))
  /-- All actions can be called, but not all of their handlers succeed. -/
  | failed {before after : List Action} {a : Action} {failure : HandlerFailure}
      (lists : p.Lists s (before ++ a :: after))
      (handled : ∀ b ∈ before ++ a :: after, engine.handles b = true)
      (succeed : ∀ b ∈ before, ∃ output, outcome (prepared data b) = .ok output)
      (fails : outcome (prepared data a) = .error failure) :
      FailsFirst engine outcome p s data (.action a.id (.handler failure))

/-- If identifiers are not resolved, the first that leads nowhere is named. -/
theorem missing_of_resolve {ids : List String} {e : StepError} (h : resolve p ids = .error e) :
    ∃ before id after, ids = before ++ id :: after ∧
      (∀ other ∈ before, ∃ a, p.action? other = some a) ∧ p.action? id = none ∧
      e = .missingAction id := by
  induction ids generalizing e with
  | nil => cases h
  | cons id rest ih =>
    rw [resolve] at h
    split at h
    · next a found =>
      cases later : resolve p rest with
      | ok actions =>
        rw [later] at h
        cases h
      | error e' =>
        rw [later] at h
        cases h
        obtain ⟨before, other, after, rfl, all, nowhere, rfl⟩ := ih later
        exact ⟨id :: before, other, after, rfl, List.forall_mem_cons.2 ⟨⟨a, found⟩, all⟩, nowhere,
          rfl⟩
    · next nowhere =>
      cases h
      exact ⟨[], id, rest, rfl, List.forall_mem_nil _, nowhere, rfl⟩

/-- A step that cannot be called names the first action that is missing or has no handler. -/
theorem failsFirst_of_callable {e : StepError} (h : engine.callable p s = .error e) :
    engine.FailsFirst outcome p s data e := by
  unfold callable at h
  split at h
  · next e' resolved =>
    cases h
    obtain ⟨before, id, after, here, found, nowhere, rfl⟩ := missing_of_resolve resolved
    exact .missing here found nowhere
  · next actions resolved =>
    split at h
    · next e' unregistered =>
      cases h
      obtain ⟨a, first, rfl⟩ := Option.map_eq_some_iff.1 unregistered
      obtain ⟨unhandled, before, after, rfl, handled⟩ := List.find?_eq_some_iff_append.1 first
      exact .unregistered (resolve_eq_ok_iff.1 resolved)
        (fun b hb => by simpa [handles] using handled b hb) (by simpa [handles] using unhandled)
    · cases h

/-- All actions have an output where no handler fails. -/
theorem outcomes_of_outputs {actions : List Action} {values : List Json}
    (h : outputs actions (actions.map (told outcome data)) = .ok values) :
    actions.map (fun a => outcome (prepared data a)) = values.map .ok := by
  induction actions generalizing values with
  | nil =>
    cases h
    rfl
  | cons a rest ih =>
    rw [List.map_cons, told] at h
    cases ending : outcome (prepared data a) with
    | error failure =>
      rw [ending] at h
      cases h
    | ok output =>
      rw [ending] at h
      obtain ⟨others, later, rfl⟩ := Except.exists_of_map_eq_ok h
      rw [List.map_cons, List.map_cons, ending, ih later]

/-- If outputs are refused, the first failure is named. -/
theorem failed_of_outputs {actions : List Action} {e : StepError}
    (h : outputs actions (actions.map (told outcome data)) = .error e) :
    ∃ before a after failure, actions = before ++ a :: after ∧
      (∀ b ∈ before, ∃ output, outcome (prepared data b) = .ok output) ∧
      outcome (prepared data a) = .error failure ∧ e = .action a.id (.handler failure) := by
  induction actions generalizing e with
  | nil => cases h
  | cons a rest ih =>
    rw [List.map_cons, told] at h
    cases ending : outcome (prepared data a) with
    | error failure =>
      rw [ending] at h
      cases h
      exact ⟨[], a, rest, failure, rfl, nofun, ending, rfl⟩
    | ok output =>
      rw [ending] at h
      obtain ⟨before, b, after, failure, rfl, succeed, fails, rfl⟩ :=
        ih (Except.eq_error_of_map_eq_error h)
      exact ⟨a :: before, b, after, failure, rfl,
        List.forall_mem_cons.2 ⟨⟨output, ending⟩, succeed⟩, fails, rfl⟩

/-! ## Attempts -/

/-- What comes of the actions of a step if each ends as its handler does: their outputs, or the
first failure. -/
def verdict (engine : Engine σ) (outcome : Invocation → Except HandlerFailure Json) (p : Plan)
    (s : Step) (data : Json) : Except StepError (List Action × List Json) :=
  match engine.callable p s with
  | .error e => .error e
  | .ok actions => (outputs actions (actions.map (told outcome data))).map (actions, ·)

/-- Every action that a step refers to has a handler that ends with one outcome. -/
def StepEndsAs (engine : Engine σ) (outcome : Invocation → Except HandlerFailure Json) (p : Plan)
    (s : Step) (data : Json) : Prop :=
  ∀ id ∈ s.actionIds, ∀ a, p.action? id = some a → engine.EndsAs outcome (prepared data a)

/-- A verdict that is a failure is the first. -/
theorem failsFirst_of_verdict {e : StepError} (h : engine.verdict outcome p s data = .error e) :
    engine.FailsFirst outcome p s data e := by
  unfold verdict at h
  split at h
  · next e' refused =>
    cases h
    exact failsFirst_of_callable refused
  · next actions called =>
    obtain ⟨lists, handled⟩ := callable_eq_ok_iff.1 called
    obtain ⟨before, a, after, failure, rfl, succeed, ending, rfl⟩ :=
      failed_of_outputs (Except.eq_error_of_map_eq_error h)
    exact .failed lists handled succeed ending

/-- A verdict that is none has an output for each action. -/
theorem of_verdict_eq_ok {actions : List Action} {values : List Json}
    (h : engine.verdict outcome p s data = .ok (actions, values)) :
    p.Lists s actions ∧ actions.map (fun a => outcome (prepared data a)) = values.map .ok := by
  unfold verdict at h
  split at h
  · cases h
  · next actions' called =>
    obtain ⟨values', succeeds, same⟩ := Except.exists_of_map_eq_ok h
    cases same
    exact ⟨(callable_eq_ok_iff.1 called).1, outcomes_of_outputs succeeds⟩

/-- What an attempt says of the outputs of its actions. -/
def presented (kind : StepKind) (x : List Action × List Json) : Json :=
  if kind = .parallel then .array (List.zipWith outputEntry x.1 x.2) else .array x.2

/-- An attempt that is not cut off comes to what its actions come to. -/
theorem Attempted.eq_verdict {served : List Served} {r : Except StepError Json}
    (h : Attempted engine p data s served r) (kind : s.kind = .action ∨ s.kind = .parallel)
    (ends : ∀ c ∈ served, c.outcome = outcome c.call) (inTime : r ≠ .error (timedOut s)) :
    r = (engine.verdict outcome p s data).map (presented s.kind) := by
  rw [verdict]
  cases h with
  | refused _ refused => rw [refused]; rfl
  | inTurn kind' called answered =>
    obtain ⟨-, all⟩ := callable_eq_ok_iff.1 called
    rw [called]
    cases answered with
    | inTurn answered =>
      rw [outputs_of_inTurn all ends answered, kind']
      dsimp only
      cases outputs _ _ <;> rfl
  | together kind' called answered =>
    obtain ⟨-, all⟩ := callable_eq_ok_iff.1 called
    rw [called]
    cases answered with
    | together answered anyOrder =>
      rw [replies_of_together all (fun c hc => ends c (anyOrder.mem_iff.2 hc)) answered, kind']
      dsimp only
      cases outputs _ _ <;> rfl
  | inTurnLate => exact (inTime rfl).elim
  | togetherLate => exact (inTime rfl).elim
  | waitLate => exact (inTime rfl).elim
  | _ kind' => rcases kind with kind | kind <;> rw [kind] at kind' <;> cases kind'

/-- An attempt that is in time comes to the verdict, in turn or together. -/
theorem eq_verdict_of_await {m : Machine σ}
    (ends : engine.StepEndsAs outcome p s data) (kind : s.kind = .action ∨ s.kind = .parallel)
    (inTime : (m.await engine (engine.attempt p s data)).1 ≠ .error (timedOut s)) :
    (m.await engine (engine.attempt p s data)).1 =
      (engine.verdict outcome p s data).map (presented s.kind) := by
  obtain ⟨effects, performs, calls⟩ := performs_of_await engine (engine.attempt p s data) m
  have attempted := attempted_of_performs performs
  refine attempted.eq_verdict kind (fun c hc => ?_) inTime
  obtain ⟨id, hid, a, found, call⟩ := exists_of_attempted attempted hc
  rw [calls] at hc
  exact (Machine.madeBy_of_calls hc).outcome_eq (call ▸ ends id hid a found)

/-! ## Agreement -/

/-- What two attempts at one step have come to, the first of which has called its actions one after
the other, and the second all at once. -/
structure Agree (engine : Engine σ) (outcome : Invocation → Except HandlerFailure Json) (p : Plan)
    (s : Step) (data : Json) (sequential parallel : Except StepError Json) : Prop where
  succeed : (∃ x, parallel = .ok x) ↔ ∃ x, sequential = .ok x
  /-- There is an entry for each identifier of the step, which holds the output that the action has
  among those of the other attempt. -/
  entries : ∀ x, parallel = .ok x → ∃ (actions : List Action) (values entries : List Json),
    p.Lists s actions ∧ sequential = .ok (.array values) ∧ x = .array entries ∧
      values.length = s.actionIds.length ∧ entries.length = s.actionIds.length ∧
      ∀ (i : Nat) (a : Action) (value : Json), actions[i]? = some a → values[i]? = some value →
        outcome (prepared data a) = .ok value ∧
          entries[i]? = some (Json.ofMembers [("action_id", .string a.id), ("output", value)])
  fail : ∀ e, parallel = .error e ↔ sequential = .error e
  first : ∀ e, parallel = .error e → engine.FailsFirst outcome p s data e

/-- One verdict is presented in two ways that agree. -/
theorem agree_of_verdict (engine : Engine σ)
    (outcome : Invocation → Except HandlerFailure Json) (p : Plan) (s : Step) (data : Json) :
    engine.Agree outcome p s data ((engine.verdict outcome p s data).map (presented .action))
      ((engine.verdict outcome p s data).map (presented .parallel)) := by
  cases verdict : engine.verdict outcome p s data with
  | error e =>
    refine ⟨⟨nofun, nofun⟩, nofun, fun e' => Iff.rfl, ?_⟩
    rintro _ ⟨⟩
    exact failsFirst_of_verdict verdict
  | ok x =>
    obtain ⟨actions, values⟩ := x
    obtain ⟨lists, outcomes⟩ := of_verdict_eq_ok verdict
    have listed : s.actionIds.length = actions.length := by
      simpa using congrArg List.length lists
    have given : actions.length = values.length := by
      simpa using congrArg List.length outcomes
    refine ⟨⟨fun _ => ⟨_, rfl⟩, fun _ => ⟨_, rfl⟩⟩, ?_, fun e => ⟨nofun, nofun⟩, nofun⟩
    rintro _ ⟨⟩
    refine ⟨actions, values, List.zipWith outputEntry actions values, lists, rfl, rfl,
      (listed.trans given).symm, ?_, fun i a value here there => ⟨?_, ?_⟩⟩
    · rw [List.length_zipWith, ← given, Nat.min_self, listed]
    · have same := congrArg (·[i]?) outcomes
      simpa [here, there] using same
    · rw [List.getElem?_zipWith, here, there]
      rfl

/-- An attempt at a step that calls its actions all at once comes to the same as one that calls them
one after the other, if neither is cut off. -/
theorem agree_of_await {engine : Engine σ} {outcome : Invocation → Except HandlerFailure Json}
    {p : Plan} {s : Step} {data : Json} (ends : engine.StepEndsAs outcome p s data)
    {m m' : Machine σ}
    (sequential : (m.await engine (engine.attempt p { s with kind := .action } data)).1 ≠
      .error (.timeout s.id s.timeoutMs))
    (parallel : (m'.await engine (engine.attempt p { s with kind := .parallel } data)).1 ≠
      .error (.timeout s.id s.timeoutMs)) :
    engine.Agree outcome p s data
      (m.await engine (engine.attempt p { s with kind := .action } data)).1
      (m'.await engine (engine.attempt p { s with kind := .parallel } data)).1 := by
  have one := eq_verdict_of_await (s := { s with kind := .action }) ends (.inl rfl) sequential
  have all := eq_verdict_of_await (s := { s with kind := .parallel }) ends (.inr rfl) parallel
  rw [one, all]
  exact agree_of_verdict engine outcome p s data

/-- An engine with a bell, and a gong that is cracked. -/
def belfry (bell gong : Nat) : Engine Unit :=
  ⟨[("bell", fun _ supply world => ⟨world, supply, bell, .ok (.string "ding")⟩),
    ("gong", fun _ supply world => ⟨world, supply, gong, .error (.crashed "cracked")⟩)],
    fun _ => none, .default, .apart⟩

/-- How the handlers of the belfry end. -/
def ringing (call : Invocation) : Except HandlerFailure Json :=
  if call.action.actionType = "bell" then .ok (.string "ding") else .error (.crashed "cracked")

/-- How long they take. -/
def lasting (bell gong : Nat) (call : Invocation) : Nat :=
  if call.action.actionType = "bell" then bell else gong

theorem belfry_behaves (bell gong : Nat) :
    (belfry bell gong).Behaves ⟨lasting bell gong, ringing⟩ := by
  intro call handler found supply world
  simp only [belfry, Assoc.find?] at found
  split at found
  · next rings =>
    cases found
    simp [lasting, ringing, ← rings]
  · split at found
    · next rings =>
      cases found
      simp [lasting, ringing, ← rings]
    · cases found

/-- A plan with a bell and a gong. -/
def chimes : Plan :=
  ⟨nightly, [], [("bell", ⟨"bell", "Bell", "", "bell", "", [], .emptyObject, default, anonymous⟩),
    ("gong", ⟨"gong", "Gong", "", "gong", "", [], .emptyObject, default, anonymous⟩)], []⟩

/-- A step that rings both. -/
def chime : Step :=
  ⟨"chime", "nightly", "Chime", "", .parallel, ["bell", "gong"], [], .continue,
    Step.defaultTimeoutMs, 0, .emptyObject, default, anonymous⟩

/-- A step that rings the bell twice. -/
def carillon : Step := { chime with actionIds := ["bell", "bell"], errorPolicy := .stop }

theorem belfry_stepEndsAs (s : Step) : (belfry 1 2).StepEndsAs ringing chimes s .null :=
  fun _ _ _ _ handler found supply world => (belfry_behaves 1 2 _ handler found supply world).2

/-- Where it is foreseen what an attempt comes to, it does. -/
theorem belfry_attempt {s : Step} {r : Except StepError Json}
    (comes : ((belfry 1 2).attempt chimes s .null).Comes ⟨lasting 1 2, ringing⟩
      (belfry 1 2).handlers.contains (· = r)) :
    (idle.await (belfry 1 2) ((belfry 1 2).attempt chimes s .null)).1 = r := by
  -- `Machine.comes_of_await` is about programs that look into the store first.
  have looks : (idle.await (belfry 1 2)
      (.collections fun _ => (belfry 1 2).attempt chimes s .null)).1 = r :=
    Machine.comes_of_await (Q := (· = r)) (belfry_behaves 1 2) rfl comes
  exact looks

/-- The gong fails in one way, whether it is rung after the bell or together with it, and the bell
is heard twice, whether it is rung once more after the first time or both times together. -/
theorem agree_of_await_chimes :
    let cracked : Step := { chime with errorPolicy := .stop }
    let inTurn (s : Step) :=
      (idle.await (belfry 1 2) ((belfry 1 2).attempt chimes { s with kind := .action } .null)).1
    let together (s : Step) :=
      (idle.await (belfry 1 2) ((belfry 1 2).attempt chimes { s with kind := .parallel } .null)).1
    let entry : Json := .ofMembers [("action_id", .string "bell"), ("output", .string "ding")]
    (∀ s ∈ [cracked, carillon], (belfry 1 2).StepEndsAs ringing chimes s .null ∧
        inTurn s ≠ .error (.timeout s.id s.timeoutMs) ∧
        together s ≠ .error (.timeout s.id s.timeoutMs) ∧
        (belfry 1 2).Agree ringing chimes s .null (inTurn s) (together s)) ∧
      inTurn cracked = .error (.action "gong" (.handler (.crashed "cracked"))) ∧
      inTurn carillon = .ok (.array [.string "ding", .string "ding"]) ∧
      together carillon = .ok (.array [entry, entry]) := by
  intro cracked inTurn together entry
  have gong_last : inTurn cracked = .error (.action "gong" (.handler (.crashed "cracked"))) :=
    belfry_attempt ⟨⟨fun _ => by decide, fun _ _ => ⟨fun _ => by decide, fun _ => nofun⟩⟩, rfl⟩
  have gong_too : together cracked = .error (.action "gong" (.handler (.crashed "cracked"))) :=
    belfry_attempt ⟨List.forall_mem_cons.2
      ⟨fun _ => by decide, List.forall_mem_singleton.2 fun _ => by decide⟩, rfl⟩
  have bell_again : inTurn carillon = .ok (.array [.string "ding", .string "ding"]) :=
    belfry_attempt ⟨⟨fun _ => by decide, fun _ _ => ⟨fun _ => by decide, fun _ _ => trivial⟩⟩, rfl⟩
  have bell_twice : together carillon = .ok (.array [entry, entry]) :=
    belfry_attempt ⟨List.forall_mem_cons.2
      ⟨fun _ => by decide, List.forall_mem_singleton.2 fun _ => by decide⟩, rfl⟩
  refine ⟨?_, gong_last, bell_again, bell_twice⟩
  have agree (s : Step) (sequential : inTurn s ≠ .error (.timeout s.id s.timeoutMs))
      (parallel : together s ≠ .error (.timeout s.id s.timeoutMs)) :=
    And.intro (belfry_stepEndsAs s) (And.intro sequential (And.intro parallel
      (agree_of_await (belfry_stepEndsAs s) sequential parallel)))
  refine List.forall_mem_cons.2 ⟨agree cracked ?_ ?_, List.forall_mem_singleton.2
    (agree carillon ?_ ?_)⟩
  · rw [gong_last]
    nofun
  · rw [gong_too]
    nofun
  · rw [bell_again]
    nofun
  · rw [bell_twice]
    nofun

end Engine

end EventFlow
