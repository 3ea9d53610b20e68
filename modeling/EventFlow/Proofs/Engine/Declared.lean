import EventFlow.Proofs.Engine.Agreement
import EventFlow.Proofs.Engine.Bookkeeping
import EventFlow.Proofs.Engine.Prompt

/-!
# What a parallel step records

Where the handlers of a parallel step end in time, what the step records is what its list of
identifiers says (`Engine.declared`): how long its actions take, and so the order in which they end,
has no part in it, whatever the error policy is (`Engine.prompt_runStep`). The step is run by
`Engine.runStep` (`EventFlow.Engine.Run`), which has its actions called by `Engine.fanOut`
(`EventFlow.Engine.Attempt`).
-/

set_option autoImplicit false

namespace EventFlow.Engine

open Program (Prompt)

variable {σ τ : Type} {engine : Engine σ} {b : Behaviour} {p : Plan} {s : Step} {place : Place}
  {data : Json} {e : Execution}

/-- Every action that a step refers to has a handler that ends as a behaviour says, before the time
of an attempt is up, or none. -/
def StepInTime (engine : Engine σ) (b : Behaviour) (p : Plan) (s : Step) (data : Json) : Prop :=
  ∀ id ∈ s.actionIds, ∀ a, p.action? id = some a →
    engine.InTime b (some (limit s)) (prepared data a)

/-- If a step is in time, each of its actions is. -/
theorem StepInTime.of_lists (h : engine.StepInTime b p s data) {actions : List Action}
    (lists : p.Lists s actions) {a : Action} (ha : a ∈ actions) :
    engine.InTime b (some (limit s)) (prepared data a) :=
  have ⟨id, hid, found⟩ := lists.exists_id ha
  h id hid a found

/-! ## What is declared -/

/-- The actions of a step in the order of its list, each with its reply. -/
def replied (engine : Engine σ) (b : Behaviour) (p : Plan) (s : Step) (data : Json) :
    Except StepError (List (Action × Reply)) :=
  (resolve p s.actionIds).map fun actions =>
    actions.map fun a => (a, b.replyTo engine.handlers.contains (prepared data a))

/-- An attempt at a parallel step, as the list of its actions says. The calls that it makes are left
out, which end in any order. -/
def declaredTrial (engine : Engine σ) (b : Behaviour) (p : Plan) (s : Step) (data : Json) : Trial :=
  if s.errorPolicy = .continue then
    match engine.replied b p s data with
    | .error e => .whole [] (.error e)
    | .ok replies => .each [] replies
  else .whole [] ((engine.verdict b.reply p s data).map (presented .parallel))

/-- A visit of a parallel step, as the list of its actions says: an attempt that fails is made as
often as the error policy allows. -/
def declared (engine : Engine σ) (b : Behaviour) (p : Plan) (place : Place) (data : Json) : Visit :=
  let t := engine.declaredTrial b p place.step data
  let earlier := match t.outcome with
    | .ok _ => []
    | .error _ => List.replicate (maxAttempts place.step.errorPolicy - 1) t
  ⟨place.index, place.step, earlier, t⟩

/-- `Records e v r`: a step that is run over an execution leaves a visit. -/
structure Records (e : Execution) (v : Visit) (r : Flow × Execution) : Prop where
  flow : r.1 = v.flow
  adds : e.Adds v.errors v.results r.2

/-! ## The order of the list -/

/-- `engine.EntryOf outcome data a entry text?`: what a parallel step that passes over failing
actions says of an action, and the text of the error that it records if the action fails. -/
inductive EntryOf (engine : Engine σ) (outcome : Invocation → Except HandlerFailure Json)
    (data : Json) (a : Action) : Json → Option String → Prop
  | output {value : Json} (handled : engine.handles a = true)
      (succeeds : outcome ⟨Template.interpolateAction data a, data⟩ = .ok value) :
      EntryOf engine outcome data a
        (.ofMembers [("action_id", .string a.id), ("output", value)]) none
  | failed {failure : HandlerFailure} {text : String} (handled : engine.handles a = true)
      (fails : outcome ⟨Template.interpolateAction data a, data⟩ = .error failure)
      (tells : text = (StepError.action a.id (.handler failure)).message) :
      EntryOf engine outcome data a
        (.ofMembers [("action_id", .string a.id), ("error", .string text)]) (some text)
  | unregistered {text : String} (unhandled : engine.handles a = false)
      (tells : text = (StepError.action a.id (.notRegistered a.actionType)).message) :
      EntryOf engine outcome data a
        (.ofMembers [("action_id", .string a.id), ("error", .string text)]) (some text)

/-- `engine.InOrder outcome p s data texts output?`: the texts of the errors that a parallel step
records, and its output if it does not fail, in the order in which the step lists its actions. -/
inductive InOrder (engine : Engine σ) (outcome : Invocation → Except HandlerFailure Json) (p : Plan)
    (s : Step) (data : Json) : List String → Option Json → Prop
  /-- Every action has an output. -/
  | outputs {actions : List Action} {entries : List Json} (policy : s.errorPolicy ≠ .continue)
      (lists : p.Lists s actions) (length : entries.length = s.actionIds.length)
      (each : ∀ (i : Nat) (a : Action), actions[i]? = some a → ∃ value,
        outcome ⟨Template.interpolateAction data a, data⟩ = .ok value ∧
          entries[i]? = some (.ofMembers [("action_id", .string a.id), ("output", value)])) :
      InOrder engine outcome p s data [] (some (.array entries))
  /-- The first thing that is wrong is what every attempt fails of. -/
  | stopped {e : StepError} (policy : s.errorPolicy = .stop)
      (first : engine.FailsFirst outcome p s data e) :
      InOrder engine outcome p s data [e.message] none
  | retried {n : UInt32} {e : StepError} {texts : List String} (policy : s.errorPolicy = .retry n)
      (first : engine.FailsFirst outcome p s data e)
      (length : texts.length = min (n.toNat + 1) (2 ^ 32 - 1))
      (each : ∀ k < texts.length,
        texts[k]? = some (attemptPrefix (k + 1) (min (n.toNat + 1) (2 ^ 32 - 1)) ++ e.message)) :
      InOrder engine outcome p s data texts none
  /-- An identifier leads nowhere: nothing is called, and this is passed over as a whole. -/
  | missing {before after : List String} {id text : String} (policy : s.errorPolicy = .continue)
      (here : s.actionIds = before ++ id :: after)
      (found : ∀ other ∈ before, ∃ a, p.action? other = some a) (nowhere : p.action? id = none)
      (tells : text = (StepError.missingAction id).message) :
      InOrder engine outcome p s data [text] (some (.ofMembers [("error", .string text)]))
  /-- Failing actions are passed over one by one. -/
  | entries {actions : List Action} {rows : List (Json × Option String)}
      (policy : s.errorPolicy = .continue) (lists : p.Lists s actions)
      (each : List.Forall₂ (fun a row => engine.EntryOf outcome data a row.1 row.2) actions rows) :
      InOrder engine outcome p s data (rows.filterMap (·.2)) (some (.array (rows.map (·.1))))

/-- What is said of an action that is called, or has no handler. -/
theorem entryOf_replyTo (a : Action) :
    engine.EntryOf b.reply data a
      (replyEntry (a, b.replyTo engine.handlers.contains (prepared data a)))
      ((replyFailure? (a, b.replyTo engine.handlers.contains (prepared data a))).map
        StepError.message) := by
  cases handled : engine.handles a with
  | false =>
    rw [Behaviour.replyTo_of_unknown handled]
    exact .unregistered handled rfl
  | true =>
    rw [Behaviour.replyTo_of_known handled]
    cases ending : b.reply (prepared data a) with
    | ok value => exact .output handled ending
    | error failure => exact .failed handled ending rfl

/-- An attempt that fails, or one whose outputs are listed. -/
theorem inOrder_of_verdict_eq_ok {outcome : Invocation → Except HandlerFailure Json}
    {actions : List Action} {values : List Json} (policy : s.errorPolicy ≠ .continue)
    (h : engine.verdict outcome p s data = .ok (actions, values)) :
    engine.InOrder outcome p s data [] (some (presented .parallel (actions, values))) := by
  obtain ⟨lists, outcomes⟩ := of_verdict_eq_ok h
  have given : actions.length = values.length := by
    simpa using congrArg List.length outcomes
  have listed : s.actionIds.length = actions.length := by
    simpa using congrArg List.length lists
  refine .outputs policy lists ?_ fun i a here => ?_
  · rw [List.length_zipWith, ← given, Nat.min_self, listed]
  · have there : i < values.length := given ▸ (List.getElem?_eq_some_iff.1 here).1
    have value := List.getElem?_eq_getElem there
    have same := congrArg (·[i]?) outcomes
    simp only [List.getElem?_map, here, value, Option.map_some, Option.some.injEq] at same
    refine ⟨values[i], same, ?_⟩
    rw [List.getElem?_zipWith, here, value]
    rfl

/-- A step that cannot be called is passed over with one error. -/
theorem inOrder_of_replied_eq_error {e : StepError} (policy : s.errorPolicy = .continue)
    (h : engine.replied b p s data = .error e) : engine.InOrder b.reply p s data [e.message]
      (some (.ofMembers [("error", .string e.message)])) := by
  obtain ⟨before, id, after, here, found, nowhere, rfl⟩ :=
    missing_of_resolve (Except.eq_error_of_map_eq_error h)
  exact .missing policy here found nowhere rfl

/-- A step whose failures are passed over lists them in the order of its actions. -/
theorem inOrder_of_replied_eq_ok {replies : List (Action × Reply)}
    (policy : s.errorPolicy = .continue) (h : engine.replied b p s data = .ok replies) :
    engine.InOrder b.reply p s data ((replies.filterMap replyFailure?).map StepError.message)
      (some (.array (replies.map replyEntry))) := by
  obtain ⟨actions, resolved, rfl⟩ := Except.exists_of_map_eq_ok h
  let replies := actions.map fun a => (a, b.replyTo engine.handlers.contains (prepared data a))
  let rows : List (Json × Option String) := replies.map fun reply =>
    (replyEntry reply, (replyFailure? reply).map StepError.message)
  have each :
      List.Forall₂ (fun a row => engine.EntryOf b.reply data a row.1 row.2) actions rows := by
    simp only [rows, replies, List.map_map, List.forall₂_map_right_iff, List.forall₂_same]
    exact fun a _ => entryOf_replyTo a
  have listed : engine.InOrder b.reply p s data (rows.filterMap (·.2))
      (some (.array (rows.map (·.1)))) := .entries policy (resolve_eq_ok_iff.1 resolved) each
  have texts : rows.filterMap (·.2) = (replies.filterMap replyFailure?).map StepError.message := by
    rw [List.filterMap_map, List.map_filterMap]
    rfl
  have entries : rows.map (·.1) = replies.map replyEntry := by
    rw [List.map_map]
    rfl
  rwa [texts, entries] at listed

/-! ## Calls -/

/-- Calls that end in time are answered in the order in which they are listed, in whichever order
they end. -/
theorem prompt_callAll {actions : List Action}
    (inTime : ∀ a ∈ actions, engine.InTime b (some (limit s)) (prepared data a)) :
    (callAll s .together data actions).Prompt engine b (· = .ok (actions.map fun a =>
      b.replyTo engine.handlers.contains (prepared data a))) := by
  refine ⟨rfl, fun call hcall => ?_, ?_⟩
  · obtain ⟨a, ha, rfl⟩ := List.mem_map.1 hcall
    exact inTime a ha
  · exact congrArg Except.ok (List.map_map ..)

/-- A parallel attempt in time comes to its verdict. -/
theorem prompt_fanOut (inTime : engine.StepInTime b p s data) :
    (engine.fanOut p s data).Prompt engine b
      (· = (engine.verdict b.reply p s data).map (presented .parallel)) := by
  rw [fanOut, verdict]
  cases called : engine.callable p s with
  | error e => rfl
  | ok actions =>
    obtain ⟨lists, handled⟩ := callable_eq_ok_iff.1 called
    have told : (actions.map fun a => b.replyTo engine.handlers.contains (prepared data a)) =
        actions.map (told b.reply data) :=
      List.map_congr_left fun a ha => Behaviour.replyTo_of_known (handled a ha)
    refine (prompt_callAll fun a ha => inTime.of_lists lists ha).bind fun r replies => ?_
    rw [replies, told]
    change (outputs _ _).map _ = ((outputs _ _).map _).map _
    cases outputs actions (actions.map (Engine.told b.reply data)) <;> rfl

/-- The calls in time of a step that passes over failures come to the replies of its actions. -/
theorem prompt_fanOutAll (inTime : engine.StepInTime b p s data) :
    (fanOutAll p s data).Prompt engine b (· = engine.replied b p s data) := by
  rw [fanOutAll, replied]
  cases resolved : resolve p s.actionIds with
  | error e => rfl
  | ok actions =>
    have lists : p.Lists s actions := resolve_eq_ok_iff.1 resolved
    refine (prompt_callAll fun a ha => inTime.of_lists lists ha).bind fun r replies => ?_
    rw [replies]
    exact congrArg Except.ok (List.map_prod_left_eq_zip ..).symm

/-! ## What is recorded -/

/-- A result is noted without waiting. -/
theorem prompt_noteResult (output : Json) : (noteResult s output e).Prompt engine b
    (e.Adds [] [(s.id, s.name, output)]) :=
  fun time => .pushResult s.id s.name output time e

/-- An error is noted without waiting. -/
theorem prompt_noteError (text : String) : (noteError place text e).Prompt engine b
    (e.Adds [(place.index, place.step.id, text)] []) :=
  fun time => .pushError place.index place.step.id text time e

/-- A success is recorded as one result. -/
theorem prompt_succeed (parallel : s.kind = .parallel) (output : Json) :
    (succeed s output e).Prompt engine b
      fun r => r.1 = .proceed ∧ e.Adds [] [(s.id, s.name, output)] r.2 := by
  rw [succeed, if_neg (by simp [parallel])]
  exact (prompt_noteResult output).bind fun e' adds => ⟨rfl, adds⟩

/-- A failure that is passed over is recorded as an error and a result that shows it. -/
theorem prompt_passOver (text : String) : (passOver place text e).Prompt engine b
    fun r => r.1 = .proceed ∧ e.Adds [(place.index, place.step.id, text)]
      [(place.step.id, place.step.name, .ofMembers [("error", .string text)])] r.2 :=
  (prompt_noteError text).bind fun _ failed =>
    (prompt_noteResult _).bind fun _ adds => ⟨rfl, failed.trans adds⟩

/-- Failures are recorded in the order of the list, by induction on the replies. -/
theorem prompt_noteReplies (replies : List (Action × Reply)) :
    (noteReplies place replies e).Prompt engine b fun r => r.1 = replies.map replyEntry ∧
      e.Adds ((replies.filterMap replyFailure?).map fun failure =>
        (place.index, place.step.id, failure.message)) [] r.2 := by
  induction replies generalizing e with
  | nil => exact ⟨rfl, .nothing e⟩
  | cons reply rest ih =>
    obtain ⟨a, error | output⟩ := reply
    · refine (prompt_noteError _).bind fun e' failed => ih.bind fun r others => ?_
      exact ⟨congrArg (_ :: ·) others.1, failed.trans others.2⟩
    · refine ih.bind fun r others => ?_
      exact ⟨congrArg (_ :: ·) others.1, others.2⟩

/-! ## The three policies -/

/-- An attempt at a parallel step is its fan-out. -/
theorem prompt_attempt (parallel : s.kind = .parallel) (inTime : engine.StepInTime b p s data) :
    (engine.attempt p s data).Prompt engine b
      (· = (engine.verdict b.reply p s data).map (presented .parallel)) := by
  rw [attempt, if_pos parallel]
  exact prompt_fanOut inTime

/-- A step that is not attempted again leaves a visit of one attempt. -/
theorem declared_of_once (policy : ∀ n, place.step.errorPolicy ≠ .retry n) :
    engine.declared b p place data =
      ⟨place.index, place.step, [], engine.declaredTrial b p place.step data⟩ := by
  simp only [declared, maxAttempts_eq_one policy]
  split <;> rfl

/-- A step that is tried once leaves what its one trial says. -/
theorem records_of_once {t : Trial} {r : Flow × Execution}
    (policy : ∀ n, place.step.errorPolicy ≠ .retry n) (flow : r.1 = t.flow place.step)
    (adds : e.Adds (t.failures.map fun failure => (place.index, place.step.id, failure.message))
      ((t.output? place.step).map fun output =>
        (place.step.id, place.step.name, output)).toList r.2) :
    Records e ⟨place.index, place.step, [], t⟩ r :=
  ⟨flow, by rw [Visit.errors_of_once policy]; exact adds⟩

/-- A parallel step that stops at a failure records what is declared. -/
theorem prompt_runOnce (policy : place.step.errorPolicy = .stop)
    (parallel : place.step.kind = .parallel) (inTime : engine.StepInTime b p place.step data) :
    (engine.runOnce p data place e).Prompt engine b
      (Records e (engine.declared b p place data)) := by
  have once : ∀ n, place.step.errorPolicy ≠ .retry n := by simp [policy]
  rw [declared_of_once once, declaredTrial, if_neg (by simp [policy])]
  refine (prompt_attempt parallel inTime).bind fun r attempted => ?_
  rw [← attempted]
  cases r with
  | ok output =>
    refine (prompt_succeed parallel output).imp fun r ⟨flow, adds⟩ => records_of_once once ?_ ?_
    · simp [flow, Trial.flow, Trial.whole, parallel]
    · simpa [Trial.output?, Trial.whole, parallel] using adds
  | error error =>
    refine (prompt_noteError error.message).bind fun e' adds => records_of_once once ?_ ?_
    · simp [Trial.flow, Trial.whole, policy]
    · simpa [Trial.output?, Trial.whole, policy] using adds

/-- A parallel step that passes over failures records what is declared. -/
theorem prompt_runAnyway (policy : place.step.errorPolicy = .continue)
    (parallel : place.step.kind = .parallel) (inTime : engine.StepInTime b p place.step data) :
    (engine.runAnyway p data place e).Prompt engine b
      (Records e (engine.declared b p place data)) := by
  have once : ∀ n, place.step.errorPolicy ≠ .retry n := by simp [policy]
  rw [declared_of_once once, declaredTrial, if_pos policy, runAnyway, if_pos parallel]
  refine (prompt_fanOutAll inTime).bind fun r attempted => ?_
  rw [← attempted]
  cases r with
  | ok replies =>
    refine (prompt_noteReplies replies).bind ?_
    rintro ⟨entries, e'⟩ ⟨listed, failed⟩
    refine (prompt_noteResult _).bind fun e'' adds => records_of_once once ?_ ?_
    · simp [Trial.flow, Trial.each, parallel]
    · simpa [Trial.output?, Trial.each, parallel, ← listed] using failed.trans adds
  | error error =>
    refine (prompt_passOver error.message).imp ?_
    rintro r ⟨flow, adds⟩
    refine records_of_once once ?_ ?_
    · simp [flow, Trial.flow, Trial.whole, policy]
    · simpa [Trial.output?, Trial.whole, policy] using adds

/-- A step that fails, and may be attempted so many more times, fails as often: the failures are
numbered from `total - left` on. -/
theorem prompt_runAgain_of_error {total left : Nat} {error : StepError}
    (parallel : place.step.kind = .parallel) (inTime : engine.StepInTime b p place.step data)
    (fails : engine.verdict b.reply p place.step data = .error error) (enough : left < total) :
    (engine.runAgain p data place total (left + 1) e).Prompt engine b fun r =>
      r.1 = .halt .failed ∧
      e.Adds ((attemptTexts total (total - left) (List.replicate (left + 1) error)).map fun text =>
        (place.index, place.step.id, text)) [] r.2 := by
  induction left generalizing e with
  | zero =>
    refine (prompt_attempt parallel inTime).bind fun r attempted => ?_
    rw [attempted, fails]
    exact (prompt_noteError _).bind fun e' adds => ⟨rfl, adds⟩
  | succ left ih =>
    refine (prompt_attempt parallel inTime).bind fun r attempted => ?_
    rw [attempted, fails]
    refine (prompt_noteError _).bind fun e' failed => ?_
    rw [if_neg (Nat.succ_ne_zero left)]
    refine (ih (Nat.lt_of_succ_lt enough)).imp fun r ⟨flow, adds⟩ => ⟨flow, ?_⟩
    have number : total - (left + 1) + 1 = total - left := by omega
    rw [List.replicate_succ, attemptTexts, number]
    exact failed.trans adds

/-- Attempts that all fail in one way fail as often as they are made. -/
theorem failures_of_replicate {index : Nat} {step : Step} {t : Trial} {error : StepError}
    (fails : t.failures = [error]) (left : Nat) :
    Visit.failures ⟨index, step, List.replicate left t, t⟩ = List.replicate (left + 1) error := by
  rw [Visit.failures, Visit.trials, ← List.replicate_succ', List.flatMap_replicate, fails,
    List.flatten_replicate_singleton]

/-- A step that succeeds is attempted once. -/
theorem declared_of_succeeds {x : List Action × List Json}
    (notOver : place.step.errorPolicy ≠ .continue)
    (succeeds : engine.verdict b.reply p place.step data = .ok x) :
    engine.declared b p place data =
      ⟨place.index, place.step, [], .whole [] (.ok (presented .parallel x))⟩ := by
  rw [declared, declaredTrial, if_neg notOver, succeeds]
  rfl

/-- A step that fails is attempted as often as it may be, and fails in the same way each time. -/
theorem declared_of_fails {n : UInt32} {error : StepError}
    (policy : place.step.errorPolicy = .retry n)
    (fails : engine.verdict b.reply p place.step data = .error error) :
    engine.declared b p place data = ⟨place.index, place.step,
      List.replicate (totalAttempts n - 1) (.whole [] (.error error)),
      .whole [] (.error error)⟩ := by
  have trial : engine.declaredTrial b p place.step data = .whole [] (.error error) := by
    rw [declaredTrial, if_neg (by simp [policy]), fails]
    rfl
  rw [declared, trial, policy]
  rfl

/-- The errors of attempts that all fail in one way, as many as there may be. -/
theorem messages_of_spent {index : Nat} {step : Step} {n : UInt32} {error : StepError}
    (policy : step.errorPolicy = .retry n) :
    Visit.messages ⟨index, step, List.replicate (totalAttempts n - 1) (.whole [] (.error error)),
      .whole [] (.error error)⟩ =
        attemptTexts (totalAttempts n) 1 (List.replicate (totalAttempts n) error) := by
  have positive := totalAttempts_pos n
  have often : totalAttempts n - 1 + 1 = totalAttempts n := by omega
  rw [Visit.messages, policy]
  dsimp only
  rw [failures_of_replicate rfl, often]

/-- A parallel step that is tried again records what is declared: every attempt has the same
verdict, so they all fail or the first succeeds. -/
theorem prompt_runAgain {n : UInt32} (policy : place.step.errorPolicy = .retry n)
    (parallel : place.step.kind = .parallel) (inTime : engine.StepInTime b p place.step data) :
    (engine.runAgain p data place (totalAttempts n) (totalAttempts n) e).Prompt engine b
      (Records e (engine.declared b p place data)) := by
  obtain ⟨left, hleft⟩ : ∃ left, totalAttempts n = left + 1 :=
    ⟨totalAttempts n - 1, by have := totalAttempts_pos n; omega⟩
  cases verdict : engine.verdict b.reply p place.step data with
  | ok x =>
    rw [declared_of_succeeds (by simp [policy]) verdict, hleft]
    refine (prompt_attempt parallel inTime).bind fun r attempted => ?_
    rw [attempted, verdict]
    refine (prompt_succeed parallel _).imp ?_
    rintro r ⟨flow, adds⟩
    refine ⟨?_, ?_⟩
    · simp [flow, Visit.flow, Trial.flow, Trial.whole, parallel]
    · simpa [Visit.errors, Visit.messages, Visit.failures, Visit.trials, Visit.results,
        Trial.output?, Trial.whole, parallel, policy, attemptTexts] using adds
  | error error =>
    rw [declared_of_fails policy verdict]
    have spent := prompt_runAgain_of_error (e := e) parallel inTime verdict (Nat.lt_add_one left)
    have first : left + 1 - left = 1 := by omega
    rw [first, ← hleft] at spent
    refine spent.imp ?_
    rintro r ⟨flow, adds⟩
    refine ⟨?_, ?_⟩
    · simp [flow, Visit.flow, Trial.flow, Trial.whole, policy]
    · rw [Visit.errors, messages_of_spent policy]
      simpa [Visit.results, Trial.output?, Trial.whole, policy] using adds

/-- Whatever the error policy of a parallel step is. -/
theorem prompt_runStep (parallel : place.step.kind = .parallel)
    (inTime : engine.StepInTime b p place.step data) :
    (engine.runStep p data place e).Prompt engine b
      (Records e (engine.declared b p place data)) := by
  rw [runStep]
  split
  · next policy => exact prompt_runOnce policy parallel inTime
  · next policy => exact prompt_runAnyway policy parallel inTime
  · next n policy => exact prompt_runAgain policy parallel inTime

/-- What is declared follows the order of the list. -/
theorem inOrder_declared (parallel : place.step.kind = .parallel) :
    engine.InOrder b.reply p place.step data (engine.declared b p place data).messages
      ((engine.declared b p place data).last.output? place.step) := by
  cases policy : place.step.errorPolicy with
  | «continue» =>
    have once : ∀ n, place.step.errorPolicy ≠ .retry n := by simp [policy]
    rw [declared_of_once once, declaredTrial, if_pos policy]
    cases answered : engine.replied b p place.step data with
    | error e =>
      simpa [Visit.messages, Visit.failures, Visit.trials, Trial.output?, Trial.whole, policy]
        using inOrder_of_replied_eq_error policy answered
    | ok replies =>
      simpa [Visit.messages, Visit.failures, Visit.trials, Trial.output?, Trial.each, policy,
        parallel] using inOrder_of_replied_eq_ok policy answered
  | stop =>
    have once : ∀ n, place.step.errorPolicy ≠ .retry n := by simp [policy]
    have notOver : place.step.errorPolicy ≠ .continue := by simp [policy]
    cases verdict : engine.verdict b.reply p place.step data with
    | error e =>
      rw [declared_of_once once, declaredTrial, if_neg notOver, verdict]
      simpa [Visit.messages, Visit.failures, Visit.trials, Trial.output?, Trial.whole, policy,
        Except.map] using InOrder.stopped policy (failsFirst_of_verdict verdict)
    | ok x =>
      rw [declared_of_succeeds notOver verdict]
      simpa [Visit.messages, Visit.failures, Visit.trials, Trial.output?, Trial.whole, policy,
        parallel] using inOrder_of_verdict_eq_ok notOver verdict
  | retry n =>
    have notOver : place.step.errorPolicy ≠ .continue := by simp [policy]
    cases verdict : engine.verdict b.reply p place.step data with
    | error e =>
      rw [declared_of_fails policy verdict]
      have nothing : (Trial.whole [] (.error e)).output? place.step = none := by
        simp [Trial.output?, Trial.whole, policy]
      rw [nothing, messages_of_spent policy]
      refine .retried policy (failsFirst_of_verdict verdict) ?_ fun k small => ?_
      · rw [length_attemptTexts, List.length_replicate]
        rfl
      · rw [length_attemptTexts, List.length_replicate] at small
        rw [getElem?_attemptTexts, List.getElem?_replicate, if_pos small, Nat.add_comm 1 k]
        rfl
    | ok x =>
      rw [declared_of_succeeds notOver verdict]
      simpa [Visit.messages, Visit.failures, Visit.trials, Trial.output?, Trial.whole, policy,
        parallel, attemptTexts] using inOrder_of_verdict_eq_ok notOver verdict

/-- What is declared depends on how handlers end, but not on how long they take. -/
theorem declared_congr {engine' : Engine τ}
    (types : ∀ name, engine'.handlers.contains name = engine.handlers.contains name)
    (outcome : Invocation → Except HandlerFailure Json) (lasting lasting' : Invocation → Nat) :
    engine'.declared ⟨lasting', outcome⟩ p place data =
      engine.declared ⟨lasting, outcome⟩ p place data := by
  have same : engine'.handlers.contains = engine.handlers.contains := funext types
  simp only [declared, declaredTrial, replied, verdict, callable, unregistered?,
    Behaviour.replyTo, same]

/-- Two runs of a parallel step, whose handlers end alike but take as long as they like, record the
same: what the list of its actions says, in the order of the list. -/
theorem sameRecord_of_await {engine : Engine σ} {engine' : Engine τ}
    (types : ∀ name, engine'.handlers.contains name = engine.handlers.contains name)
    {outcome : Invocation → Except HandlerFailure Json} {lasting lasting' : Invocation → Nat}
    {p : Plan} {place : Place} {data : Json} (parallel : place.step.kind = .parallel)
    (inTime : engine.StepInTime ⟨lasting, outcome⟩ p place.step data)
    (inTime' : engine'.StepInTime ⟨lasting', outcome⟩ p place.step data)
    {m : Machine σ} {m' : Machine τ} (orderly : m.Orderly) (orderly' : m'.Orderly)
    (e e' : Execution) :
    let v := engine.declared ⟨lasting, outcome⟩ p place data
    engine.InOrder outcome p place.step data v.messages (v.last.output? place.step) ∧
      Records e v (m.await engine (engine.runStep p data place e)).1 ∧
      Records e' v (m'.await engine' (engine'.runStep p data place e')).1 := by
  refine ⟨inOrder_declared (b := ⟨lasting, outcome⟩) parallel,
    Machine.prompt_of_await (prompt_runStep parallel inTime) orderly, ?_⟩
  rw [← declared_congr types outcome lasting lasting']
  exact Machine.prompt_of_await (prompt_runStep parallel inTime') orderly'

/-- The record of the chimes: what the gong says against it is an error and an entry. -/
example : ((belfry 1 2).declared ⟨lasting 1 2, ringing⟩ chimes ⟨0, chime⟩ .null).messages =
    ["action 'gong': handler crashed: cracked"] := by decide

theorem belfry_contains (bell gong : Nat) (name : String) :
    (belfry bell gong).handlers.contains name = (belfry 1 2).handlers.contains name := by
  simp only [Registry.contains, belfry, Assoc.find?]
  split
  · rfl
  · split <;> rfl

theorem belfry_inTime (bell gong : Nat) (bellEnds : bell < limit chime)
    (gongEnds : gong < limit chime) :
    (belfry bell gong).StepInTime ⟨lasting bell gong, ringing⟩ chimes chime .null := by
  refine fun _ _ a _ => ⟨(belfry_behaves bell gong).within _, Bool.eq_false_iff.2 fun late => ?_⟩
  have lasts : lasting bell gong (prepared .null a) < limit chime := by
    unfold lasting
    split
    · exact bellEnds
    · exact gongEnds
  simp only [Behaviour.isLate, Option.any_some, Bool.and_eq_true, decide_eq_true_eq] at late
  exact absurd late.2 (Nat.not_le.2 lasts)

/-- The bell ends before the gong, or the gong before the bell, and the step is attempted twice. -/
theorem sameRecord_of_await_chimes :
    let again : Step := { chime with errorPolicy := .retry 1 }
    let e := (Execution.begin nightly .null anonymous default).1
    let v := (belfry 1 2).declared ⟨lasting 1 2, ringing⟩ chimes ⟨0, again⟩ .null
    (∀ name, (belfry 2 1).handlers.contains name = (belfry 1 2).handlers.contains name) ∧
      again.kind = .parallel ∧
      (belfry 1 2).StepInTime ⟨lasting 1 2, ringing⟩ chimes again .null ∧
      (belfry 2 1).StepInTime ⟨lasting 2 1, ringing⟩ chimes again .null ∧ idle.Orderly ∧
      v.messages = ["attempt 1/2: action 'gong': handler crashed: cracked",
        "attempt 2/2: action 'gong': handler crashed: cracked"] ∧
      (belfry 1 2).InOrder ringing chimes again .null v.messages none ∧
      Records e v (idle.await (belfry 1 2) ((belfry 1 2).runStep chimes .null ⟨0, again⟩ e)).1 ∧
      Records e v (idle.await (belfry 2 1) ((belfry 2 1).runStep chimes .null ⟨0, again⟩ e)).1 := by
  intro again e v
  have first : (belfry 1 2).StepInTime _ chimes again .null :=
    belfry_inTime 1 2 (by decide) (by decide)
  have second : (belfry 2 1).StepInTime _ chimes again .null :=
    belfry_inTime 2 1 (by decide) (by decide)
  have orderly : idle.Orderly := ⟨.nil, nofun, nofun⟩
  have parallel : (⟨0, again⟩ : Place).step.kind = .parallel := rfl
  have same := sameRecord_of_await (belfry_contains 2 1) parallel first second orderly orderly e e
  exact ⟨belfry_contains 2 1, rfl, first, second, orderly, by decide, same⟩

end EventFlow.Engine
