import EventFlow.Engine.Run
import EventFlow.Proofs.Engine.Attempt

/-!
# The history of a run

A run leaves a history: for each position it comes to, the attempts it makes there. `Course` says
which histories a plan allows, by one rule for each way in which the run goes on or ends, and
`Writes` says what the execution holds after a history. The main statement, `course_of_run`, is that
whatever is answered to a run, it has such a history, with exactly these calls of handlers. The
rules follow `Engine.runFrom` and `Engine.runStep`, in `EventFlow.Engine.Run`.
-/

set_option autoImplicit false

namespace EventFlow

/-- An error without its time. -/
def ExecutionError.timeless (e : ExecutionError) : Nat × String × String :=
  (e.stepIndex, e.stepId, e.message)

/-- A result without its time. -/
def StepResult.timeless (r : StepResult) : String × String × Json :=
  (r.stepId, r.stepName, r.output)

/-- Whether a step passes over each of its actions that fails, instead of failing as a whole. -/
def Step.PassesOver (s : Step) : Prop := s.errorPolicy = .continue ∧ s.kind = .parallel

namespace Execution

/-- `Adds e errors results e'`: an execution has got more errors and results at the end of its
lists, and is otherwise as it was. -/
structure Adds (e : Execution) (errors : List (Nat × String × String))
    (results : List (String × String × Json)) (e' : Execution) : Prop where
  errors : e'.errors.map ExecutionError.timeless = e.errors.map ExecutionError.timeless ++ errors
  results : e'.results.map StepResult.timeless = e.results.map StepResult.timeless ++ results
  others : e' = { e with errors := e'.errors, results := e'.results }

/-- Who does nothing adds nothing. -/
theorem Adds.nothing (e : Execution) : e.Adds [] [] e := ⟨by simp, by simp, rfl⟩

/-- What is added twice is added one behind the other. -/
theorem Adds.trans {first middle last : Execution} {errors errors' : List (Nat × String × String)}
    {results results' : List (String × String × Json)} (h : first.Adds errors results middle)
    (h' : middle.Adds errors' results' last) :
    first.Adds (errors ++ errors') (results ++ results') last := by
  refine ⟨?_, ?_, ?_⟩
  · rw [h'.errors, h.errors, List.append_assoc]
  · rw [h'.results, h.results, List.append_assoc]
  · rw [h'.others, h.others]

theorem Adds.pushError (index : Nat) (stepId message : String) (time : Instant) (e : Execution) :
    e.Adds [(index, stepId, message)] [] (e.pushError index stepId message time) :=
  ⟨by simp [Execution.pushError, ExecutionError.timeless], by simp [Execution.pushError], rfl⟩

theorem Adds.pushResult (stepId stepName : String) (output : Json) (time : Instant)
    (e : Execution) :
    e.Adds [] [(stepId, stepName, output)] (e.pushResult stepId stepName output time) :=
  ⟨by simp [Execution.pushResult], by simp [Execution.pushResult, StepResult.timeless], rfl⟩

end Execution

namespace Engine

open Program

variable {σ : Type}

/-! ## Attempts as a run takes note of them -/

/-- How often a step is attempted at most. -/
def maxAttempts : ErrorPolicy → Nat
  | .retry attempts => totalAttempts attempts
  | _ => 1

/-- What the output of a parallel step that passes over failures says of an action. -/
def replyEntry : Action × Reply → Json
  | (a, .ok output) => outputEntry a output
  | (a, .error e) => errorEntry a (StepError.action a.id e).message

/-- The failure of an action that fails. -/
def replyFailure? : Action × Reply → Option StepError
  | (_, .ok _) => none
  | (a, .error e) => some (.action a.id e)

/-- One attempt at a step: the calls of handlers it makes, the failures that are recorded for it,
and what it comes to as a whole. -/
structure Trial where
  calls : List Served
  failures : List StepError
  outcome : Except StepError Json

namespace Trial

/-- The attempt fails as a whole. -/
def Fails (t : Trial) : Prop := ∃ e, t.outcome = .error e

/-- An attempt that fails as a whole or not at all. -/
def whole (calls : List Served) : Except StepError Json → Trial
  | .ok output => ⟨calls, [], .ok output⟩
  | .error e => ⟨calls, [e], .error e⟩

/-- An attempt that passes over failing actions. -/
def each (calls : List Served) (replies : List (Action × Reply)) : Trial :=
  ⟨calls, replies.filterMap replyFailure?, .ok (.array (replies.map replyEntry))⟩

/-- What a run does when no other attempt at the step follows. -/
def flow (s : Step) (t : Trial) : Flow :=
  match t.outcome with
  | .ok output => if s.kind = .condition ∧ output = .bool false then .halt .stopped else .proceed
  | .error _ => if s.errorPolicy = .continue then .proceed else .halt .failed

/-- The output that is recorded when no other attempt at the step follows. -/
def output? (s : Step) (t : Trial) : Option Json :=
  match t.outcome with
  | .ok output => if s.kind = .condition ∧ output = .bool false then none else some output
  | .error e =>
    if s.errorPolicy = .continue then some (.ofMembers [("error", .string e.message)]) else none

end Trial

/-- `Tried engine p data s t`: an attempt at a step may go like this. -/
inductive Tried (engine : Engine σ) (p : Plan) (data : Json) (s : Step) : Trial → Prop
  | whole {effects : List Effect} {r : Except StepError Json} (h : ¬ s.PassesOver)
      (performs : Performs engine.handlers.contains (engine.attempt p s data) effects r) :
      Tried engine p data s (.whole (Effect.calls effects) r)
  | each {effects : List Effect} {replies : List (Action × Reply)} (h : s.PassesOver)
      (performs : Performs engine.handlers.contains (fanOutAll p s data) effects (.ok replies)) :
      Tried engine p data s (.each (Effect.calls effects) replies)
  | eachFails {effects : List Effect} {e : StepError} (h : s.PassesOver)
      (performs : Performs engine.handlers.contains (fanOutAll p s data) effects (.error e)) :
      Tried engine p data s (.whole (Effect.calls effects) (.error e))

/-! ## Visits -/

/-- The text of an error of a step that is attempted again. -/
def attemptText (number total : Nat) (e : StepError) : String :=
  let text := e.message
  s!"attempt {number}/{total}: {text}"

/-- The texts of failures of attempts, numbered from a number on. -/
def attemptTexts (total : Nat) : Nat → List StepError → List String
  | _, [] => []
  | number, e :: rest => attemptText number total e :: attemptTexts total (number + 1) rest

/-- What a run does at one position whose step is found. -/
structure Visit where
  index : Nat
  step : Step
  /-- The attempts after which the step is attempted again. -/
  earlier : List Trial
  last : Trial

namespace Visit

/-- The attempts in order. -/
def trials (v : Visit) : List Trial := v.earlier ++ [v.last]

/-- The calls of handlers in order. -/
def calls (v : Visit) : List Served := v.trials.flatMap Trial.calls

/-- The failures that are recorded, in order. -/
def failures (v : Visit) : List StepError := v.trials.flatMap Trial.failures

/-- What the run does next. -/
def flow (v : Visit) : Flow := v.last.flow v.step

/-- The texts of the errors that are recorded. -/
def messages (v : Visit) : List String :=
  match v.step.errorPolicy with
  | .retry attempts => attemptTexts (totalAttempts attempts) 1 v.failures
  | _ => v.failures.map StepError.message

/-- The errors that are recorded. -/
def errors (v : Visit) : List (Nat × String × String) :=
  v.messages.map fun text => (v.index, v.step.id, text)

/-- The result that is recorded, if there is one. -/
def results (v : Visit) : List (String × String × Json) :=
  ((v.last.output? v.step).map fun output => (v.step.id, v.step.name, output)).toList

/-- The attempts are attempts at the step, each but the last fails, and a step that fails for good
has been attempted as often as its policy allows. -/
structure Genuine (engine : Engine σ) (p : Plan) (data : Json) (v : Visit) : Prop where
  tried : ∀ t ∈ v.trials, Tried engine p data v.step t
  failed : ∀ t ∈ v.earlier, t.Fails
  few : v.trials.length ≤ maxAttempts v.step.errorPolicy
  spent : v.last.Fails → v.trials.length = maxAttempts v.step.errorPolicy

end Visit

/-! ## Runs -/

/-- How a run ends. -/
inductive Ending where
  | completed
  /-- A position's identifier leads to no step. -/
  | unresolved (index : Nat) (stepId : String)
  | halted (status : ExecutionStatus)

namespace Ending

/-- The status that the execution is moved to. -/
def status : Ending → ExecutionStatus
  | completed => .completed
  | unresolved _ _ => .failed
  | halted status => status

/-- The error that is recorded for the end itself. -/
def errors : Ending → List (Nat × String × String)
  | unresolved index stepId => [(index, stepId, (StepError.missingStep stepId).message)]
  | _ => []

end Ending

/-- `Course engine p data index entries visits ending`: a run that comes to an index with these
entries before it may make these visits and end so. -/
inductive Course (engine : Engine σ) (p : Plan) (data : Json) :
    Nat → List PlanEntry → List Visit → Ending → Prop
  | completed (index : Nat) : Course engine p data index [] [] .completed
  | unresolved (index : Nat) {entry : PlanEntry} (rest : List PlanEntry)
      (step : entry.step = none) :
      Course engine p data index (entry :: rest) [] (.unresolved index entry.stepId)
  | halted {v : Visit} {entry : PlanEntry} {status : ExecutionStatus} (rest : List PlanEntry)
      (step : entry.step = some v.step) (genuine : v.Genuine engine p data)
      (flow : v.flow = .halt status) :
      Course engine p data v.index (entry :: rest) [v] (.halted status)
  | proceeded {v : Visit} {entry : PlanEntry} {rest : List PlanEntry} {visits : List Visit}
      {ending : Ending} (step : entry.step = some v.step) (genuine : v.Genuine engine p data)
      (flow : v.flow = .proceed)
      (later : Course engine p data (v.index + 1) rest visits ending) :
      Course engine p data v.index (entry :: rest) (v :: visits) ending

/-- `Writes e visits ending e'`: an execution that runs is moved to its end, with what visits record
and the end itself. -/
structure Writes (e : Execution) (visits : List Visit) (ending : Ending) (e' : Execution) :
    Prop where
  errors : e'.errors.map ExecutionError.timeless =
    e.errors.map ExecutionError.timeless ++ visits.flatMap Visit.errors ++ ending.errors
  results : e'.results.map StepResult.timeless =
    e.results.map StepResult.timeless ++ visits.flatMap Visit.results
  status : e'.status = ending.status
  data : e'.data = e.data

/-! ## What the parts of a run record -/

/-- To note a result calls nobody and adds the result. -/
theorem of_noteResult {known : String → Bool} {s : Step} {output : Json} {e e' : Execution}
    {effects : List Effect} (h : Performs known (noteResult s output e) effects e') :
    Effect.calls effects = [] ∧ e.Adds [] [(s.id, s.name, output)] e' := by
  obtain ⟨first, time, second, rfl, hnow, hrest⟩ := h.of_bind
  obtain rfl := hnow.of_now
  obtain ⟨rfl, rfl⟩ := hrest.of_pure
  exact ⟨rfl, .pushResult s.id s.name output time e⟩

/-- To note an error calls nobody and adds the error. -/
theorem of_noteError {known : String → Bool} {place : Place} {text : String} {e e' : Execution}
    {effects : List Effect} (h : Performs known (noteError place text e) effects e') :
    Effect.calls effects = [] ∧ e.Adds [(place.index, place.step.id, text)] [] e' := by
  obtain ⟨first, time, second, rfl, hnow, hrest⟩ := h.of_bind
  obtain rfl := hnow.of_now
  obtain ⟨rfl, rfl⟩ := hrest.of_pure
  exact ⟨rfl, .pushError place.index place.step.id text time e⟩

/-- After an attempt that has an output, what `Trial.flow` and `Trial.output?` say happens. -/
theorem of_succeed {known : String → Bool} {s : Step} {output : Json} {e e' : Execution}
    {flow : Flow} {effects : List Effect} {t : Trial} (outcome : t.outcome = .ok output)
    (h : Performs known (succeed s output e) effects (flow, e')) :
    Effect.calls effects = [] ∧ flow = t.flow s ∧
      e.Adds [] ((t.output? s).map fun output => (s.id, s.name, output)).toList e' := by
  simp only [succeed] at h
  split at h
  · next closed =>
    obtain ⟨rfl, heq⟩ := h.of_pure
    cases heq
    exact ⟨rfl, by simp [Trial.flow, outcome, closed],
      by simpa [Trial.output?, outcome, closed] using .nothing e⟩
  · next closed =>
    obtain ⟨first, e₁, second, rfl, hnote, hrest⟩ := h.of_bind
    obtain ⟨rfl, heq⟩ := hrest.of_pure
    cases heq
    obtain ⟨hcalls, hadds⟩ := of_noteResult hnote
    exact ⟨by simpa using hcalls, by simp [Trial.flow, outcome, closed],
      by simpa [Trial.output?, outcome, closed] using hadds⟩

/-- What is recorded of a step whose failure is passed over, and how the run goes on. -/
theorem of_passOver {known : String → Bool} {place : Place} {error : StepError}
    {e e' : Execution} {flow : Flow} {effects : List Effect} {t : Trial}
    (policy : place.step.errorPolicy = .continue) (outcome : t.outcome = .error error)
    (h : Performs known (passOver place error.message e) effects (flow, e')) :
    Effect.calls effects = [] ∧ flow = t.flow place.step ∧
      e.Adds [(place.index, place.step.id, error.message)]
        ((t.output? place.step).map fun output =>
          (place.step.id, place.step.name, output)).toList e' := by
  obtain ⟨first, e₁, second, rfl, herror, hrest⟩ := h.of_bind
  obtain ⟨third, e₂, last, rfl, hresult, hend⟩ := hrest.of_bind
  obtain ⟨rfl, heq⟩ := hend.of_pure
  cases heq
  obtain ⟨hcalls, hadds⟩ := of_noteError herror
  obtain ⟨hcalls', hadds'⟩ := of_noteResult hresult
  refine ⟨by simp [hcalls, hcalls'], by simp [Trial.flow, outcome, policy], ?_⟩
  simpa [Trial.output?, outcome, policy] using hadds.trans hadds'

/-- To note replies calls nobody and adds the failures among them, by induction on the replies. -/
theorem of_noteReplies {known : String → Bool} {place : Place} {replies : List (Action × Reply)}
    {entries : List Json} {e e' : Execution} {effects : List Effect}
    (h : Performs known (noteReplies place replies e) effects (entries, e')) :
    Effect.calls effects = [] ∧ entries = replies.map replyEntry ∧
      e.Adds ((replies.filterMap replyFailure?).map fun failure =>
        (place.index, place.step.id, failure.message)) [] e' := by
  induction replies generalizing e entries effects with
  | nil =>
    obtain ⟨rfl, heq⟩ := h.of_pure
    cases heq
    exact ⟨rfl, rfl, .nothing _⟩
  | cons reply rest ih =>
    obtain ⟨a, reply⟩ := reply
    cases reply with
    | ok output =>
      obtain ⟨first, ⟨others, e₁⟩, second, rfl, hothers, hend⟩ := h.of_bind
      obtain ⟨rfl, heq⟩ := hend.of_pure
      cases heq
      obtain ⟨hcalls, hentries, hadds⟩ := ih hothers
      exact ⟨by simpa using hcalls, by rw [hentries]; rfl, hadds⟩
    | error error =>
      obtain ⟨first, e₁, second, rfl, herror, hrest⟩ := h.of_bind
      obtain ⟨third, ⟨others, e₂⟩, last, rfl, hothers, hend⟩ := hrest.of_bind
      obtain ⟨rfl, heq⟩ := hend.of_pure
      cases heq
      obtain ⟨hcalls, hadds⟩ := of_noteError herror
      obtain ⟨hcalls', hentries, hadds'⟩ := ih hothers
      exact ⟨by simp [hcalls, hcalls'], by rw [hentries]; rfl, hadds.trans hadds'⟩

/-! ## Visits of the three policies -/

/-- `Leaves place e effects flow e' v`: a visit is what became of a step under its policy. -/
structure Leaves (engine : Engine σ) (p : Plan) (data : Json) (place : Place) (e : Execution)
    (effects : List Effect) (flow : Flow) (e' : Execution) (v : Visit) : Prop where
  index : v.index = place.index
  step : v.step = place.step
  genuine : v.Genuine engine p data
  calls : Effect.calls effects = v.calls
  flow : flow = v.flow
  adds : e.Adds v.errors v.results e'

section Visits

variable {engine : Engine σ} {p : Plan} {data : Json} {place : Place} {e e' : Execution}
  {effects : List Effect} {flow : Flow}

/-- A step without the retry policy is tried once. -/
theorem maxAttempts_eq_one {policy : ErrorPolicy} (h : ∀ n, policy ≠ .retry n) :
    maxAttempts policy = 1 := by
  cases policy with
  | retry n => exact absurd rfl (h n)
  | _ => rfl

/-- The errors of a visit of one attempt that is not followed by others. -/
theorem Visit.errors_of_once {index : Nat} {step : Step} {t : Trial}
    (policy : ∀ n, step.errorPolicy ≠ .retry n) : Visit.errors ⟨index, step, [], t⟩ =
      t.failures.map fun failure => (index, step.id, failure.message) := by
  have messages : Visit.messages ⟨index, step, [], t⟩ = t.failures.map StepError.message := by
    simp only [Visit.messages, Visit.failures, Visit.trials, List.nil_append, List.flatMap_cons,
      List.flatMap_nil, List.append_nil]
  rw [Visit.errors, messages, List.map_map]
  rfl

/-- A policy that does not attempt a step again leaves a visit of one attempt. -/
theorem Leaves.once {t : Trial} (policy : ∀ n, place.step.errorPolicy ≠ .retry n)
    (tried : Tried engine p data place.step t) (calls : Effect.calls effects = t.calls)
    (hflow : flow = t.flow place.step)
    (adds : e.Adds (t.failures.map fun failure => (place.index, place.step.id, failure.message))
      ((t.output? place.step).map fun output =>
        (place.step.id, place.step.name, output)).toList e') :
    Leaves engine p data place e effects flow e' ⟨place.index, place.step, [], t⟩ := by
  have most := maxAttempts_eq_one policy
  refine ⟨rfl, rfl, ⟨by simpa [Visit.trials] using tried, by simp, ?_, fun _ => ?_⟩, ?_, hflow, ?_⟩
  · simp [Visit.trials, most]
  · simp [Visit.trials, most]
  · simp [Visit.calls, Visit.trials, calls]
  · rw [Visit.errors_of_once policy]
    exact adds

/-- A step that stops at a failure leaves one trial. -/
theorem leaves_of_runOnce (policy : place.step.errorPolicy = .stop)
    (h : Performs engine.handlers.contains (engine.runOnce p data place e) effects (flow, e')) :
    ∃ v, Leaves engine p data place e effects flow e' v := by
  obtain ⟨first, r, second, rfl, hattempt, hrest⟩ := h.of_bind
  have passes : ¬ place.step.PassesOver := fun h => by simp [Step.PassesOver, policy] at h
  have tried := Tried.whole passes hattempt
  cases r with
  | ok output =>
    obtain ⟨hcalls, hflow, hadds⟩ :=
      of_succeed (t := .whole (Effect.calls first) (.ok output)) rfl hrest
    exact ⟨_, .once (by simp [policy]) tried (by simp [hcalls, Trial.whole]) hflow hadds⟩
  | error error =>
    obtain ⟨third, e₁, last, rfl, herror, hend⟩ := hrest.of_bind
    obtain ⟨rfl, heq⟩ := hend.of_pure
    cases heq
    obtain ⟨hcalls, hadds⟩ := of_noteError herror
    refine ⟨_, .once (by simp [policy]) tried (by simp [hcalls, Trial.whole]) ?_ ?_⟩
    · simp [Trial.flow, Trial.whole, policy]
    · simpa [Trial.output?, Trial.whole, policy] using hadds

/-- A step that passes over failures leaves one trial. -/
theorem leaves_of_runAnyway (policy : place.step.errorPolicy = .continue)
    (h : Performs engine.handlers.contains (engine.runAnyway p data place e) effects (flow, e')) :
    ∃ v, Leaves engine p data place e effects flow e' v := by
  rw [runAnyway] at h
  split at h
  · next kind =>
    have passes : place.step.PassesOver := ⟨policy, kind⟩
    obtain ⟨first, r, second, rfl, hattempt, hrest⟩ := h.of_bind
    cases r with
    | ok replies =>
      obtain ⟨third, ⟨entries, e₁⟩, last, rfl, hnote, hend⟩ := hrest.of_bind
      obtain ⟨fourth, e₂, fifth, rfl, hresult, hdone⟩ := hend.of_bind
      obtain ⟨rfl, heq⟩ := hdone.of_pure
      cases heq
      obtain ⟨hcalls, rfl, hadds⟩ := of_noteReplies hnote
      obtain ⟨hcalls', hadds'⟩ := of_noteResult hresult
      refine ⟨_, .once (by simp [policy]) (.each passes hattempt) ?_ ?_ ?_⟩
      · simp [hcalls, hcalls', Trial.each]
      · simp [Trial.flow, Trial.each, kind]
      · simpa [Trial.output?, Trial.each, kind] using hadds.trans hadds'
    | error error =>
      obtain ⟨hcalls, hflow, hadds⟩ :=
        of_passOver (t := .whole (Effect.calls first) (.error error)) policy rfl hrest
      refine ⟨_, .once (by simp [policy]) (.eachFails passes hattempt) ?_ hflow hadds⟩
      simp [hcalls, Trial.whole]
  · next kind =>
    have passes : ¬ place.step.PassesOver := fun h => kind h.2
    obtain ⟨first, r, second, rfl, hattempt, hrest⟩ := h.of_bind
    cases r with
    | ok output =>
      obtain ⟨hcalls, hflow, hadds⟩ :=
        of_succeed (t := .whole (Effect.calls first) (.ok output)) rfl hrest
      refine ⟨_, .once (by simp [policy]) (.whole passes hattempt) ?_ hflow hadds⟩
      simp [hcalls, Trial.whole]
    | error error =>
      obtain ⟨hcalls, hflow, hadds⟩ :=
        of_passOver (t := .whole (Effect.calls first) (.error error)) policy rfl hrest
      refine ⟨_, .once (by simp [policy]) (.whole passes hattempt) ?_ hflow hadds⟩
      simp [hcalls, Trial.whole]

/-- One round of attempts: the step has an output, or its failure is recorded under the number of
the attempt, and the other attempts follow if there are any. -/
theorem round_of_runAgain {total left : Nat} {n : UInt32}
    (policy : place.step.errorPolicy = .retry n)
    (h : Performs engine.handlers.contains (engine.runAgain p data place total (left + 1) e) effects
      (flow, e')) :
    ∃ t rest, Tried engine p data place.step t ∧ Effect.calls effects = t.calls ++ rest ∧
      ((¬ t.Fails ∧ t.failures = [] ∧ rest = [] ∧ flow = t.flow place.step ∧
          e.Adds [] ((t.output? place.step).map fun output =>
            (place.step.id, place.step.name, output)).toList e') ∨
        ∃ error middle, t.outcome = .error error ∧ t.failures = [error] ∧
          e.Adds [(place.index, place.step.id, attemptText (total - left) total error)] [] middle ∧
          ((left = 0 ∧ rest = [] ∧ flow = .halt .failed ∧ e' = middle) ∨
            ∃ later, rest = Effect.calls later ∧ Performs engine.handlers.contains
              (engine.runAgain p data place total left middle) later (flow, e'))) := by
  have passes : ¬ place.step.PassesOver := fun h => by simp [Step.PassesOver, policy] at h
  obtain ⟨first, r, second, rfl, hattempt, hrest⟩ := h.of_bind
  have tried := Tried.whole passes hattempt
  cases r with
  | ok output =>
    obtain ⟨hcalls, hflow, hadds⟩ :=
      of_succeed (t := .whole (Effect.calls first) (.ok output)) rfl hrest
    refine ⟨_, [], tried, by simp [hcalls, Trial.whole], .inl ⟨?_, rfl, rfl, hflow, hadds⟩⟩
    simp [Trial.Fails, Trial.whole]
  | error error =>
    obtain ⟨third, middle, last, rfl, herror, hend⟩ := hrest.of_bind
    obtain ⟨hcalls, hadds⟩ := of_noteError herror
    refine ⟨_, Effect.calls last, tried, by simp [hcalls, Trial.whole],
      .inr ⟨error, middle, rfl, rfl, hadds, ?_⟩⟩
    split at hend
    · next hleft =>
      obtain ⟨rfl, heq⟩ := hend.of_pure
      cases heq
      exact .inl ⟨hleft, rfl, rfl, rfl⟩
    · obtain ⟨fourth, _, later, rfl, hpause, hlater⟩ := hend.of_bind
      obtain rfl := hpause.of_pause
      exact .inr ⟨later, rfl, hlater⟩

/-- A step that may be attempted `left + 1` more times: the failures are numbered from
`total - left` on, and the last attempt decides. -/
theorem trials_of_runAgain {total left : Nat} {n : UInt32}
    (policy : place.step.errorPolicy = .retry n) (enough : left < total)
    (h : Performs engine.handlers.contains (engine.runAgain p data place total (left + 1) e) effects
      (flow, e')) :
    ∃ earlier last, (∀ t ∈ earlier ++ [last], Tried engine p data place.step t) ∧
      (∀ t ∈ earlier, t.Fails) ∧ earlier.length ≤ left ∧ (last.Fails → earlier.length = left) ∧
      Effect.calls effects = (earlier ++ [last]).flatMap Trial.calls ∧
      flow = last.flow place.step ∧
      e.Adds ((attemptTexts total (total - left) ((earlier ++ [last]).flatMap Trial.failures)).map
          fun text => (place.index, place.step.id, text))
        ((last.output? place.step).map fun output =>
          (place.step.id, place.step.name, output)).toList e' := by
  -- A failure leaves the execution changed and `left` smaller, so both change with the induction;
  -- `total - left` is the number of the next attempt.
  induction left generalizing e effects with
  | zero =>
    obtain ⟨t, rest, tried, hcalls, hround⟩ := round_of_runAgain policy h
    refine ⟨[], t, by simpa using tried, by simp, Nat.le_refl 0, fun _ => rfl, ?_⟩
    rcases hround with ⟨_, hnone, rfl, hflow, hadds⟩ | ⟨error, middle, houtcome, hone, hadds, hend⟩
    · exact ⟨by simp [hcalls], hflow, by simpa [hnone, attemptTexts] using hadds⟩
    · rcases hend with ⟨_, rfl, rfl, rfl⟩ | ⟨later, rfl, hlater⟩
      · refine ⟨by simp [hcalls], by simp [Trial.flow, houtcome, policy], ?_⟩
        simpa [Trial.output?, houtcome, policy, hone, attemptTexts] using hadds
      · obtain ⟨rfl, heq⟩ := hlater.of_pure
        cases heq
        refine ⟨by simp [hcalls], by simp [Trial.flow, houtcome, policy], ?_⟩
        simpa [Trial.output?, houtcome, policy, hone, attemptTexts] using hadds
  | succ left ih =>
    obtain ⟨t, rest, tried, hcalls, hround⟩ := round_of_runAgain policy h
    rcases hround with ⟨hok, hnone, rfl, hflow, hadds⟩ |
      ⟨error, middle, houtcome, hone, hadds, hend⟩
    · refine ⟨[], t, by simpa using tried, by simp, by simp, fun hfails => absurd hfails hok,
        by simp [hcalls], hflow, by simpa [hnone, attemptTexts] using hadds⟩
    · rcases hend with ⟨hzero, _⟩ | ⟨later, rfl, hlater⟩
      · exact absurd hzero (Nat.succ_ne_zero left)
      · obtain ⟨earlier, last, htried, hfail, hlength, hspent, hcalls', hflow, hadds'⟩ :=
          ih (by omega) hlater
        have number : total - (left + 1) + 1 = total - left := by omega
        refine ⟨t :: earlier, last, ?_, ?_, by simpa using hlength, ?_, ?_, hflow, ?_⟩
        · simpa [tried] using htried
        · simpa [Trial.Fails, houtcome] using hfail
        · simpa using hspent
        · simp [hcalls, hcalls']
        · simpa [hone, attemptTexts, number] using hadds.trans hadds'

/-- Every step is tried. -/
theorem totalAttempts_pos (n : UInt32) : 0 < totalAttempts n := by
  have : 1 < UInt32.size := by decide
  unfold totalAttempts
  omega

/-- A step that is tried again leaves its trials up to the first that succeeds. -/
theorem leaves_of_runAgain {n : UInt32} (policy : place.step.errorPolicy = .retry n)
    (h : Performs engine.handlers.contains
      (engine.runAgain p data place (totalAttempts n) (totalAttempts n) e) effects (flow, e')) :
    ∃ v, Leaves engine p data place e effects flow e' v := by
  obtain ⟨left, hleft⟩ : ∃ left, totalAttempts n = left + 1 :=
    ⟨totalAttempts n - 1, by have := totalAttempts_pos n; omega⟩
  have max : maxAttempts place.step.errorPolicy = left + 1 := by rw [policy]; exact hleft
  rw [hleft] at h
  obtain ⟨earlier, last, tried, failed, few, spent, hcalls, hflow, hadds⟩ :=
    trials_of_runAgain policy (Nat.lt_succ_self left) h
  refine ⟨⟨place.index, place.step, earlier, last⟩, rfl, rfl, ⟨tried, failed, ?_, ?_⟩, hcalls,
    hflow, ?_⟩
  · simpa [Visit.trials, max] using few
  · intro hfails
    simpa [Visit.trials, max] using spent hfails
  · have first : left + 1 - left = 1 := by omega
    rw [first] at hadds
    simp only [Visit.errors, Visit.messages, policy, hleft, Visit.failures]
    exact hadds

/-- Whatever its policy, a step leaves a visit. -/
theorem leaves_of_runStep
    (h : Performs engine.handlers.contains (engine.runStep p data place e) effects (flow, e')) :
    ∃ v, Leaves engine p data place e effects flow e' v := by
  rw [runStep] at h
  split at h
  · next policy => exact leaves_of_runOnce policy h
  · next policy => exact leaves_of_runAnyway policy h
  · next n policy => exact leaves_of_runAgain policy h

end Visits

/-! ## The whole run -/

/-- To end a run calls nobody and sets status and time. -/
theorem of_finished {known : String → Bool} {status : ExecutionStatus} {e e' : Execution}
    {effects : List Effect} (h : Performs known (finished status e) effects e') :
    Effect.calls effects = [] ∧ ∃ time, e' = e.finish status time := by
  obtain ⟨first, time, second, rfl, hnow, hrest⟩ := h.of_bind
  obtain rfl := hnow.of_now
  obtain ⟨rfl, rfl⟩ := hrest.of_pure
  exact ⟨rfl, time, rfl⟩

theorem currentStepIndex_finish (status : ExecutionStatus) (time : Instant) (e : Execution) :
    (e.finish status time).currentStepIndex = e.currentStepIndex := by
  unfold Execution.finish
  split <;> rfl

/-- A run that is halted has ended. -/
theorem Trial.isTerminal_of_flow {s : Step} {t : Trial} {status : ExecutionStatus}
    (h : t.flow s = .halt status) : status.isTerminal = true := by
  unfold Trial.flow at h
  split at h <;> split at h <;> cases h <;> rfl

/-- What a run has added stands when it is moved to its end. -/
theorem Writes.of_finish {e middle : Execution} (visits : List Visit) (ending : Ending)
    (running : e.status = .running)
    (adds : e.Adds (visits.flatMap Visit.errors ++ ending.errors) (visits.flatMap Visit.results)
      middle)
    (terminal : ending.status.isTerminal = true) (time : Instant) :
    Writes e visits ending (middle.finish ending.status time) := by
  have runs : middle.status = .running := by rw [adds.others]; exact running
  have data : middle.data = e.data := by rw [adds.others]
  have can : middle.canFinish ending.status = true := by
    simp only [Execution.canFinish, runs, terminal]
    rfl
  rw [Execution.finish_of_canFinish time can]
  exact ⟨by rw [List.append_assoc]; exact adds.errors, adds.results, rfl, data⟩

/-- A visit comes before all that is written behind it. -/
theorem Writes.of_adds {e middle e' : Execution} {v : Visit} {visits : List Visit}
    {ending : Ending} (adds : e.Adds v.errors v.results middle)
    (h : Writes middle visits ending e') : Writes e (v :: visits) ending e' := by
  refine ⟨?_, ?_, h.status, ?_⟩
  · rw [h.errors, adds.errors]
    simp
  · rw [h.results, adds.results]
    simp
  · rw [h.data, adds.others]

/-- Where there are no more entries the run is complete. -/
theorem Course.of_nil {engine : Engine σ} {p : Plan} {data : Json} {index : Nat}
    {visits : List Visit} {ending : Ending} (h : Course engine p data index [] visits ending) :
    visits = [] ∧ ending = .completed := by
  cases h
  exact ⟨rfl, rfl⟩

/-- The index that an execution comes to rest at: the last position that the run has come to. -/
def restingIndex (before index : Nat) (entries : List PlanEntry) (visits : List Visit)
    (ending : Ending) : Nat :=
  if entries = [] then before else index + visits.length + ending.errors.length - 1

/-- A run from an index on has a history. -/
theorem course_of_runFrom {engine : Engine σ} {p : Plan} {data : Json} {index : Nat}
    {entries : List PlanEntry} {e e' : Execution} {effects : List Effect}
    (running : e.status = .running)
    (h : Performs engine.handlers.contains (engine.runFrom p data index entries e) effects e') :
    ∃ visits ending, Course engine p data index entries visits ending ∧
      Effect.calls effects = visits.flatMap Visit.calls ∧ Writes e visits ending e' ∧
      e'.currentStepIndex = restingIndex e.currentStepIndex index entries visits ending := by
  -- The first position makes a visit; unless it halts the run, the history of the rest follows.
  induction entries generalizing index e effects with
  | nil =>
    obtain ⟨hcalls, time, rfl⟩ := of_finished h
    have writes := Writes.of_finish [] .completed running (.nothing e) rfl time
    exact ⟨[], .completed, .completed index, by simp [hcalls], writes,
      currentStepIndex_finish .completed time e⟩
  | cons entry rest ih =>
    have placed : ({ e with currentStepIndex := index } : Execution).status = .running := running
    rw [runFrom] at h
    cases step : entry.step with
    | none =>
      rw [step] at h
      obtain ⟨first, time, second, rfl, hnow, hrest⟩ := h.of_bind
      obtain rfl := hnow.of_now
      obtain ⟨hcalls, time', rfl⟩ := of_finished hrest
      refine ⟨[], .unresolved index entry.stepId, .unresolved index rest step, by simp [hcalls], ?_,
        ?_⟩
      · have writes := Writes.of_finish [] (.unresolved index entry.stepId) placed
          (.pushError index entry.stepId _ time _) rfl time'
        exact ⟨writes.errors, writes.results, writes.status, writes.data⟩
      · rw [currentStepIndex_finish]
        simp [restingIndex, Ending.errors, Execution.pushError]
    | some s =>
      rw [step] at h
      obtain ⟨first, ⟨flow, middle⟩, second, rfl, hstep, hrest⟩ := h.of_bind
      obtain ⟨v, leaves⟩ := leaves_of_runStep hstep
      have at_index : v.index = index := leaves.index
      have its_step : entry.step = some v.step := by rw [step, leaves.step]
      have runs : middle.status = .running := by rw [leaves.adds.others]; exact running
      have resting : middle.currentStepIndex = index := by rw [leaves.adds.others]
      have hflow := leaves.flow.symm
      cases flow with
      | proceed =>
        obtain ⟨visits, ending, later, hcalls, writes, hindex⟩ := ih runs hrest
        rw [← at_index] at later
        refine ⟨v :: visits, ending, at_index ▸ .proceeded its_step leaves.genuine hflow later,
          ?_, ?_, ?_⟩
        · rw [Effect.calls_append, leaves.calls, hcalls, List.flatMap_cons]
        · have writes := Writes.of_adds leaves.adds writes
          exact ⟨writes.errors, writes.results, writes.status, writes.data⟩
        · rw [hindex, resting, restingIndex, restingIndex, if_neg (List.cons_ne_nil entry rest)]
          split
          · next nothing =>
            subst nothing
            obtain ⟨rfl, rfl⟩ := later.of_nil
            simp [Ending.errors]
          · simp only [List.length_cons]
            omega
      | halt status =>
        obtain ⟨hcalls, time, rfl⟩ := of_finished hrest
        have writes := Writes.of_finish [v] (.halted status) placed
          (by simpa [Ending.errors] using leaves.adds) (Trial.isTerminal_of_flow hflow) time
        refine ⟨[v], .halted status, at_index ▸ .halted rest its_step leaves.genuine hflow,
          ?_, ?_, ?_⟩
        · rw [Effect.calls_append, leaves.calls, hcalls]
          simp
        · exact ⟨writes.errors, writes.results, writes.status, writes.data⟩
        · rw [currentStepIndex_finish, resting]
          simp [restingIndex, Ending.errors]

/-- A run of a plan has a history, whatever is answered to it. -/
theorem course_of_run {engine : Engine σ} {p : Plan} {e e' : Execution} {effects : List Effect}
    (running : e.status = .running)
    (h : Performs engine.handlers.contains (engine.run p e) effects e') :
    ∃ visits ending, Course engine p e.data 0 p.entries visits ending ∧
      Effect.calls effects = visits.flatMap Visit.calls ∧ Writes e visits ending e' ∧
      e'.currentStepIndex = restingIndex e.currentStepIndex 0 p.entries visits ending :=
  course_of_runFrom running h

end Engine

end EventFlow
