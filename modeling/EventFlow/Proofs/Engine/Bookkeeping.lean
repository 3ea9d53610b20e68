import EventFlow.Proofs.Engine.Course
import Mathlib.Algebra.GroupWithZero.Nat
import Mathlib.Data.List.Forall2

/-!
# What a run records of each position

The errors of an execution ascend with their positions, and what is recorded of each position is
what the error policy of its step says (`Step.Books`): how many errors there are, how they are
numbered, and how they agree with the output. `booked_of_run` says so of every run of every plan.
The books are kept by `Engine.runStep`, through `Engine.noteResult` and `Engine.noteError`
(`EventFlow.Engine.Run`).
-/

set_option autoImplicit false

namespace EventFlow

/-! ## Lists of numbered groups -/

/-- The members of every group carry the number of the group, counted from a number on. -/
def Numbered {α : Type} (f : α → Nat) : Nat → List (List α) → Prop
  | _, [] => True
  | number, group :: rest => (∀ x ∈ group, f x = number) ∧ Numbered f (number + 1) rest

namespace Numbered

variable {α : Type} {f : α → Nat}

theorem le_of_mem {number : Nat} {groups : List (List α)} (h : Numbered f number groups) {x : α}
    (hx : x ∈ groups.flatten) : number ≤ f x ∧ f x < number + groups.length := by
  induction groups generalizing number with
  | nil => cases hx
  | cons group rest ih =>
    rw [List.flatten_cons, List.mem_append] at hx
    rw [List.length_cons]
    rcases hx with hgroup | hrest
    · have := h.1 x hgroup
      omega
    · have := ih h.2 hrest
      omega

/-- The members ascend with their numbers. -/
theorem pairwise {number : Nat} {groups : List (List α)} (h : Numbered f number groups) :
    groups.flatten.Pairwise fun x y => f x ≤ f y := by
  induction groups generalizing number with
  | nil => exact .nil
  | cons group rest ih =>
    rw [List.flatten_cons, List.pairwise_append]
    refine ⟨?_, ih h.2, ?_⟩
    · refine List.pairwise_of_forall_mem_list fun x hx y hy => ?_
      have := h.1 x hx
      have := h.1 y hy
      omega
    · intro x hx y hy
      have := h.1 x hx
      have := (le_of_mem h.2 hy).1
      omega

/-- The members of one number are those of its group. -/
theorem filter_eq {number : Nat} {groups : List (List α)} (h : Numbered f number groups) (k : Nat) :
    groups.flatten.filter (fun x => f x = number + k) = groups[k]?.getD [] := by
  induction groups generalizing number k with
  | nil => rfl
  | cons group rest ih =>
    rw [List.flatten_cons, List.filter_append]
    cases k with
    | zero =>
      have own : group.filter (fun x => f x = number + 0) = group :=
        List.filter_eq_self.2 fun x hx => by simpa using h.1 x hx
      have others : rest.flatten.filter (fun x => f x = number + 0) = [] := by
        refine List.filter_eq_nil_iff.2 fun x hx => ?_
        have := (le_of_mem h.2 hx).1
        simp only [decide_eq_true_eq]
        omega
      rw [own, others]
      simp
    | succ k =>
      have own : group.filter (fun x => f x = number + (k + 1)) = [] := by
        refine List.filter_eq_nil_iff.2 fun x hx => ?_
        have := h.1 x hx
        simp only [decide_eq_true_eq]
        omega
      have others := ih h.2 k
      rw [Nat.add_right_comm, Nat.add_assoc] at others
      rw [own, others]
      simp

end Numbered

/-! ## What is recorded of a position -/

namespace Execution

/-- The texts of the errors of a position, in order. -/
def messagesAt (index : Nat) (e : Execution) : List String :=
  (e.errors.filter fun error => error.stepIndex = index).map ExecutionError.message

/-- The output of a position that the run has passed over. -/
def outputAt? (index : Nat) (e : Execution) : Option Json := e.results[index]?.map StepResult.output

end Execution

/-- What an output says of an action that has failed. -/
def errorText? (entry : Json) : Option String := (entry.get? "error").bind Json.asString?

/-- The output of a step whose failure is passed over. -/
def passedOver (text : String) : Json := .ofMembers [("error", .string text)]

/-- `p.SaysOf id entry`: an entry of a parallel step's output says of the action of an identifier
which output it has, or why it has none. -/
def Plan.SaysOf (p : Plan) (id : String) (entry : Json) : Prop :=
  ∃ a, p.action? id = some a ∧
    ((∃ output, entry = Engine.outputEntry a output) ∨ ∃ text, entry = Engine.errorEntry a text)

/-- What the error text of an attempt begins with. -/
def attemptPrefix (number total : Nat) : String := s!"attempt {number}/{total}: "

/-- `s.Books p texts output? status`: what is recorded of a step is what its error policy says: the
texts of the errors at its position, and the output there if the run has passed over it; the run has
otherwise ended there with the status. -/
def Step.Books (p : Plan) (s : Step) (texts : List String) (output? : Option Json)
    (status : ExecutionStatus) : Prop :=
  match s.errorPolicy with
  | .stop =>
    (output?.isSome ∨ status = .stopped → texts = []) ∧
      (output? = none ∧ status = .failed → texts.length = 1)
  | .continue =>
    if s.kind = .parallel then
      (∃ text, texts = [text] ∧ output? = some (passedOver text)) ∨
        ∃ entries, output? = some (.array entries) ∧
          List.Forall₂ p.SaysOf s.actionIds entries ∧ entries.filterMap errorText? = texts
    else texts = [] ∨ ∃ text, texts = [text] ∧ output? = some (passedOver text)
  | .retry attempts =>
    let total := min (attempts.toNat + 1) (2 ^ 32 - 1)
    (∀ k text, texts[k]? = some text → ∃ rest, text = attemptPrefix (k + 1) total ++ rest) ∧
      (output?.isSome ∨ status = .stopped → texts.length < total) ∧
      (output? = none ∧ status = .failed → texts.length = total)

/-- `Booked p e`: the errors and the outputs of an execution are what the error policies of a plan's
steps say. The positions that have been visited are those up to the index of the execution, and
those that have been passed over have an output. -/
structure Booked (p : Plan) (e : Execution) : Prop where
  completed : e.status = .completed → e.results.length = p.entries.length
  halted : e.status ≠ .completed → e.results.length = e.currentStepIndex
  ascending : e.errors.Pairwise fun a b => a.stepIndex ≤ b.stepIndex
  visited : ∀ error ∈ e.errors, error.stepIndex ≤ e.currentStepIndex
  unresolved : ∀ i entry, i ≤ e.currentStepIndex → p.entries[i]? = some entry →
    entry.step = none → e.messagesAt i = [(StepError.missingStep entry.stepId).message]
  resolved : ∀ i entry s, i ≤ e.currentStepIndex → p.entries[i]? = some entry →
    entry.step = some s → s.Books p (e.messagesAt i) (e.outputAt? i) e.status

namespace Engine

variable {σ : Type} {engine : Engine σ} {p : Plan} {data : Json}

/-! ## Attempts that pass over failing actions -/

theorem errorText?_replyEntry (reply : Action × Reply) :
    errorText? (replyEntry reply) = (replyFailure? reply).map StepError.message := by
  obtain ⟨a, reply⟩ := reply
  cases reply with
  | ok output =>
    simp [errorText?, replyEntry, replyFailure?, outputEntry, Json.ofMembers, Json.get?,
      Assoc.ofList, Assoc.find?_insert_of_ne, Assoc.find?]
  | error e =>
    simp [errorText?, replyEntry, replyFailure?, errorEntry, Json.ofMembers, Json.get?,
      Assoc.ofList, Assoc.find?_insert_self, Json.asString?]

theorem filterMap_errorText? (replies : List (Action × Reply)) :
    (replies.map replyEntry).filterMap errorText? =
      (replies.filterMap replyFailure?).map StepError.message := by
  rw [List.filterMap_map, List.map_filterMap]
  congr 1
  funext reply
  exact errorText?_replyEntry reply

theorem Together.length_eq {known : String → Bool} {calls : List Invocation} {served : List Served}
    {replies : List Reply} (h : Together known calls served replies) :
    replies.length = calls.length := by
  induction h with
  | nil => rfl
  | unknown _ _ ih => rw [List.length_cons, List.length_cons, ih]
  | known _ _ ih => rw [List.length_cons, List.length_cons, ih]

theorem saysOf_replyEntry {id : String} {a : Action} (h : p.action? id = some a) (reply : Reply) :
    p.SaysOf id (replyEntry (a, reply)) := by
  cases reply with
  | ok output => exact ⟨a, h, .inl ⟨output, rfl⟩⟩
  | error e => exact ⟨a, h, .inr ⟨_, rfl⟩⟩

/-- An output has one entry for each identifier, in order. -/
theorem saysOf_zip {ids : List String} {actions : List Action} {replies : List Reply}
    (found : ids.map p.action? = actions.map some) (length : replies.length = actions.length) :
    List.Forall₂ p.SaysOf ids ((actions.zip replies).map replyEntry) := by
  induction ids generalizing actions replies with
  | nil =>
    cases actions with
    | nil => exact .nil
    | cons a rest => cases found
  | cons id rest ih =>
    cases actions with
    | nil => cases found
    | cons a others =>
      cases replies with
      | nil => cases length
      | cons reply replies =>
        rw [List.map_cons, List.map_cons, List.cons.injEq] at found
        rw [List.zip_cons_cons, List.map_cons]
        exact .cons (saysOf_replyEntry found.1 reply) (ih found.2 (by simpa using length))

/-- What an attempt at a step that passes over failing actions records. -/
theorem Tried.books_of_passesOver {s : Step} {t : Trial} (h : Tried engine p data s t)
    (passes : s.PassesOver) :
    (∃ e, t.failures = [e] ∧ t.outcome = .error e) ∨
      ∃ entries, t.outcome = .ok (.array entries) ∧ List.Forall₂ p.SaysOf s.actionIds entries ∧
        entries.filterMap errorText? = t.failures.map StepError.message := by
  cases h with
  | whole notOver _ => exact absurd passes notOver
  | eachFails _ _ => exact .inl ⟨_, rfl, rfl⟩
  | @each effects replies _ performs =>
    refine .inr ⟨replies.map replyEntry, rfl, ?_, filterMap_errorText? replies⟩
    have attempted := attemptedEach_of_performs performs
    generalize Effect.calls effects = served at attempted
    cases attempted with
    | together found answered =>
      cases answered with
      | together all anyOrder =>
        exact saysOf_zip (resolve_eq_ok_iff.1 found) (by simpa using Together.length_eq all)

/-! ## Visits -/

/-- A step that is not retried is attempted once. -/
theorem Visit.Genuine.trials_eq {v : Visit} (h : v.Genuine engine p data)
    (once : maxAttempts v.step.errorPolicy = 1) : v.trials = [v.last] := by
  have few := h.few
  rw [once] at few
  have : v.earlier = [] := by
    rw [← List.length_eq_zero_iff]
    simpa [trials] using few
  rw [trials, this, List.nil_append]

/-- Of attempts that fail, one failure each is recorded. -/
theorem length_failures_of_fail {s : Step} {trials : List Trial}
    (tried : ∀ t ∈ trials, Tried engine p data s t) (fail : ∀ t ∈ trials, t.Fails) :
    (trials.flatMap Trial.failures).length = trials.length := by
  induction trials with
  | nil => rfl
  | cons t rest ih =>
    obtain ⟨e, outcome⟩ := fail t List.mem_cons_self
    have own := (tried t List.mem_cons_self).failures_of_error outcome
    have others := ih (fun u hu => tried u (List.mem_cons_of_mem t hu)) fun u hu =>
      fail u (List.mem_cons_of_mem t hu)
    rw [List.flatMap_cons, List.length_append, own, others, List.length_singleton,
      List.length_cons, Nat.add_comm]

/-- A step whose failures are not passed over, and which fails in the end: each attempt has left its
failure. -/
theorem Visit.Genuine.length_failures {v : Visit} (h : v.Genuine engine p data)
    (fails : v.last.Fails) : v.failures.length = maxAttempts v.step.errorPolicy := by
  rw [← h.spent fails, failures]
  refine length_failures_of_fail h.tried fun t ht => ?_
  rcases List.mem_append.1 ht with hearlier | hlast
  · exact h.failed t hearlier
  · obtain rfl := List.mem_singleton.1 hlast
    exact fails

/-- If it does not fail in the end, each attempt but the last has left its failure. -/
theorem Visit.Genuine.length_failures_lt {v : Visit} (h : v.Genuine engine p data)
    (notOver : ¬ v.step.PassesOver) (succeeds : ¬ v.last.Fails) :
    v.failures.length < maxAttempts v.step.errorPolicy := by
  have last : v.last.failures = [] := by
    cases outcome : v.last.outcome with
    | error e => exact absurd ⟨e, outcome⟩ succeeds
    | ok output => exact (h.tried v.last (by simp [trials])).failures_of_ok notOver outcome
  have earlier := length_failures_of_fail (fun t ht => h.tried t (by simp [trials, ht])) h.failed
  have few := h.few
  rw [trials, List.length_append, List.length_singleton] at few
  rw [failures, trials, List.flatMap_append, List.length_append, earlier]
  simp only [List.flatMap_cons, List.flatMap_nil, last, List.append_nil, List.length_nil]
  omega

/-- The text of each failure is what it says, behind the number of its attempt. -/
theorem getElem?_attemptTexts (total number k : Nat) (failures : List StepError) :
    (attemptTexts total number failures)[k]? =
      failures[k]?.map fun e => attemptPrefix (number + k) total ++ e.message := by
  induction failures generalizing number k with
  | nil => rfl
  | cons e rest ih =>
    cases k with
    | zero => rfl
    | succ k =>
      have later := ih (number + 1) k
      rw [Nat.add_right_comm, Nat.add_assoc] at later
      exact later

/-- An attempt at a step whose failures are not passed over does not fail where the run goes on or
is stopped. -/
theorem Trial.not_fails {s : Step} {t : Trial} {status : ExecutionStatus}
    (policy : s.errorPolicy ≠ .continue) (flow : t.flow s = .proceed ∨ t.flow s = .halt status)
    (h : (t.output? s).isSome ∨ status = .stopped) : ¬ t.Fails := by
  rintro ⟨e, outcome⟩
  simp only [Trial.flow, Trial.output?, outcome, if_neg policy] at flow h
  rcases flow with flow | flow
  · cases flow
  · cases flow
    rcases h with h | h <;> cases h

/-- Where the run fails, the last attempt has failed. -/
theorem Trial.fails_of_none {s : Step} {t : Trial} {status : ExecutionStatus}
    (flow : t.flow s = .proceed ∨ t.flow s = .halt status)
    (h : t.output? s = none ∧ status = .failed) : t.Fails := by
  obtain ⟨nothing, rfl⟩ := h
  rcases flow with flow | flow
  · obtain ⟨output, houtput⟩ := exists_output_of_proceed flow
    rw [nothing] at houtput
    cases houtput
  · exact (of_flow_failed flow).1

theorem Visit.Genuine.books_of_stop {v : Visit} (h : v.Genuine engine p data)
    {status : ExecutionStatus} (flow : v.flow = .proceed ∨ v.flow = .halt status)
    (policy : v.step.errorPolicy = .stop) :
    v.step.Books p v.messages (v.last.output? v.step) status := by
  have notContinue : v.step.errorPolicy ≠ .continue := by simp [policy]
  have notOver : ¬ v.step.PassesOver := fun passes => notContinue passes.1
  have most : maxAttempts v.step.errorPolicy = 1 := by rw [policy]; rfl
  simp only [Step.Books, messages, policy]
  refine ⟨fun passed => ?_, fun failed => ?_⟩
  · have less := h.length_failures_lt notOver (Trial.not_fails notContinue flow passed)
    rw [List.map_eq_nil_iff, ← List.length_eq_zero_iff]
    omega
  · rw [List.length_map, h.length_failures (Trial.fails_of_none flow failed), most]

theorem Visit.Genuine.books_of_retry {v : Visit} (h : v.Genuine engine p data)
    {status : ExecutionStatus} (flow : v.flow = .proceed ∨ v.flow = .halt status)
    {attempts : UInt32} (policy : v.step.errorPolicy = .retry attempts) :
    v.step.Books p v.messages (v.last.output? v.step) status := by
  have notContinue : v.step.errorPolicy ≠ .continue := by simp [policy]
  have notOver : ¬ v.step.PassesOver := fun passes => notContinue passes.1
  have total : min (attempts.toNat + 1) (2 ^ 32 - 1) = totalAttempts attempts := rfl
  have most : maxAttempts v.step.errorPolicy = totalAttempts attempts := by rw [policy]; rfl
  simp only [Step.Books, messages, policy, total]
  refine ⟨fun k text htext => ?_, fun passed => ?_, fun failed => ?_⟩
  · rw [getElem?_attemptTexts, Nat.add_comm 1 k] at htext
    obtain ⟨e, -, rfl⟩ := Option.map_eq_some_iff.1 htext
    exact ⟨e.message, rfl⟩
  · rw [length_attemptTexts, ← most]
    exact h.length_failures_lt notOver (Trial.not_fails notContinue flow passed)
  · rw [length_attemptTexts, ← most]
    exact h.length_failures (Trial.fails_of_none flow failed)

theorem Visit.Genuine.books_of_continue {v : Visit} (h : v.Genuine engine p data)
    (status : ExecutionStatus) (policy : v.step.errorPolicy = .continue) :
    v.step.Books p v.messages (v.last.output? v.step) status := by
  have tried := h.tried v.last (by simp [trials])
  have once := h.trials_eq (by rw [policy]; rfl)
  have failures : v.failures = v.last.failures := by rw [Visit.failures, once]; simp
  simp only [Step.Books, messages, policy, failures]
  split
  · next kind =>
    rcases tried.books_of_passesOver ⟨policy, kind⟩ with
      ⟨e, hfailures, outcome⟩ | ⟨entries, outcome, complete, texts⟩
    · refine .inl ⟨e.message, by rw [hfailures]; rfl, ?_⟩
      simp [Trial.output?, outcome, policy, passedOver]
    · refine .inr ⟨entries, ?_, complete, texts⟩
      simp [Trial.output?, outcome, kind]
  · next kind =>
    have notOver : ¬ v.step.PassesOver := fun passes => kind passes.2
    cases outcome : v.last.outcome with
    | ok output =>
      rw [tried.failures_of_ok notOver outcome]
      exact .inl rfl
    | error e =>
      rw [tried.failures_of_error outcome]
      refine .inr ⟨e.message, rfl, ?_⟩
      simp [Trial.output?, outcome, policy, passedOver]

/-- What a visit records is what the error policy of its step says. -/
theorem Visit.Genuine.books {v : Visit} (h : v.Genuine engine p data) {status : ExecutionStatus}
    (flow : v.flow = .proceed ∨ v.flow = .halt status) :
    v.step.Books p v.messages (v.last.output? v.step) status := by
  rcases policy : v.step.errorPolicy with _ | _ | attempts
  · exact h.books_of_stop flow policy
  · exact h.books_of_continue status policy
  · exact h.books_of_retry flow policy

/-! ## Runs -/

/-- The errors of each visit, and the one of the end if there is one. -/
def errorGroups (visits : List Visit) (ending : Ending) : List (List (Nat × String × String)) :=
  visits.map Visit.errors ++ ending.errors.map fun error => [error]

theorem flatten_errorGroups (visits : List Visit) (ending : Ending) :
    (errorGroups visits ending).flatten = visits.flatMap Visit.errors ++ ending.errors := by
  rw [errorGroups, List.flatten_append, List.flatMap_def]
  congr 1
  cases ending <;> rfl

theorem Course.numbered {index : Nat} {entries : List PlanEntry} {visits : List Visit}
    {ending : Ending} (h : Course engine p data index entries visits ending) :
    Numbered (·.1) index (errorGroups visits ending) := by
  have own (v : Visit) : ∀ error ∈ v.errors, error.1 = v.index := by
    intro error herror
    obtain ⟨text, _, rfl⟩ := List.mem_map.1 herror
    rfl
  induction h with
  | completed index => simp [errorGroups, Numbered, Ending.errors]
  | unresolved index rest step => simp [errorGroups, Numbered, Ending.errors]
  | @halted v _ _ rest step genuine flow =>
    exact ⟨own v, trivial⟩
  | @proceeded v _ _ _ _ step genuine flow later ih => exact ⟨own v, ih⟩

/-- What a run does at a position that it has come to: it visits its step, or ends there. -/
theorem Course.at_position {index k : Nat} {entries : List PlanEntry} {visits : List Visit}
    {ending : Ending} {entry : PlanEntry} (h : Course engine p data index entries visits ending)
    (visited : k < visits.length + ending.errors.length) (here : entries[k]? = some entry) :
    (∃ v, visits[k]? = some v ∧ entry.step = some v.step ∧ v.Genuine engine p data ∧
        (v.flow = .proceed ∨ v.flow = .halt ending.status) ∧
        ((visits.flatMap Visit.results)[k]?).map (·.2.2) = v.last.output? v.step) ∨
      (entry.step = none ∧ k = visits.length ∧ ending = .unresolved (index + k) entry.stepId) := by
  induction h generalizing k with
  | completed index => cases here
  | @unresolved index other rest step =>
    obtain rfl : k = 0 := by simpa [Ending.errors] using visited
    cases here
    exact .inr ⟨step, rfl, rfl⟩
  | @halted v other status rest step genuine flow =>
    obtain rfl : k = 0 := by simpa [Ending.errors] using visited
    cases here
    refine .inl ⟨v, rfl, step, genuine, .inr flow, ?_⟩
    simp [Visit.results, Trial.output?_of_halt flow]
  | @proceeded v other rest visits ending step genuine flow later ih =>
    obtain ⟨output, houtput⟩ := Trial.exists_output_of_proceed flow
    have results : v.results = [(v.step.id, v.step.name, output)] := by
      simp [Visit.results, houtput]
    cases k with
    | zero =>
      cases here
      refine .inl ⟨v, rfl, step, genuine, .inl flow, ?_⟩
      simp [results, houtput]
    | succ k =>
      have visited' : k < visits.length + ending.errors.length := by
        rw [List.length_cons] at visited
        omega
      rcases ih visited' here with ⟨w, hw, hstep, hgenuine, hflow, houtputs⟩ | ⟨hstep, rfl, rfl⟩
      · refine .inl ⟨w, hw, hstep, hgenuine, hflow, ?_⟩
        simpa [results] using houtputs
      · refine .inr ⟨hstep, rfl, ?_⟩
        rw [Nat.add_right_comm, Nat.add_assoc]

theorem messagesAt_eq {e : Execution} {groups : List (List (Nat × String × String))}
    (errors : e.errors.map ExecutionError.timeless = groups.flatten)
    (numbered : Numbered (·.1) 0 groups) (i : Nat) :
    e.messagesAt i = (groups[i]?.getD []).map (·.2.2) := by
  have group := numbered.filter_eq i
  rw [← errors, List.filter_map, Nat.zero_add] at group
  rw [← group, List.map_map]
  rfl

/-- At a position that is visited, the errors are those of the visit. -/
theorem messagesAt_of_visit {e : Execution} {visits : List Visit} {ending : Ending} {i : Nat}
    {v : Visit}
    (errors : e.errors.map ExecutionError.timeless = (errorGroups visits ending).flatten)
    (numbered : Numbered (·.1) 0 (errorGroups visits ending)) (hv : visits[i]? = some v) :
    e.messagesAt i = v.messages := by
  have inside : i < (visits.map Visit.errors).length := by
    rw [List.length_map]
    exact (List.getElem?_eq_some_iff.1 hv).1
  rw [messagesAt_eq errors numbered, errorGroups, List.getElem?_append_left inside,
    List.getElem?_map, hv]
  simp [Visit.errors, Function.comp_def]

/-- Where a run ends: the number of its results. -/
theorem Course.length_results {entries : List PlanEntry} {visits : List Visit} {ending : Ending}
    (h : Course engine p data 0 entries visits ending) (before : Nat) :
    (ending.status = .completed → (visits.flatMap Visit.results).length = entries.length) ∧
      (ending.status ≠ .completed →
        (visits.flatMap Visit.results).length = restingIndex before 0 entries visits ending) := by
  rcases h.split with ⟨rfl, passes⟩ | ⟨first, entry, after, passed, last, rfl, rfl, passes, halts⟩
  · exact ⟨fun _ => passes.length_results, fun other => absurd rfl other⟩
  · have results : ((passed ++ last).flatMap Visit.results).length = first.length := by
      rw [List.flatMap_append, halts.results_eq, List.append_nil, passes.length_results]
    constructor
    · intro completed
      rcases halts.status with status | status <;> rw [status] at completed <;> cases completed
    · intro _
      rw [results, halts.restingIndex_eq passes before after]

/-- An execution that runs and has nothing recorded has all of it booked after a run. -/
theorem booked_of_mayRun {e e' : Execution} {calls : List Served} (running : e.status = .running)
    (noResults : e.results = []) (noErrors : e.errors = []) (h : engine.MayRun p e calls e') :
    Booked p e' := by
  obtain ⟨visits, ending, course, _, writes, resting⟩ := course_of_mayRun running h
  -- All that is said of the errors follows from how they fall into groups, one for each position.
  have numbered := course.numbered
  have errors : e'.errors.map ExecutionError.timeless = (errorGroups visits ending).flatten := by
    rw [writes.errors, noErrors, flatten_errorGroups]
    simp
  have results : e'.results.map StepResult.timeless = visits.flatMap Visit.results := by
    rw [writes.results, noResults]
    simp
  have come_to : ∀ i entry, i ≤ e'.currentStepIndex → p.entries[i]? = some entry →
      i < visits.length + ending.errors.length := by
    intro i entry hi here
    have nonempty : p.entries ≠ [] := fun nothing => by simp [nothing] at here
    rwa [resting, course.le_restingIndex_iff e.currentStepIndex nonempty] at hi
  have count : e'.results.length = (visits.flatMap Visit.results).length := by
    rw [← results, List.length_map]
  obtain ⟨all, some_of_them⟩ := course.length_results e.currentStepIndex
  rw [← writes.status] at all some_of_them
  refine ⟨fun completed => ?_, fun halted => ?_, ?_, ?_, ?_, ?_⟩
  · rw [count, all completed]
  · rw [count, some_of_them halted, resting]
  · have := numbered.pairwise
    rwa [← errors, List.pairwise_map] at this
  · intro error herror
    have member : error.timeless ∈ (errorGroups visits ending).flatten := by
      rw [← errors]
      exact List.mem_map_of_mem herror
    have nonempty : p.entries ≠ [] := by
      intro nothing
      rw [nothing] at course
      obtain ⟨rfl, rfl⟩ := course.of_nil
      cases member
    rw [resting, course.le_restingIndex_iff e.currentStepIndex nonempty]
    simpa [errorGroups, ExecutionError.timeless] using (numbered.le_of_mem member).2
  · intro i entry hi here step
    rcases course.at_position (come_to i entry hi here) here with
      ⟨v, _, hstep, _⟩ | ⟨_, rfl, rfl⟩
    · rw [step] at hstep
      cases hstep
    · rw [messagesAt_eq errors numbered]
      simp [errorGroups, Ending.errors]
  · intro i entry s hi here step
    rcases course.at_position (come_to i entry hi here) here with
      ⟨v, hv, hstep, genuine, flow, output⟩ | ⟨hstep, _, _⟩
    · have messages := messagesAt_of_visit errors numbered hv
      have outputs : e'.outputAt? i = v.last.output? v.step := by
        rw [← output, ← results, List.getElem?_map, Option.map_map]
        rfl
      cases step.symm.trans hstep
      rw [messages, outputs, writes.status]
      exact genuine.books flow
    · rw [step] at hstep
      cases hstep

/-- Every run of every plan books its errors and outputs as the error policies say: whatever is
answered to it, and on every machine. -/
theorem booked_of_run (engine : Engine σ) (p : Plan) (w : Workflow) (data : Json)
    (createdBy : String) (supply : Supply) :
    let e := (Execution.begin w data createdBy supply).1
    (∀ calls e', engine.MayRun p e calls e' → Booked p e') ∧
      ∀ m, Booked p (Machine.await engine (engine.run p e) m).1 := by
  intro e
  have booked : ∀ calls e', engine.MayRun p e calls e' → Booked p e' :=
    fun _ _ h => booked_of_mayRun rfl rfl rfl h
  exact ⟨booked, fun m => booked _ _ (mayRun_await engine p e m)⟩

end Engine

end EventFlow
