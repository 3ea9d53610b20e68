import EventFlow.Proofs.Engine.Course
import EventFlow.Proofs.Store.Tables

/-!
# What a run leaves in its execution

A run ends in a terminal status, and its results are one for each position of a front part of the
workflow's step list: all of it when the run is completed, and the positions before the one it has
halted at otherwise. `Accounted` says so, together with what a stopped and a failed run have halted
at, and holds of every run of a plan that is taken from keyed collections (`accounted_of_run`). The
run is `Engine.run`, in `EventFlow.Engine.Run`.
-/

set_option autoImplicit false

namespace EventFlow

/-- Where the positions of a plan are resolved, they are resolved to steps of their identifiers. -/
def Plan.Keyed (p : Plan) : Prop :=
  ∀ entry ∈ p.entries, ∀ s, entry.step = some s → s.id = entry.stepId

theorem Plan.keyed_ofCollections {c : Collections} (keyed : c.Keyed) (w : Workflow) :
    (ofCollections c w).Keyed := by
  intro entry hentry s hs
  obtain ⟨id, _, rfl⟩ := List.mem_map.1 hentry
  exact keyed.steps _ (Assoc.mem_of_find? hs)

theorem Plan.stepIds_ofCollections (c : Collections) (w : Workflow) :
    (ofCollections c w).entries.map PlanEntry.stepId = w.stepIds := by
  simp [ofCollections, Function.comp_def]

namespace Engine

variable {σ : Type}

/-- `Accounted engine p e`: the execution has come to its end, and its status, its index, its
results and its errors agree. -/
structure Accounted (engine : Engine σ) (p : Plan) (e : Execution) : Prop where
  terminal : e.status.isTerminal = true
  completed : e.status = .completed → e.results.map StepResult.stepId = p.workflow.stepIds
  /-- Otherwise the run has halted at its index, and has a result for each position before it. -/
  halted : e.status ≠ .completed → e.currentStepIndex < p.workflow.stepIds.length ∧
    e.results.map StepResult.stepId = p.workflow.stepIds.take e.currentStepIndex
  /-- A run is only stopped at a condition step that does not hold. -/
  stopped : e.status = .stopped → ∃ entry s, p.entries[e.currentStepIndex]? = some entry ∧
    entry.step = some s ∧ s.kind = .condition ∧
    engine.holdAll p e.data s.conditionIds = .ok false
  /-- A run only fails at a step that is missing, or whose failures are not passed over. -/
  failed : e.status = .failed → ∃ entry, p.entries[e.currentStepIndex]? = some entry ∧
    (∀ s, entry.step = some s → s.errorPolicy = .stop ∨ ∃ n, s.errorPolicy = .retry n) ∧
    ∃ earlier error, e.errors = earlier ++ [error] ∧ error.stepIndex = e.currentStepIndex ∧
      error.stepId = entry.stepId

variable {engine : Engine σ} {p : Plan} {data : Json}

/-- Each position that a run passes over has one result. -/
theorem Passes.results_eq {index : Nat} {entries : List PlanEntry} {visits : List Visit}
    (keyed : ∀ entry ∈ entries, ∀ s, entry.step = some s → s.id = entry.stepId)
    (h : Passes engine p data index entries visits) :
    (visits.flatMap Visit.results).map (·.1) = entries.map PlanEntry.stepId := by
  induction h with
  | nil index => rfl
  | @cons v entry rest visits step genuine flow later ih =>
    obtain ⟨output, houtput⟩ := Trial.exists_output_of_proceed flow
    have own := keyed entry List.mem_cons_self v.step step
    have others := ih fun other hother => keyed other (List.mem_cons_of_mem entry hother)
    rw [List.flatMap_cons, List.map_append, others, List.map_cons]
    simp [Visit.results, houtput, own]

theorem Visit.length_messages (v : Visit) : v.messages.length = v.failures.length := by
  unfold Visit.messages
  split
  · exact length_attemptTexts _ _ _
  · exact List.length_map _

/-- A visit that fails records errors, and all of them with its index and its step. -/
theorem Visit.Genuine.exists_error {v : Visit} (h : v.Genuine engine p data)
    (fails : v.last.Fails) :
    ∃ earlier text, v.errors = earlier ++ [(v.index, v.step.id, text)] := by
  obtain ⟨e, outcome⟩ := fails
  have last := (h.tried v.last (by simp [trials])).failures_of_error outcome
  have some_text : v.messages ≠ [] := by
    rw [← List.length_pos_iff, length_messages]
    simp [failures, trials, last]
  have texts := List.dropLast_concat_getLast some_text
  refine ⟨v.messages.dropLast.map fun text => (v.index, v.step.id, text),
    v.messages.getLast some_text, ?_⟩
  have := congrArg (List.map fun text => (v.index, v.step.id, text)) texts
  rw [List.map_append] at this
  exact this.symm

theorem Halts.of_stopped {index : Nat} {entry : PlanEntry} {visits : List Visit} {ending : Ending}
    (h : Halts engine p data index entry visits ending) (stopped : ending.status = .stopped) :
    ∃ s, entry.step = some s ∧ s.kind = .condition ∧
      engine.holdAll p data s.conditionIds = .ok false := by
  cases h with
  | unresolved _ _ => cases stopped
  | @halted v _ status step genuine flow =>
    cases stopped
    obtain ⟨kind, outcome⟩ := Trial.of_flow_stopped flow
    have holds := (genuine.tried v.last (by simp [Visit.trials])).outcome_of_condition kind
    rw [outcome] at holds
    refine ⟨v.step, step, kind, ?_⟩
    cases hall : engine.holdAll p data v.step.conditionIds <;> rw [hall] at holds <;> cases holds
    rfl

theorem Halts.of_failed {index : Nat} {entry : PlanEntry} {visits : List Visit} {ending : Ending}
    (keyed : ∀ s, entry.step = some s → s.id = entry.stepId)
    (h : Halts engine p data index entry visits ending) (failed : ending.status = .failed) :
    (∀ s, entry.step = some s → s.errorPolicy = .stop ∨ ∃ n, s.errorPolicy = .retry n) ∧
      ∃ earlier text, visits.flatMap Visit.errors ++ ending.errors =
        earlier ++ [(index, entry.stepId, text)] := by
  cases h with
  | unresolved _ step =>
    refine ⟨fun s hs => ?_, [], _, rfl⟩
    rw [step] at hs
    cases hs
  | @halted v _ status step genuine flow =>
    cases failed
    obtain ⟨fails, policy⟩ := Trial.of_flow_failed flow
    obtain ⟨earlier, text, herrors⟩ := genuine.exists_error fails
    refine ⟨fun s hs => ?_, earlier, text, ?_⟩
    · cases step.symm.trans hs
      cases hpolicy : v.step.errorPolicy <;> simp_all
    · rw [← keyed v.step step]
      simp [herrors, Ending.errors]

theorem exists_last_error {errors : List ExecutionError} {others : List (Nat × String × String)}
    {index : Nat} {stepId text : String}
    (h : errors.map ExecutionError.timeless = others ++ [(index, stepId, text)]) :
    ∃ earlier error, errors = earlier ++ [error] ∧ error.stepIndex = index ∧
      error.stepId = stepId := by
  obtain ⟨earlier, last, rfl, _, hlast⟩ := List.map_eq_append_iff.1 h
  obtain ⟨error, rfl, herror⟩ := List.map_eq_singleton_iff.1 hlast
  exact ⟨earlier, error, rfl, congrArg (·.1) herror, congrArg (·.2.1) herror⟩

theorem Accounted.of_completed {e : Execution} (status : e.status = .completed)
    (ids : e.results.map StepResult.stepId = p.workflow.stepIds) : Accounted engine p e := by
  constructor
  case terminal => rw [status]; rfl
  case completed => exact fun _ => ids
  case halted => exact fun other => absurd status other
  case stopped =>
    intro stopped
    rw [status] at stopped
    cases stopped
  case failed =>
    intro failed
    rw [status] at failed
    cases failed

/-- An execution that runs and has nothing recorded is accounted for after a run. -/
theorem accounted_of_mayRun {e e' : Execution} {calls : List Served} (keyed : p.Keyed)
    (stepIds : p.entries.map PlanEntry.stepId = p.workflow.stepIds) (running : e.status = .running)
    (noResults : e.results = []) (noErrors : e.errors = []) (h : engine.MayRun p e calls e') :
    Accounted engine p e' := by
  obtain ⟨visits, ending, course, _, writes, resting⟩ := course_of_mayRun running h
  have results := writes.results
  have errors := writes.errors
  rw [noResults] at results
  rw [noErrors] at errors
  have ids : e'.results.map StepResult.stepId = (visits.flatMap Visit.results).map (·.1) := by
    have := congrArg (List.map (·.1)) results
    simpa [StepResult.timeless, Function.comp_def] using this
  -- Either every position is passed, or the run halts at the one whose index it comes to rest at.
  rcases course.split with ⟨rfl, passes⟩ |
    ⟨before, entry, after, passed, last, hentries, rfl, passes, halts⟩
  · have status : e'.status = .completed := writes.status
    rw [passes.results_eq keyed, stepIds] at ids
    exact .of_completed status ids
  · have at_entry : e'.currentStepIndex = before.length := by
      rw [resting, hentries]
      exact halts.restingIndex_eq passes e.currentStepIndex after
    have here : p.entries[e'.currentStepIndex]? = some entry := by
      rw [at_entry, hentries]
      simp
    have keyed_before : ∀ other ∈ before, ∀ s, other.step = some s → s.id = other.stepId :=
      fun other hother => keyed other (by simp [hentries, hother])
    have keyed_entry := keyed entry (by simp [hentries])
    rw [List.flatMap_append, halts.results_eq, List.append_nil, passes.results_eq keyed_before]
      at ids
    have status := writes.status
    refine ⟨?_, ?_, ?_, ?_, ?_⟩
    · rw [status]
      rcases halts.status with h | h <;> rw [h] <;> rfl
    · intro h
      rw [status] at h
      rcases halts.status with h' | h' <;> rw [h'] at h <;> cases h
    · intro _
      rw [ids, at_entry, ← stepIds, hentries]
      simp
    · intro h
      obtain ⟨s, hs, kind, holds⟩ := halts.of_stopped (status ▸ h)
      exact ⟨entry, s, here, hs, kind, by rw [writes.data]; exact holds⟩
    · intro h
      obtain ⟨policy, earlier, text, herrors⟩ := halts.of_failed keyed_entry (status ▸ h)
      have last_error : e'.errors.map ExecutionError.timeless =
          (passed.flatMap Visit.errors ++ earlier) ++ [(before.length, entry.stepId, text)] := by
        rw [errors, List.flatMap_append, List.map_nil, List.nil_append, List.append_assoc, herrors,
          Nat.zero_add, List.append_assoc]
      rw [at_entry] at here ⊢
      exact ⟨entry, here, policy, exists_last_error last_error⟩

/-- Every run of a plan that is taken from keyed collections leaves its execution accounted for:
whatever is answered to it, and on every machine. -/
theorem accounted_of_run (engine : Engine σ) {c : Collections} (keyed : c.Keyed) (w : Workflow)
    (data : Json) (createdBy : String) (supply : Supply) :
    let p := Plan.ofCollections c w
    let e := (Execution.begin w data createdBy supply).1
    (∀ calls e', engine.MayRun p e calls e' → Accounted engine p e') ∧
      ∀ m, Accounted engine p (Machine.await engine (engine.run p e) m).1 := by
  intro p e
  have accounted : ∀ calls e', engine.MayRun p e calls e' → Accounted engine p e' :=
    fun _ _ h => accounted_of_mayRun (Plan.keyed_ofCollections keyed w)
      (Plan.stepIds_ofCollections c w) rfl rfl rfl h
  exact ⟨accounted, fun m => accounted _ _ (mayRun_await engine p e m)⟩

/-- Collections with one step, which sleeps for as long as the engine's settings say. -/
def oneStep : Collections :=
  ⟨[], [("pause", ⟨"pause", "nightly", "Pause", "", .wait, [], [], .stop, Step.defaultTimeoutMs, 0,
    .emptyObject, default, anonymous⟩)], [], [], []⟩

/-- A workflow that comes to the step twice, with a position between that leads nowhere. -/
def nightly : Workflow :=
  ⟨"nightly", "Nightly", "", .active, "night.fell", ["pause", "lost", "pause"], .emptyObject,
    default, default, anonymous⟩

theorem oneStep_keyed : oneStep.Keyed := by
  refine ⟨?_, ?_, ?_, ?_⟩ <;> simp [Table.Keyed, oneStep, Definition.id]

theorem accounted_of_run_nightly :
    oneStep.Keyed ∧ Accounted bare (.ofCollections oneStep nightly)
      (Machine.await bare (bare.run (.ofCollections oneStep nightly)
        (Execution.begin nightly .null anonymous default).1) idle).1 :=
  ⟨oneStep_keyed, (accounted_of_run bare oneStep_keyed nightly .null anonymous default).2 idle⟩

end Engine

end EventFlow
