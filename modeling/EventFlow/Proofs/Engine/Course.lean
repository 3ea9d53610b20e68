import EventFlow.Proofs.Engine.Adequacy
import EventFlow.Proofs.Engine.History

/-!
# The course of a run

A run passes over the first positions of its plan, one visit each, and then either has been at all
of them or halts at the next (`Course.split`). What a visit records when it goes on and when it
halts is read off its last attempt. `MayRun` says what runs of a plan can come to, and machines do
nothing else (`mayRun_await`). The run is `Engine.runFrom`, in `EventFlow.Engine.Run`.
-/

set_option autoImplicit false

namespace EventFlow.Engine

open Program

variable {σ : Type} {engine : Engine σ} {p : Plan} {data : Json}

/-! ## What an attempt comes to -/

/-- An attempt at a condition step finds out whether all its conditions hold. -/
theorem Tried.outcome_of_condition {s : Step} {t : Trial} (h : Tried engine p data s t)
    (kind : s.kind = .condition) :
    t.outcome = (engine.holdAll p data s.conditionIds).map .bool := by
  cases h with
  | @whole effects r _ performs =>
    obtain ⟨_, rfl⟩ := (attempted_of_performs performs).of_condition kind
    cases engine.holdAll p data s.conditionIds <;> rfl
  | each passes _ => simp [Step.PassesOver, kind] at passes
  | eachFails passes _ => simp [Step.PassesOver, kind] at passes

/-- The failure of an attempt that fails as a whole is recorded, and no other. -/
theorem Tried.failures_of_error {s : Step} {t : Trial} {e : StepError} (h : Tried engine p data s t)
    (outcome : t.outcome = .error e) :
    t.failures = [e] := by
  cases h with
  | @whole effects r _ _ => cases r <;> cases outcome; rfl
  | each _ _ => cases outcome
  | eachFails _ _ => cases outcome; rfl

/-- Unless failing actions are passed over, an attempt that has an output records no failure. -/
theorem Tried.failures_of_ok {s : Step} {t : Trial} {output : Json} (h : Tried engine p data s t)
    (notOver : ¬ s.PassesOver) (outcome : t.outcome = .ok output) : t.failures = [] := by
  cases h with
  | @whole effects r _ _ => cases r <;> cases outcome; rfl
  | each passes _ => exact absurd passes notOver
  | eachFails passes _ => exact absurd passes notOver

namespace Trial

theorem of_flow_stopped {s : Step} {t : Trial} (h : t.flow s = .halt .stopped) :
    s.kind = .condition ∧ t.outcome = .ok (.bool false) := by
  unfold flow at h
  split at h
  · next output outcome =>
    split at h
    · next closed => exact ⟨closed.1, by rw [outcome, closed.2]⟩
    · cases h
  · split at h <;> cases h

theorem of_flow_failed {s : Step} {t : Trial} (h : t.flow s = .halt .failed) :
    t.Fails ∧ s.errorPolicy ≠ .continue := by
  unfold flow at h
  split at h
  · split at h <;> cases h
  · next e outcome =>
    split at h
    · cases h
    · next policy => exact ⟨⟨e, outcome⟩, policy⟩

theorem flow_eq_stopped_or_failed {s : Step} {t : Trial} {status : ExecutionStatus}
    (h : t.flow s = .halt status) : status = .stopped ∨ status = .failed := by
  unfold flow at h
  split at h <;> split at h <;> cases h <;> simp

theorem exists_output_of_proceed {s : Step} {t : Trial} (h : t.flow s = .proceed) :
    ∃ output, t.output? s = some output := by
  unfold flow at h
  unfold output?
  split at h <;> split at h <;> simp_all

theorem output?_of_halt {s : Step} {t : Trial} {status : ExecutionStatus}
    (h : t.flow s = .halt status) : t.output? s = none := by
  unfold flow at h
  unfold output?
  split at h <;> split at h <;> simp_all

end Trial

theorem length_attemptTexts (total number : Nat) (failures : List StepError) :
    (attemptTexts total number failures).length = failures.length := by
  induction failures generalizing number with
  | nil => rfl
  | cons e rest ih => rw [attemptTexts, List.length_cons, List.length_cons, ih]

/-! ## Positions that a run passes over, and where it halts -/

/-- `Passes engine p data index entries visits`: a run passes over positions from an index on, with
one visit at each. -/
inductive Passes (engine : Engine σ) (p : Plan) (data : Json) :
    Nat → List PlanEntry → List Visit → Prop
  | nil (index : Nat) : Passes engine p data index [] []
  | cons {v : Visit} {entry : PlanEntry} {rest : List PlanEntry} {visits : List Visit}
      (step : entry.step = some v.step) (genuine : v.Genuine engine p data)
      (flow : v.flow = .proceed) (later : Passes engine p data (v.index + 1) rest visits) :
      Passes engine p data v.index (entry :: rest) (v :: visits)

/-- `Halts engine p data index entry visits ending`: a run halts at a position, with at most one
visit there. -/
inductive Halts (engine : Engine σ) (p : Plan) (data : Json) :
    Nat → PlanEntry → List Visit → Ending → Prop
  | unresolved (index : Nat) {entry : PlanEntry} (step : entry.step = none) :
      Halts engine p data index entry [] (.unresolved index entry.stepId)
  | halted {v : Visit} {entry : PlanEntry} {status : ExecutionStatus}
      (step : entry.step = some v.step) (genuine : v.Genuine engine p data)
      (flow : v.flow = .halt status) : Halts engine p data v.index entry [v] (.halted status)

/-- A run passes over all its positions, or it passes over the first and halts at the next. -/
theorem Course.split {index : Nat} {entries : List PlanEntry} {visits : List Visit}
    {ending : Ending} (h : Course engine p data index entries visits ending) :
    (ending = .completed ∧ Passes engine p data index entries visits) ∨
      ∃ before entry after passed last, entries = before ++ entry :: after ∧
        visits = passed ++ last ∧ Passes engine p data index before passed ∧
        Halts engine p data (index + before.length) entry last ending := by
  induction h with
  | completed index => exact .inl ⟨rfl, .nil index⟩
  | @unresolved index entry rest step =>
    exact .inr ⟨[], entry, rest, [], [], rfl, rfl, .nil index, .unresolved index step⟩
  | @halted v entry status rest step genuine flow =>
    exact .inr ⟨[], entry, rest, [], [v], rfl, rfl, .nil v.index, .halted step genuine flow⟩
  | @proceeded v entry rest visits ending step genuine flow later ih =>
    rcases ih with ⟨ended, passes⟩ | ⟨before, other, after, passed, last, rfl, rfl, passes, halts⟩
    · exact .inl ⟨ended, .cons step genuine flow passes⟩
    · refine .inr ⟨entry :: before, other, after, v :: passed, last, rfl, rfl,
        .cons step genuine flow passes, ?_⟩
      have : v.index + (entry :: before).length = v.index + 1 + before.length := by
        rw [List.length_cons]
        omega
      rwa [this]

theorem Passes.length_eq {index : Nat} {entries : List PlanEntry} {visits : List Visit}
    (h : Passes engine p data index entries visits) : visits.length = entries.length := by
  induction h with
  | nil index => rfl
  | cons step genuine flow later ih => rw [List.length_cons, List.length_cons, ih]

/-- Each position that a run passes over has a result. -/
theorem Passes.length_results {index : Nat} {entries : List PlanEntry} {visits : List Visit}
    (h : Passes engine p data index entries visits) :
    (visits.flatMap Visit.results).length = entries.length := by
  induction h with
  | nil index => rfl
  | @cons v entry rest visits step genuine flow later ih =>
    obtain ⟨output, houtput⟩ := Trial.exists_output_of_proceed flow
    have own : v.results.length = 1 := by simp [Visit.results, houtput]
    rw [List.flatMap_cons, List.length_append, own, ih, List.length_cons, Nat.add_comm]

/-- At the position that a run halts at there is no result. -/
theorem Halts.results_eq {index : Nat} {entry : PlanEntry} {visits : List Visit} {ending : Ending}
    (h : Halts engine p data index entry visits ending) : visits.flatMap Visit.results = [] := by
  cases h with
  | unresolved _ _ => rfl
  | @halted v _ _ step genuine flow =>
    simp [Visit.results, Trial.output?_of_halt flow]

theorem Halts.status {index : Nat} {entry : PlanEntry} {visits : List Visit} {ending : Ending}
    (h : Halts engine p data index entry visits ending) :
    ending.status = .stopped ∨ ending.status = .failed := by
  cases h with
  | unresolved _ _ => exact .inr rfl
  | halted _ _ flow => exact Trial.flow_eq_stopped_or_failed flow

/-- Where a run halts, it makes a visit or records an error of its own. -/
theorem Halts.length_eq {index : Nat} {entry : PlanEntry} {visits : List Visit} {ending : Ending}
    (h : Halts engine p data index entry visits ending) :
    visits.length + ending.errors.length = 1 := by
  cases h with
  | unresolved _ _ => rfl
  | halted _ _ _ => rfl

/-- A run that halts comes to rest at the position that it halts at. -/
theorem Halts.restingIndex_eq {entries : List PlanEntry} {entry : PlanEntry}
    {visits last : List Visit} {ending : Ending}
    (h : Halts engine p data (0 + entries.length) entry last ending)
    (passes : Passes engine p data 0 entries visits) (before : Nat) (after : List PlanEntry) :
    restingIndex before 0 (entries ++ entry :: after) (visits ++ last) ending = entries.length := by
  have nonempty : entries ++ entry :: after ≠ [] := by simp
  have := h.length_eq
  have := passes.length_eq
  rw [restingIndex, if_neg nonempty, List.length_append]
  omega

/-- The visits of a run are at the first positions of its plan, one at each. -/
theorem Course.visited {index k : Nat} {entries : List PlanEntry} {visits : List Visit}
    {ending : Ending} {v : Visit} (h : Course engine p data index entries visits ending)
    (hv : visits[k]? = some v) :
    ∃ entry, entries[k]? = some entry ∧ entry.step = some v.step ∧ v.Genuine engine p data := by
  induction h generalizing k with
  | completed index => cases hv
  | unresolved index rest step => cases hv
  | @halted w entry status rest step genuine flow =>
    cases k with
    | zero =>
      cases hv
      exact ⟨entry, rfl, step, genuine⟩
    | succ k => cases hv
  | @proceeded w entry rest visits ending step genuine flow later ih =>
    cases k with
    | zero =>
      cases hv
      exact ⟨entry, rfl, step, genuine⟩
    | succ k => exact ih hv

/-- The positions that a run has come to are those it has visited, and the one it has ended at if
its step is missing. -/
theorem Course.restingIndex_succ {index : Nat} {entries : List PlanEntry} {visits : List Visit}
    {ending : Ending} (h : Course engine p data index entries visits ending) (before : Nat)
    (nonempty : entries ≠ []) :
    restingIndex before index entries visits ending + 1 =
      index + visits.length + ending.errors.length := by
  have some_visited : 0 < visits.length + ending.errors.length := by
    cases h with
    | completed _ => exact absurd rfl nonempty
    | unresolved _ _ _ => exact Nat.one_pos
    | halted _ _ _ _ => exact Nat.one_pos
    | proceeded _ _ _ _ =>
      rw [List.length_cons]
      omega
  rw [restingIndex, if_neg nonempty]
  omega

theorem Course.le_restingIndex_iff {k : Nat} {entries : List PlanEntry} {visits : List Visit}
    {ending : Ending} (h : Course engine p data 0 entries visits ending) (before : Nat)
    (nonempty : entries ≠ []) :
    k ≤ restingIndex before 0 entries visits ending ↔ k < visits.length + ending.errors.length := by
  have := h.restingIndex_succ before nonempty
  omega

/-! ## Runs -/

/-- `engine.MayRun p e calls e'`: a run of a plan for an execution may call these handlers and leave
the execution like this. -/
def MayRun (engine : Engine σ) (p : Plan) (e : Execution) (calls : List Served)
    (e' : Execution) : Prop :=
  ∃ effects, Performs engine.handlers.contains (engine.run p e) effects e' ∧
    Effect.calls effects = calls

/-- A run on a machine is one that the plan may have. -/
theorem mayRun_await (engine : Engine σ) (p : Plan) (e : Execution) (m : Machine σ) :
    engine.MayRun p e (Machine.calls engine (engine.run p e) m)
      (Machine.await engine (engine.run p e) m).1 :=
  performs_of_await engine (engine.run p e) m

theorem course_of_mayRun {e e' : Execution} {calls : List Served} (running : e.status = .running)
    (h : engine.MayRun p e calls e') :
    ∃ visits ending, Course engine p e.data 0 p.entries visits ending ∧
      calls = visits.flatMap Visit.calls ∧ Writes e visits ending e' ∧
      e'.currentStepIndex = restingIndex e.currentStepIndex 0 p.entries visits ending := by
  obtain ⟨effects, performs, rfl⟩ := h
  exact course_of_run running performs

/-- An engine without handlers and predicates. -/
def bare : Engine Unit := ⟨[], fun _ => none, .default, .apart⟩

/-- A machine with an empty store, on which nothing is under way. -/
def idle : Machine Unit := ⟨0, default, ⟨.empty, none⟩, (), [], []⟩

end EventFlow.Engine
