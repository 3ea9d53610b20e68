import EventFlow.Record.Execution

/-!
# Executions only move forward

The record of an execution is changed by calls that add a result, add an error or move it to a
status (`Execution.Change`). One call takes a record `Onward`, and so do many (`Onward.replay`):
what was recorded stays, and what is finished stays as it ended. How a record ends is told by the
first call that asks for a terminal status, whatever comes before and after it (`ended_replay`). The
calls are `Execution.pushResult`, `Execution.pushError` and `Execution.finish`, in
`EventFlow.Record.Execution`.
-/

set_option autoImplicit false

namespace EventFlow.Execution

/-- A call on a record, with the time that the clock tells then. -/
inductive Change where
  | result (stepId stepName : String) (output : Json) (time : Instant)
  | error (index : Nat) (stepId message : String) (time : Instant)
  | finish (status : ExecutionStatus) (time : Instant)

namespace Change

/-- The record after a call. -/
def apply : Change → Execution → Execution
  | result stepId stepName output time, e => e.pushResult stepId stepName output time
  | error index stepId message time, e => e.pushError index stepId message time
  | finish status time, e => e.finish status time

/-- What a call returns: whether it moved the record, if it was to do so. -/
def returned? : Change → Execution → Option Bool
  | finish status _, e => some (e.canFinish status)
  | _, _ => none

/-- The result that a call adds. -/
def result? : Change → Option StepResult
  | result stepId stepName output time => some ⟨stepId, stepName, output, time⟩
  | _ => none

/-- The error that a call adds. -/
def error? : Change → Option ExecutionError
  | error index stepId message time => some ⟨index, stepId, message, time⟩
  | _ => none

/-- The end that a call asks for: a terminal status, and the time. -/
def ending? : Change → Option (ExecutionStatus × Instant)
  | finish status time => if status.isTerminal then some (status, time) else none
  | _ => none

end Change

/-- The record after calls, one after the other. -/
def replay (changes : List Change) (e : Execution) : Execution :=
  changes.foldl (fun e c => c.apply e) e

/-- `Onward e e'`: a record may have been `e` before it is `e'`. -/
structure Onward (e e' : Execution) : Prop where
  id : e'.id = e.id
  workflowId : e'.workflowId = e.workflowId
  workflowName : e'.workflowName = e.workflowName
  data : e'.data = e.data
  startedAt : e'.startedAt = e.startedAt
  createdBy : e'.createdBy = e.createdBy
  results : e.results <+: e'.results
  errors : e.errors <+: e'.errors
  ended : e.status.isTerminal = true → e'.status = e.status ∧ e'.completedAt = e.completedAt

variable {e e' e'' : Execution} {c : Change} {status : ExecutionStatus} {time : Instant}

/-! ## What calls leave as it is -/

theorem Onward.refl (e : Execution) : Onward e e :=
  ⟨rfl, rfl, rfl, rfl, rfl, rfl, List.prefix_rfl, List.prefix_rfl, fun _ => ⟨rfl, rfl⟩⟩

theorem Onward.trans (h : Onward e e') (h' : Onward e' e'') : Onward e e'' where
  id := h'.id.trans h.id
  workflowId := h'.workflowId.trans h.workflowId
  workflowName := h'.workflowName.trans h.workflowName
  data := h'.data.trans h.data
  startedAt := h'.startedAt.trans h.startedAt
  createdBy := h'.createdBy.trans h.createdBy
  results := h.results.trans h'.results
  errors := h.errors.trans h'.errors
  ended past := by
    obtain ⟨status, completedAt⟩ := h.ended past
    obtain ⟨status', completedAt'⟩ := h'.ended (status ▸ past)
    exact ⟨status'.trans status, completedAt'.trans completedAt⟩

theorem canFinish_iff :
    e.canFinish status = true ↔ e.status.isTerminal = false ∧ status.isTerminal = true := by
  simp [canFinish]

/-- One call takes a record onward. -/
theorem Onward.apply (c : Change) (e : Execution) : Onward e (c.apply e) := by
  cases c with
  | result stepId stepName output time =>
    exact ⟨rfl, rfl, rfl, rfl, rfl, rfl, List.prefix_append _ _, List.prefix_rfl,
      fun _ => ⟨rfl, rfl⟩⟩
  | error index stepId message time =>
    exact ⟨rfl, rfl, rfl, rfl, rfl, rfl, List.prefix_rfl, List.prefix_append _ _,
      fun _ => ⟨rfl, rfl⟩⟩
  | finish status time =>
    cases can : e.canFinish status with
    | false =>
      rw [Change.apply, finish_of_not_canFinish time can]
      exact Onward.refl e
    | true =>
      rw [Change.apply, finish_of_canFinish time can]
      refine ⟨rfl, rfl, rfl, rfl, rfl, rfl, List.prefix_rfl, List.prefix_rfl, fun past => ?_⟩
      have running := (canFinish_iff.1 can).1
      rw [past] at running
      cases running

theorem Onward.replay (changes : List Change) (e : Execution) : Onward e (e.replay changes) := by
  induction changes generalizing e with
  | nil => exact Onward.refl e
  | cons c rest ih => exact (Onward.apply c e).trans (ih (c.apply e))

/-! ## What calls add -/

theorem results_apply (c : Change) (e : Execution) :
    (c.apply e).results = e.results ++ c.result?.toList := by
  cases c with
  | result stepId stepName output time => rfl
  | error index stepId message time => exact (List.append_nil _).symm
  | finish status time =>
    simp only [Change.apply, finish, Change.result?, Option.toList_none, List.append_nil]
    split <;> rfl

theorem errors_apply (c : Change) (e : Execution) :
    (c.apply e).errors = e.errors ++ c.error?.toList := by
  cases c with
  | result stepId stepName output time => exact (List.append_nil _).symm
  | error index stepId message time => rfl
  | finish status time =>
    simp only [Change.apply, finish, Change.error?, Option.toList_none, List.append_nil]
    split <;> rfl

/-- A list to which each call only adds at the end holds what was added, in that order. -/
theorem append_filterMap_of_replay {α : Type} {list : Execution → List α}
    {added? : Change → Option α}
    (step : ∀ (c : Change) (e : Execution), list (c.apply e) = list e ++ (added? c).toList)
    (changes : List Change) (e : Execution) :
    list (e.replay changes) = list e ++ changes.filterMap added? := by
  induction changes generalizing e with
  | nil => exact (List.append_nil _).symm
  | cons c rest ih =>
    have after := ih (c.apply e)
    rw [step, List.append_assoc] at after
    rw [List.filterMap_cons]
    cases added : added? c <;> simpa [added, replay] using after

/-! ## How a record ends -/

theorem Change.isTerminal_of_ending? (h : c.ending? = some (status, time)) :
    status.isTerminal = true := by
  cases c with
  | result stepId stepName output time => cases h
  | error index stepId message time => cases h
  | finish asked time =>
    simp only [ending?] at h
    split at h
    · next terminal =>
      cases h
      exact terminal
    · cases h

theorem apply_of_ending?_eq_none (h : c.ending? = none) (e : Execution) :
    (c.apply e).status = e.status ∧ (c.apply e).completedAt = e.completedAt := by
  cases c with
  | result stepId stepName output time => exact ⟨rfl, rfl⟩
  | error index stepId message time => exact ⟨rfl, rfl⟩
  | finish asked time =>
    have refused : e.canFinish asked = false := by
      simp only [Change.ending?] at h
      split at h
      · cases h
      · next running => simp [canFinish, running]
    rw [Change.apply, finish_of_not_canFinish time refused]
    exact ⟨rfl, rfl⟩

theorem apply_of_ending? (h : c.ending? = some (status, time)) (running : e.status = .running) :
    (c.apply e).status = status ∧ (c.apply e).completedAt = some time := by
  have terminal := Change.isTerminal_of_ending? h
  cases c with
  | result stepId stepName output time => cases h
  | error index stepId message time => cases h
  | finish asked time =>
    simp only [Change.ending?] at h
    split at h
    · cases h
      have can : e.canFinish status = true := canFinish_iff.2 ⟨by rw [running]; rfl, terminal⟩
      rw [Change.apply, finish_of_canFinish _ can]
      exact ⟨rfl, rfl⟩
    · cases h

/-- The first call that asks for a terminal status decides. -/
theorem ended_replay (changes : List Change) (running : e.status = .running)
    (unset : e.completedAt = none) :
    (e.replay changes).status = ((changes.findSome? Change.ending?).map (·.1)).getD .running ∧
      (e.replay changes).completedAt = (changes.findSome? Change.ending?).map (·.2) := by
  induction changes generalizing e with
  | nil => exact ⟨running, unset⟩
  | cons c rest ih =>
    rw [List.findSome?_cons]
    cases asked : c.ending? with
    | none =>
      obtain ⟨status, completedAt⟩ := apply_of_ending?_eq_none asked e
      exact ih (status.trans running) (completedAt.trans unset)
    | some ending =>
      obtain ⟨status, time⟩ := ending
      obtain ⟨hstatus, hcompletedAt⟩ := apply_of_ending? asked running
      have past : (c.apply e).status.isTerminal = true :=
        hstatus ▸ Change.isTerminal_of_ending? asked
      obtain ⟨hstatus', hcompletedAt'⟩ := (Onward.replay rest (c.apply e)).ended past
      exact ⟨hstatus'.trans hstatus, hcompletedAt'.trans hcompletedAt⟩

/-- From its begin on, a record only moves forward, whatever is called. It is running until the
first call that asks for a terminal status; no other call returns that it moved the record. It has a
time of completion exactly if it is not running. Its results and errors are those that were added,
in their order, and nothing that it was before is taken back. -/
theorem moves_forward (w : Workflow) (data : Json) (createdBy : String) (supply : Supply)
    (changes : List Change) :
    let begun := (Execution.begin w data createdBy supply).1
    let e := begun.replay changes
    let ending := changes.findSome? Change.ending?
    e.completedAt.isSome = e.status.isTerminal ∧
      e.status = (ending.map (·.1)).getD .running ∧ e.completedAt = ending.map (·.2) ∧
      (∀ c : Change, c.returned? e = some true ↔ c.ending?.isSome = true ∧ ending = none) ∧
      e.results = changes.filterMap Change.result? ∧ e.errors = changes.filterMap Change.error? ∧
      Onward begun e ∧ ∀ later, Onward e (e.replay later) := by
  intro begun e ending
  obtain ⟨hstatus, hcompletedAt⟩ : e.status = (ending.map (·.1)).getD .running ∧
      e.completedAt = ending.map (·.2) := ended_replay changes rfl rfl
  have terminal : e.status.isTerminal = ending.isSome := by
    rw [hstatus]
    cases asked : ending with
    | none => rfl
    | some told =>
      obtain ⟨c, -, hc⟩ := List.exists_of_findSome?_eq_some asked
      exact Change.isTerminal_of_ending? hc
  refine ⟨?_, hstatus, hcompletedAt, ?_, ?_, ?_, Onward.replay changes begun,
    fun later => Onward.replay later e⟩
  · rw [terminal, hcompletedAt, Option.isSome_map]
  · intro c
    cases c with
    | result stepId stepName output time => simp [Change.returned?, Change.ending?]
    | error index stepId message time => simp [Change.returned?, Change.ending?]
    | finish status time =>
      rw [Change.returned?, Option.some.injEq, canFinish_iff, terminal]
      cases asked : status.isTerminal <;> simp [Change.ending?, asked]
  · exact append_filterMap_of_replay results_apply changes begun
  · exact append_filterMap_of_replay errors_apply changes begun

end EventFlow.Execution
