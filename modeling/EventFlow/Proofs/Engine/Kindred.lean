import EventFlow.Engine.Run

/-!
# Runs that begin alike

Executions are alike if they differ in nothing but their identifiers and the times they bear
(`Execution.Alike`). Two programs are kindred if they make the same requests for the same answers,
whatever the clock tells each of them, and end with related results (`Program.Kindred`). The run of
a plan over an execution is kindred to its run over any other that is alike (`Engine.kindred_run`):
neither clock nor identifier decides what a run does. The run is `Engine.run`, in
`EventFlow.Engine.Run`.
-/

set_option autoImplicit false

namespace EventFlow

variable {σ α β γ δ : Type}

namespace Execution

/-- The execution without its identifier and the times it bears. -/
def undated (e : Execution) : Execution :=
  { e with
    id := .nil
    startedAt := default
    completedAt := e.completedAt.map fun _ => default
    results := e.results.map fun r => { r with timestamp := default }
    errors := e.errors.map fun x => { x with timestamp := default } }

/-- Two executions differ in nothing but their identifiers and the times they bear. -/
def Alike (e e' : Execution) : Prop := e.undated = e'.undated

variable {e e' : Execution}

/-- An execution is like itself. -/
theorem Alike.refl (e : Execution) : e.Alike e := rfl

/-- Executions that are alike end alike. -/
theorem Alike.status (h : e.Alike e') : e.status = e'.status := by
  have same : e.undated = e'.undated := h
  exact (congrArg Execution.status same :)

/-- Executions that are alike have the same data. -/
theorem Alike.data (h : e.Alike e') : e.data = e'.data := by
  have same : e.undated = e'.undated := h
  exact (congrArg Execution.data same :)

/-- One more result keeps executions alike, even if it is noted at two times. -/
theorem Alike.pushResult (h : e.Alike e') (stepId stepName : String) (output : Json)
    (time time' : Instant) :
    (e.pushResult stepId stepName output time).Alike
      (e'.pushResult stepId stepName output time') := by
  simp only [Alike, undated, Execution.pushResult, Execution.mk.injEq, List.map_append,
    List.map_cons, List.map_nil] at h ⊢
  simp [h]

/-- One more error keeps executions alike, even if it is noted at two times. -/
theorem Alike.pushError (h : e.Alike e') (index : Nat) (stepId message : String)
    (time time' : Instant) :
    (e.pushError index stepId message time).Alike (e'.pushError index stepId message time') := by
  simp only [Alike, undated, Execution.pushError, Execution.mk.injEq, List.map_append,
    List.map_cons, List.map_nil] at h ⊢
  simp [h]

theorem Alike.place (h : e.Alike e') (index : Nat) :
    Alike { e with currentStepIndex := index } { e' with currentStepIndex := index } := by
  simp only [Alike, undated, Execution.mk.injEq] at h ⊢
  simp [h]

/-- Running executions that end in one way stay alike, whenever they end. -/
theorem Alike.finish (h : e.Alike e') (running : e.status = .running) {status : ExecutionStatus}
    (ends : status ≠ .running) (time time' : Instant) :
    (e.finish status time).Alike (e'.finish status time') := by
  have may {e : Execution} (running : e.status = .running) : e.canFinish status = true := by
    cases status <;> simp_all [canFinish, ExecutionStatus.isTerminal]
  rw [finish_of_canFinish _ (may running),
    finish_of_canFinish _ (may (h.status.symm.trans running))]
  simp only [Alike, undated, Execution.mk.injEq] at h ⊢
  simp [h]

/-- Executions that begin at any times with any identifiers are alike. -/
theorem alike_begin (w : Workflow) (data : Json) (createdBy : String) (supply supply' : Supply) :
    (begin w data createdBy supply).1.Alike (begin w data createdBy supply').1 := by
  simp only [Alike, undated, begin, List.map_nil, Option.map_none]

/-- Two runs of one plan that are as far: their executions are alike and still running, each with
its own identifier. -/
structure Abreast (id id' : Uuid) (e e' : Execution) : Prop where
  alike : e.Alike e'
  own : e.id = id
  own' : e'.id = id'
  running : e.status = .running

/-- Two runs of one plan have ended alike. -/
structure EndAlike (id id' : Uuid) (e e' : Execution) : Prop where
  alike : e.Alike e'
  own : e.id = id
  own' : e'.id = id'
  terminal : e.status.isTerminal = true

end Execution

open Execution (Abreast EndAlike)

/-! ## Kindred programs -/

/-- Two programs make the same requests, each call within a limit, and go on alike whatever the
clock tells each of them and whatever both are answered. They ask for no collections and record
nothing, and end with results that are related. -/
inductive Program.Kindred (R : α → β → Prop) : Program α → Program β → Prop
  | done {a : α} {b : β} (h : R a b) : Kindred R (.done a) (.done b)
  | clock {next : Instant → Program α} {next' : Instant → Program β}
      (h : ∀ time time', Kindred R (next time) (next' time')) :
      Kindred R (.clock next) (.clock next')
  | sleep (ms : Nat) {next : Program α} {next' : Program β} (h : Kindred R next next') :
      Kindred R (.sleep ms next) (.sleep ms next')
  | call (limit : Nat) (order : CallOrder) (calls : List Invocation)
      {next : Option (List Reply) → Program α} {next' : Option (List Reply) → Program β}
      (h : ∀ answer, Kindred R (next answer) (next' answer)) :
      Kindred R (.call (some limit) order calls next) (.call (some limit) order calls next')

namespace Program

variable {R : α → β → Prop} {S : γ → δ → Prop}

/-- Programs that are done are kindred if their results are. -/
theorem kindred_pure {a : α} {b : β} (h : R a b) : Kindred R (pure a) (pure b) := .done h

/-- Kindred programs that go on in kindred ways are kindred. -/
theorem Kindred.bind {p : Program α} {q : Program β} {f : α → Program γ} {g : β → Program δ}
    (hp : Kindred R p q) (hf : ∀ a b, R a b → Kindred S (f a) (g b)) :
    Kindred S (p >>= f) (q >>= g) := by
  change Kindred S (p.bind f) (q.bind g)
  induction hp with
  | done h => exact hf _ _ h
  | clock _ ih => exact .clock fun time time' => ih time time'
  | sleep ms _ ih => exact .sleep ms ih
  | call limit order calls _ ih => exact .call limit order calls ih

/-- Two clocks may say different things, so nothing is known of what they say. -/
theorem kindred_now : Kindred (fun _ _ => True) now now :=
  .clock fun _ _ => .done trivial

theorem kindred_pause (ms : Nat) : Kindred (fun _ _ => True) (pause ms) (pause ms) :=
  .sleep ms (.done trivial)

/-- Calls are made alike, and answered alike within a time limit. -/
theorem kindred_invoke (limit : Nat) (order : CallOrder) (calls : List Invocation) :
    Kindred Eq (invoke (some limit) order calls) (invoke (some limit) order calls) :=
  .call limit order calls fun _ => .done rfl

end Program

/-! ## Attempts and runs -/

namespace Engine

open Program

variable (engine : Engine σ) (p : Plan) (s : Step) (place : Place) (data : Json)
  {id id' : Uuid} {e e' : Execution}

/-- A step makes the same calls in two runs of one plan. -/
theorem kindred_callAll (order : CallOrder) (actions : List Action) :
    Kindred Eq (callAll s order data actions) (callAll s order data actions) :=
  (kindred_invoke _ _ _).bind fun
    | some _, _, rfl => kindred_pure rfl
    | none, _, rfl => kindred_pure rfl

theorem kindred_runActions :
    Kindred Eq (engine.runActions p s data) (engine.runActions p s data) := by
  unfold runActions
  split
  · exact kindred_pure rfl
  · exact (kindred_callAll s data _ _).bind fun
      | .error _, _, rfl => kindred_pure rfl
      | .ok _, _, rfl => kindred_pure rfl

theorem kindred_wait : Kindred Eq (engine.wait s) (engine.wait s) := by
  unfold wait
  split
  · exact kindred_pure rfl
  · refine (kindred_pause _).bind fun _ _ _ => ?_
    split <;> exact kindred_pure rfl

theorem kindred_fanOut : Kindred Eq (engine.fanOut p s data) (engine.fanOut p s data) := by
  unfold fanOut
  split
  · exact kindred_pure rfl
  · exact (kindred_callAll s data _ _).bind fun
      | .error _, _, rfl => kindred_pure rfl
      | .ok _, _, rfl => kindred_pure rfl

/-- An attempt knows nothing of the execution, so it is its own kin. -/
theorem kindred_attempt : Kindred Eq (engine.attempt p s data) (engine.attempt p s data) := by
  unfold attempt interpret
  split
  · exact engine.kindred_fanOut p s data
  · split
    · exact engine.kindred_runActions p s data
    · exact kindred_pure rfl
    · exact engine.kindred_wait s
    · exact kindred_pure rfl

theorem kindred_fanOutAll : Kindred Eq (fanOutAll p s data) (fanOutAll p s data) := by
  unfold fanOutAll
  split
  · exact kindred_pure rfl
  · exact (kindred_callAll s data _ _).bind fun
      | .error _, _, rfl => kindred_pure rfl
      | .ok _, _, rfl => kindred_pure rfl

/-- A result is noted in both executions. -/
theorem kindred_noteResult (h : Abreast id id' e e') (output : Json) :
    Kindred (Abreast id id') (noteResult s output e) (noteResult s output e') :=
  kindred_now.bind fun _ _ _ =>
    kindred_pure ⟨h.alike.pushResult _ _ _ _ _, h.own, h.own', h.running⟩

/-- An error is noted in both. -/
theorem kindred_noteError (h : Abreast id id' e e') (text : String) :
    Kindred (Abreast id id') (noteError place text e) (noteError place text e') :=
  kindred_now.bind fun _ _ _ =>
    kindred_pure ⟨h.alike.pushError _ _ _ _ _, h.own, h.own', h.running⟩

/-- After one step two runs are still as far, and do the same next; a status that they halt in is
terminal. -/
structure StepAlike (id id' : Uuid) (r r' : Flow × Execution) : Prop where
  flow : r.1 = r'.1
  abreast : Abreast id id' r.2 r'.2
  terminal : ∀ status, r.1 = .halt status → status ≠ .running

/-- Two runs go on together. -/
theorem stepAlike_proceed (h : Abreast id id' e e') :
    StepAlike id id' (.proceed, e) (.proceed, e') := ⟨rfl, h, nofun⟩

/-- Two runs halt together, with one status. -/
theorem stepAlike_halt (h : Abreast id id' e e') {status : ExecutionStatus}
    (ends : status ≠ .running) : StepAlike id id' (.halt status, e) (.halt status, e') :=
  ⟨rfl, h, fun _ same => by cases same; exact ends⟩

theorem kindred_succeed (h : Abreast id id' e e') (output : Json) :
    Kindred (StepAlike id id') (succeed s output e) (succeed s output e') := by
  unfold succeed
  split
  · exact kindred_pure (stepAlike_halt h nofun)
  · exact (kindred_noteResult s h output).bind fun _ _ h => kindred_pure (stepAlike_proceed h)

theorem kindred_passOver (h : Abreast id id' e e') (text : String) :
    Kindred (StepAlike id id') (passOver place text e) (passOver place text e') :=
  (kindred_noteError place h text).bind fun _ _ h =>
    (kindred_noteResult place.step h _).bind fun _ _ h => kindred_pure (stepAlike_proceed h)

/-- The failures that are passed over are noted in both, by induction on the replies. -/
theorem kindred_noteReplies (replies : List (Action × Reply)) (h : Abreast id id' e e') :
    Kindred (fun r r' => r.1 = r'.1 ∧ Abreast id id' r.2 r'.2)
      (noteReplies place replies e) (noteReplies place replies e') := by
  induction replies generalizing e e' with
  | nil => exact kindred_pure ⟨rfl, h⟩
  | cons entry rest ih =>
    obtain ⟨a, _ | _⟩ := entry
    · exact (kindred_noteError place h _).bind fun _ _ h =>
        (ih h).bind fun _ _ h => kindred_pure ⟨by rw [h.1], h.2⟩
    · exact (ih h).bind fun _ _ h => kindred_pure ⟨by rw [h.1], h.2⟩

/-- A step that is tried once is kindred in both runs. -/
theorem kindred_runOnce (h : Abreast id id' e e') :
    Kindred (StepAlike id id') (engine.runOnce p data place e) (engine.runOnce p data place e') :=
  (engine.kindred_attempt p place.step data).bind fun
    | .ok output, _, rfl => kindred_succeed place.step h output
    | .error _, _, rfl => (kindred_noteError place h _).bind fun _ _ h =>
        kindred_pure (stepAlike_halt h nofun)

/-- A step that is passed over when it fails is kindred in both runs. -/
theorem kindred_runAnyway (h : Abreast id id' e e') :
    Kindred (StepAlike id id') (engine.runAnyway p data place e)
      (engine.runAnyway p data place e') := by
  unfold runAnyway
  split
  · refine (kindred_fanOutAll p place.step data).bind fun
      | .ok replies, _, rfl => ?_
      | .error _, _, rfl => kindred_passOver place h _
    refine (kindred_noteReplies place replies h).bind ?_
    rintro ⟨entries, e⟩ ⟨entries', e'⟩ ⟨same, h⟩
    cases same
    exact (kindred_noteResult place.step h _).bind fun _ _ h =>
      kindred_pure (stepAlike_proceed h)
  · exact (engine.kindred_attempt p place.step data).bind fun
      | .ok output, _, rfl => kindred_succeed place.step h output
      | .error _, _, rfl => kindred_passOver place h _

/-- A step that is tried again is kindred in both runs, by induction on the attempts left. -/
theorem kindred_runAgain (total left : Nat) (h : Abreast id id' e e') :
    Kindred (StepAlike id id') (engine.runAgain p data place total left e)
      (engine.runAgain p data place total left e') := by
  induction left generalizing e e' with
  | zero => exact kindred_pure (stepAlike_halt h nofun)
  | succ left ih =>
    refine (engine.kindred_attempt p place.step data).bind fun
      | .ok output, _, rfl => kindred_succeed place.step h output
      | .error _, _, rfl => (kindred_noteError place h _).bind fun _ _ h => ?_
    split
    · exact kindred_pure (stepAlike_halt h nofun)
    · exact (kindred_pause _).bind fun _ _ _ => ih h

/-- A step is kindred in both runs, whatever its policy. -/
theorem kindred_runStep (h : Abreast id id' e e') :
    Kindred (StepAlike id id') (engine.runStep p data place e)
      (engine.runStep p data place e') := by
  unfold runStep
  split
  · exact engine.kindred_runOnce p place data h
  · exact engine.kindred_runAnyway p place data h
  · exact engine.kindred_runAgain p place data _ _ h

/-- Runs that end in one way leave executions that are alike. -/
theorem kindred_finished {status : ExecutionStatus} (ends : status ≠ .running)
    (h : Abreast id id' e e') :
    Kindred (EndAlike id id') (finished status e) (finished status e') := by
  have terminal (time : Instant) : (e.finish status time).status.isTerminal = true := by
    have may : e.canFinish status = true := by
      cases status <;> simp_all [Execution.canFinish, ExecutionStatus.isTerminal, h.running]
    rw [Execution.finish_of_canFinish _ may]
    exact bne_iff_ne.2 ends
  have id_finish (e : Execution) (time : Instant) : (e.finish status time).id = e.id := by
    unfold Execution.finish
    split <;> rfl
  exact kindred_now.bind fun time time' _ => kindred_pure
    ⟨h.alike.finish h.running ends time time', (id_finish e time).trans h.own,
      (id_finish e' time').trans h.own', terminal time⟩

/-- Runs of the same steps from one place on end alike, by induction on the steps. -/
theorem kindred_runFrom (index : Nat) (entries : List PlanEntry) (h : Abreast id id' e e') :
    Kindred (EndAlike id id') (engine.runFrom p data index entries e)
      (engine.runFrom p data index entries e') := by
  induction entries generalizing index e e' with
  | nil => exact kindred_finished nofun h
  | cons entry rest ih =>
    have here : Abreast id id' { e with currentStepIndex := index }
        { e' with currentStepIndex := index } :=
      ⟨h.alike.place index, h.own, h.own', h.running⟩
    simp only [runFrom]
    split
    · exact kindred_now.bind fun _ _ _ => kindred_finished nofun
        ⟨here.alike.pushError _ _ _ _ _, here.own, here.own', here.running⟩
    · refine (engine.kindred_runStep p _ data here).bind ?_
      rintro ⟨flow, e⟩ ⟨flow', e'⟩ ⟨same, h, ends⟩
      cases same
      cases flow with
      | proceed => exact ih (index + 1) h
      | halt status => exact kindred_finished (ends status rfl) h

/-- Runs of one plan over executions that are alike are kindred, and end alike. -/
theorem kindred_run (h : Abreast id id' e e') :
    Kindred (EndAlike id id') (engine.run p e) (engine.run p e') := by
  unfold run
  rw [← h.alike.data]
  exact engine.kindred_runFrom p e.data 0 p.entries h

end Engine

end EventFlow
