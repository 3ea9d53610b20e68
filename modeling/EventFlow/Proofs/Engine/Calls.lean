import EventFlow.Proofs.Engine.Course

/-!
# Which handlers a run calls

`CallsExactly` says which handlers an attempt at a step calls when its time is not up: all or
nothing, except that actions in turn end with the first that fails, and that a parallel step that
passes over failing actions leaves out those without a handler. `Traced` says that the calls of a
run are those of its attempts, all of them with actions made ready for the one context of the run,
and none for a position behind the one at which the run has halted. It holds of every run
(`traced_of_run`). The calls are made ready by `Engine.prepared` (`EventFlow.Engine.Attempt`), which
interpolates the action.
-/

set_option autoImplicit false

namespace EventFlow

/-- `UpToFirstFailure calls served`: the calls are made in order, up to and including the first
whose handler fails. -/
inductive UpToFirstFailure : List Invocation → List Served → Prop
  | nil : UpToFirstFailure [] []
  | failed {s : Served} (rest : List Invocation) (fails : ¬ s.Succeeds) :
      UpToFirstFailure (s.call :: rest) [s]
  | next {s : Served} {rest : List Invocation} {served : List Served} (succeeds : s.Succeeds)
      (others : UpToFirstFailure rest served) : UpToFirstFailure (s.call :: rest) (s :: served)

/-- `p.Lists s actions`: the identifiers of a step lead to these actions. -/
def Plan.Lists (p : Plan) (s : Step) (actions : List Action) : Prop :=
  s.actionIds.map p.action? = actions.map some

theorem Plan.Lists.eq {p : Plan} {s : Step} {actions others : List Action}
    (h : p.Lists s actions) (h' : p.Lists s others) : actions = others :=
  (List.map_inj_right fun _ _ => Option.some.inj).1 (h.symm.trans h')

theorem Plan.Lists.exists_action {p : Plan} {s : Step} {actions : List Action} {id : String}
    (h : p.Lists s actions) (hid : id ∈ s.actionIds) : ∃ a ∈ actions, p.action? id = some a := by
  have : p.action? id ∈ actions.map some := by
    rw [← h]
    exact List.mem_map_of_mem hid
  obtain ⟨a, ha, found⟩ := List.mem_map.1 this
  exact ⟨a, ha, found.symm⟩

theorem Plan.Lists.not_missing {p : Plan} {s : Step} {actions : List Action}
    (h : p.Lists s actions) : ¬ ∃ id ∈ s.actionIds, p.action? id = none := by
  rintro ⟨id, hid, missing⟩
  obtain ⟨a, _, found⟩ := h.exists_action hid
  rw [missing] at found
  cases found

theorem Plan.Lists.exists_id {p : Plan} {s : Step} {actions : List Action} {a : Action}
    (h : p.Lists s actions) (ha : a ∈ actions) : ∃ id ∈ s.actionIds, p.action? id = some a := by
  have : some a ∈ s.actionIds.map p.action? := by
    rw [h]
    exact List.mem_map_of_mem ha
  exact List.mem_map.1 this

namespace Engine

variable {σ : Type}

/-- Whether there is a handler for an action. -/
def handles (engine : Engine σ) (a : Action) : Bool := engine.handlers.contains a.actionType

/-- `CallsExactly engine p data s served`: the calls that an attempt at a step makes when its time
is not up. Each hands over an action with its placeholders filled from the context, and the
context. -/
structure CallsExactly (engine : Engine σ) (p : Plan) (data : Json) (s : Step)
    (served : List Served) : Prop where
  action : s.kind = .action → ∀ actions, p.Lists s actions →
    (∀ a ∈ actions, engine.handles a = true) →
    UpToFirstFailure (actions.map fun a => ⟨Template.interpolateAction data a, data⟩) served
  parallel : s.kind = .parallel → s.errorPolicy ≠ .continue → ∀ actions, p.Lists s actions →
    (∀ a ∈ actions, engine.handles a = true) →
    (served.map Served.call).Perm
      (actions.map fun a => ⟨Template.interpolateAction data a, data⟩)
  /-- An action without a handler is left out. -/
  passesOver : s.kind = .parallel → s.errorPolicy = .continue → ∀ actions, p.Lists s actions →
    (served.map Served.call).Perm
      ((actions.filter engine.handles).map fun a => ⟨Template.interpolateAction data a, data⟩)
  missing : s.kind = .action ∨ s.kind = .parallel →
    (∃ id ∈ s.actionIds, p.action? id = none) → served = []
  /-- If failing actions are not passed over, one without a handler keeps all from being called. -/
  unhandled : s.kind = .action ∨ s.kind = .parallel ∧ s.errorPolicy ≠ .continue →
    (∃ id ∈ s.actionIds, ∃ a, p.action? id = some a ∧ engine.handles a = false) → served = []
  others : s.kind = .condition ∨ s.kind = .wait → served = []

/-- `Traced engine p data e calls e' visits ending`: a run over a context has made these visits and
ended so, and has called the handlers that its attempts have called. -/
structure Traced (engine : Engine σ) (p : Plan) (data : Json) (e : Execution) (calls : List Served)
    (e' : Execution) (visits : List Visit) (ending : Ending) : Prop where
  course : Course engine p data 0 p.entries visits ending
  writes : Writes e visits ending e'
  calls : calls = visits.flatMap Visit.calls
  /-- No position behind the index of the execution is visited. -/
  visited : ∀ k v, visits[k]? = some v → k ≤ e'.currentStepIndex ∧
    ∃ entry, p.entries[k]? = some entry ∧ entry.step = some v.step
  /-- Whatever is called, and whenever, is an action of its step with its placeholders filled from
  the one context of the run, and is given this context. -/
  prepared : ∀ v ∈ visits, ∀ t ∈ v.trials, ∀ s ∈ t.calls, ∃ id ∈ v.step.actionIds, ∃ a,
    p.action? id = some a ∧ s.call = ⟨Template.interpolateAction data a, data⟩
  exact : ∀ v ∈ visits, ∀ t ∈ v.trials,
    t.outcome ≠ .error (.timeout v.step.id v.step.timeoutMs) →
    CallsExactly engine p data v.step t.calls

variable {engine : Engine σ} {p : Plan} {data : Json}

/-! ## Calls and their answers -/

theorem upToFirstFailure_of_inTurn {known : String → Bool} {calls : List Invocation}
    {served : List Served} {replies : List Reply}
    (all : ∀ c ∈ calls, known c.action.actionType = true)
    (h : InTurn known calls served replies) : UpToFirstFailure calls served := by
  induction h with
  | nil => exact .nil
  | unknown rest unknown =>
    rw [all _ List.mem_cons_self] at unknown
    cases unknown
  | failed rest _ fails => exact .failed rest fails
  | next _ succeeds _ ih => exact .next succeeds (ih fun c hc => all c (List.mem_cons_of_mem _ hc))

/-- The calls made together are those whose type has a handler. -/
theorem calls_of_together {known : String → Bool} {calls : List Invocation} {served : List Served}
    {replies : List Reply} (h : Together known calls served replies) :
    served.map Served.call = calls.filter fun c => known c.action.actionType := by
  induction h with
  | nil => rfl
  | unknown unknown _ ih => simp [unknown, ih]
  | known hknown _ ih => simp [hknown, ih]

/-- The calls made for actions are those of the actions that have a handler. -/
theorem perm_of_together {actions : List Action} {made served : List Served} {replies : List Reply}
    (h : Together engine.handlers.contains (actions.map (prepared data)) served replies)
    (anyOrder : made.Perm served) :
    (made.map Served.call).Perm ((actions.filter engine.handles).map (prepared data)) := by
  refine (anyOrder.map Served.call).trans (.of_eq ?_)
  rw [calls_of_together h, List.filter_map]
  rfl

theorem mem_of_inTurn {known : String → Bool} {calls : List Invocation} {served : List Served}
    {replies : List Reply} (h : InTurn known calls served replies) {s : Served} (hs : s ∈ served) :
    s.call ∈ calls := by
  induction h with
  | nil => cases hs
  | unknown _ _ => cases hs
  | failed _ _ _ =>
    obtain rfl := List.mem_singleton.1 hs
    exact List.mem_cons_self
  | next _ _ _ ih =>
    rcases List.mem_cons.1 hs with rfl | hs
    · exact List.mem_cons_self
    · exact List.mem_cons_of_mem _ (ih hs)

/-- Whatever the answer is, only calls that have been asked for are made. -/
theorem mem_of_answers {known : String → Bool} {order : CallOrder} {calls : List Invocation}
    {served : List Served} {answer : Option (List Reply)}
    (h : Answers known order calls served answer) {s : Served} (hs : s ∈ served) :
    s.call ∈ calls := by
  have hcall := List.mem_map_of_mem hs (f := Served.call)
  cases h with
  | inTurn inTurn => exact mem_of_inTurn inTurn hs
  | together all anyOrder =>
    rw [(anyOrder.map Served.call).mem_iff, calls_of_together all] at hcall
    exact (List.mem_filter.1 hcall).1
  | inTurnLate first _ => exact first.subset hcall
  | togetherLate apart => exact apart.subset (List.mem_append_left _ hcall)

/-! ## Attempts -/

/-- An attempt of which nothing comes because an action is missing or has no handler. -/
theorem callsExactly_of_callable_error {s : Step} {e : StepError} (notOver : ¬ s.PassesOver)
    (h : engine.callable p s = .error e) : CallsExactly engine p data s [] := by
  have impossible : ∀ actions, p.Lists s actions → ¬ ∀ a ∈ actions, engine.handles a = true := by
    intro actions lists all
    rw [callable_eq_ok_iff.2 ⟨lists, all⟩] at h
    cases h
  refine ⟨fun _ actions lists all => ?_, fun _ _ actions lists all => ?_,
    fun kind policy => absurd ⟨policy, kind⟩ notOver, fun _ _ => rfl, fun _ _ => rfl, fun _ => rfl⟩
  · exact absurd all (impossible actions lists)
  · exact absurd all (impossible actions lists)

/-- An attempt at a step of a kind that calls nothing. -/
theorem callsExactly_of_idle {s : Step} (kind : s.kind = .condition ∨ s.kind = .wait) :
    CallsExactly engine p data s [] := by
  refine ⟨?_, ?_, ?_, fun _ _ => rfl, fun _ _ => rfl, fun _ => rfl⟩ <;>
    intro kind' <;> rcases kind with kind | kind <;> rw [kind] at kind' <;> cases kind'

/-- An attempt at a step all of whose actions can be called. -/
theorem callsExactly_of_callable {s : Step} {actions : List Action} {served : List Served}
    (kind : s.kind = .action ∨ s.kind = .parallel) (notOver : ¬ s.PassesOver)
    (h : engine.callable p s = .ok actions)
    (inTurn : s.kind = .action → UpToFirstFailure (actions.map (prepared data)) served)
    (together : s.kind = .parallel → (served.map Served.call).Perm (actions.map (prepared data))) :
    CallsExactly engine p data s served := by
  obtain ⟨found, all⟩ := callable_eq_ok_iff.1 h
  have lists : p.Lists s actions := found
  refine ⟨fun kind' others lists' _ => ?_, fun kind' _ others lists' _ => ?_,
    fun kind' policy => absurd ⟨policy, kind'⟩ notOver,
    fun _ missing => absurd missing lists.not_missing, ?_, ?_⟩
  · rw [lists'.eq lists]
    exact inTurn kind'
  · rw [lists'.eq lists]
    exact together kind'
  · rintro _ ⟨id, hid, a, found, unhandled⟩
    obtain ⟨b, hb, found'⟩ := lists.exists_action hid
    cases found.symm.trans found'
    rw [handles, all a hb] at unhandled
    cases unhandled
  · intro kind'
    rcases kind with kind | kind <;> rcases kind' with kind' | kind' <;> rw [kind] at kind' <;>
      cases kind'

/-- Which handlers an attempt at a step calls when its time is not up. -/
theorem callsExactly_of_attempted {s : Step} {served : List Served} {r : Except StepError Json}
    (h : Attempted engine p data s served r) (notOver : ¬ s.PassesOver)
    (inTime : r ≠ .error (timedOut s)) : CallsExactly engine p data s served := by
  cases h with
  | refused kind h => exact callsExactly_of_callable_error notOver h
  | @inTurn actions _ _ kind h answered =>
    refine callsExactly_of_callable (.inl kind) notOver h (fun _ => ?_) fun kind' => ?_
    · cases answered with
      | inTurn answered =>
        refine upToFirstFailure_of_inTurn (fun c hc => ?_) answered
        obtain ⟨a, ha, rfl⟩ := List.mem_map.1 hc
        exact (callable_eq_ok_iff.1 h).2 a ha
    · rw [kind] at kind'
      cases kind'
  | @together actions _ _ kind h answered =>
    refine callsExactly_of_callable (.inr kind) notOver h (fun kind' => ?_) fun _ => ?_
    · rw [kind] at kind'
      cases kind'
    · cases answered with
      | together all anyOrder =>
        have every : actions.filter engine.handles = actions :=
          List.filter_eq_self.2 (callable_eq_ok_iff.1 h).2
        have perm := perm_of_together all anyOrder
        rwa [every] at perm
  | inTurnLate _ _ _ => exact absurd rfl inTime
  | togetherLate _ _ _ => exact absurd rfl inTime
  | gate kind => exact callsExactly_of_idle (.inl kind)
  | unreadable kind _ => exact callsExactly_of_idle (.inr kind)
  | waited kind _ => exact callsExactly_of_idle (.inr kind)
  | waitLate kind => exact callsExactly_of_idle (.inr kind)

/-- Which handlers an attempt calls at a step that passes over failing actions. -/
theorem callsExactly_of_attemptedEach {s : Step} {served : List Served}
    {r : Except StepError (List (Action × Reply))} (h : AttemptedEach engine p data s served r)
    (passes : s.PassesOver) (inTime : r ≠ .error (timedOut s)) :
    CallsExactly engine p data s served := by
  obtain ⟨policy, kind⟩ := passes
  have notOther {other : StepKind} (apart : other ≠ .parallel) : s.kind ≠ other := by
    rw [kind]
    exact apart.symm
  cases h with
  | @refused e h =>
    refine ⟨fun kind' => absurd kind' (notOther (by simp)), fun _ policy' => absurd policy policy',
      fun _ _ actions lists => ?_, fun _ _ => rfl, fun _ _ => rfl, fun _ => rfl⟩
    rw [resolve_eq_ok_iff.2 lists] at h
    cases h
  | @together actions _ _ h answered =>
    have lists : p.Lists s actions := resolve_eq_ok_iff.1 h
    refine ⟨fun kind' => absurd kind' (notOther (by simp)), fun _ policy' => absurd policy policy',
      fun _ _ others lists' => ?_, fun _ missing => absurd missing lists.not_missing, ?_, ?_⟩
    · rw [lists'.eq lists]
      cases answered with
      | together all anyOrder => exact perm_of_together all anyOrder
    · rintro (kind' | ⟨_, policy'⟩)
      · exact absurd kind' (notOther (by simp))
      · exact absurd policy policy'
    · rintro (kind' | kind')
      · exact absurd kind' (notOther (by simp))
      · exact absurd kind' (notOther (by simp))
  | late _ _ => exact absurd rfl inTime

theorem Tried.callsExactly {s : Step} {t : Trial} (h : Tried engine p data s t)
    (inTime : t.outcome ≠ .error (timedOut s)) : CallsExactly engine p data s t.calls := by
  cases h with
  | @whole effects r notOver performs =>
    have attempted := attempted_of_performs performs
    cases r with
    | ok output => exact callsExactly_of_attempted attempted notOver (by simp)
    | error e =>
      refine callsExactly_of_attempted attempted notOver fun late => inTime ?_
      simpa [Trial.whole] using late
  | each passes performs =>
    exact callsExactly_of_attemptedEach (attemptedEach_of_performs performs) passes (by simp)
  | eachFails passes performs =>
    refine callsExactly_of_attemptedEach (attemptedEach_of_performs performs) passes fun late =>
      inTime ?_
    simpa [Trial.whole] using late

theorem exists_of_answers {s : Step} {order : CallOrder} {actions : List Action}
    {served : List Served} {answer : Option (List Reply)} {call : Served}
    (lists : p.Lists s actions)
    (h : Answers engine.handlers.contains order (actions.map (prepared data)) served answer)
    (hcall : call ∈ served) :
    ∃ id ∈ s.actionIds, ∃ a, p.action? id = some a ∧ call.call = prepared data a := by
  obtain ⟨a, ha, same⟩ := List.mem_map.1 (mem_of_answers h hcall)
  obtain ⟨id, hid, found⟩ := lists.exists_id ha
  exact ⟨id, hid, a, found, same.symm⟩

theorem exists_of_attempted {s : Step} {served : List Served} {r : Except StepError Json}
    {call : Served} (h : Attempted engine p data s served r) (hcall : call ∈ served) :
    ∃ id ∈ s.actionIds, ∃ a, p.action? id = some a ∧ call.call = prepared data a := by
  have lists {actions : List Action} (h : engine.callable p s = .ok actions) :
      p.Lists s actions := (callable_eq_ok_iff.1 h).1
  cases h with
  | inTurn _ h answered => exact exists_of_answers (lists h) answered hcall
  | inTurnLate _ h answered => exact exists_of_answers (lists h) answered hcall
  | together _ h answered => exact exists_of_answers (lists h) answered hcall
  | togetherLate _ h answered => exact exists_of_answers (lists h) answered hcall
  | _ => cases hcall

theorem exists_of_attemptedEach {s : Step} {served : List Served}
    {r : Except StepError (List (Action × Reply))} {call : Served}
    (h : AttemptedEach engine p data s served r) (hcall : call ∈ served) :
    ∃ id ∈ s.actionIds, ∃ a, p.action? id = some a ∧ call.call = prepared data a := by
  cases h with
  | together h answered => exact exists_of_answers (resolve_eq_ok_iff.1 h) answered hcall
  | late h answered => exact exists_of_answers (resolve_eq_ok_iff.1 h) answered hcall
  | refused _ => cases hcall

/-- Every call of an attempt is made for an action of the step, made ready for the context. -/
theorem Tried.prepared {s : Step} {t : Trial} (h : Tried engine p data s t) {call : Served}
    (hcall : call ∈ t.calls) :
    ∃ id ∈ s.actionIds, ∃ a, p.action? id = some a ∧ call.call = prepared data a := by
  cases h with
  | @whole effects r _ performs =>
    cases r <;> exact exists_of_attempted (attempted_of_performs performs) hcall
  | each _ performs => exact exists_of_attemptedEach (attemptedEach_of_performs performs) hcall
  | eachFails _ performs => exact exists_of_attemptedEach (attemptedEach_of_performs performs) hcall

/-! ## Runs -/

/-- An execution that runs has its calls traced. -/
theorem traced_of_mayRun {e e' : Execution} {calls : List Served} (running : e.status = .running)
    (h : engine.MayRun p e calls e') :
    ∃ visits ending, Traced engine p e.data e calls e' visits ending := by
  obtain ⟨visits, ending, course, hcalls, writes, resting⟩ := course_of_mayRun running h
  have tried : ∀ v ∈ visits, ∀ t ∈ v.trials, Tried engine p e.data v.step t := by
    intro v hv
    obtain ⟨k, hk⟩ := List.mem_iff_getElem?.1 hv
    obtain ⟨_, _, _, genuine⟩ := course.visited hk
    exact genuine.tried
  refine ⟨visits, ending, course, writes, hcalls, ?_, ?_,
    fun v hv t ht => (tried v hv t ht).callsExactly⟩
  · intro k v hv
    obtain ⟨entry, here, step, _⟩ := course.visited hv
    have nonempty : p.entries ≠ [] := fun nothing => by simp [nothing] at here
    have inside := (List.getElem?_eq_some_iff.1 hv).1
    refine ⟨?_, entry, here, step⟩
    rw [resting, course.le_restingIndex_iff e.currentStepIndex nonempty]
    exact Nat.lt_add_right _ inside
  · intro v hv t ht s hs
    exact (tried v hv t ht).prepared hs

/-- The calls of every run are those of its attempts: whatever is answered to it, and on every
machine. -/
theorem traced_of_run (engine : Engine σ) (p : Plan) (w : Workflow) (eventData : Json)
    (supply : Supply) :
    let e := (engine.prepare w eventData supply).1
    let data := context w.defaults eventData
    (∀ calls e', engine.MayRun p e calls e' →
        ∃ visits ending, Traced engine p data e calls e' visits ending) ∧
      ∀ m, ∃ visits ending, Traced engine p data e (Machine.calls engine (engine.run p e) m)
        (Machine.await engine (engine.run p e) m).1 visits ending := by
  intro e data
  have traced : ∀ calls e', engine.MayRun p e calls e' →
      ∃ visits ending, Traced engine p data e calls e' visits ending :=
    fun _ _ h => traced_of_mayRun rfl h
  exact ⟨traced, fun m => traced _ _ (mayRun_await engine p e m)⟩

end Engine

end EventFlow
