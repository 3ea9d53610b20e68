import EventFlow.Engine.Validation
import EventFlow.Proofs.Engine.Course

/-!
# Validated plans

A plan that passes validation lacks nothing: `Serves` says that everything a step refers to is there
and can be used, and validation finds out that it holds of every step (`serves_of_validate`). What
is left to fail is what validation does not look at, the `Unforeseen` failures, and no attempt of
any run of the plan fails in another way (`unforeseen_of_validate`). The plan is validated by
`Plan.validate` (`EventFlow.Engine.Validation`) and run by `Engine.run` (`EventFlow.Engine.Run`).
-/

set_option autoImplicit false

namespace EventFlow

/-- `Unforeseen s e`: a failure of a step that validation does not look for. -/
inductive Unforeseen (s : Step) : StepError → Prop
  | handler (id : String) (failure : HandlerFailure) : Unforeseen s (.action id (.handler failure))
  | timeout : Unforeseen s (.timeout s.id s.timeoutMs)
  | duration (value : Json) (kind : s.kind = .wait) : Unforeseen s (.invalidDuration s.id value)

namespace Engine

variable {σ : Type}

/-- `engine.Serves p s`: everything that a step of a plan refers to is there, and the engine can
call it or ask it. -/
structure Serves (engine : Engine σ) (p : Plan) (s : Step) : Prop where
  actions : ∀ id ∈ s.actionIds, ∃ a, p.action? id = some a ∧
    engine.handlers.contains a.actionType = true
  conditions : ∀ id ∈ s.conditionIds, ∃ c, p.condition? id = some c ∧
    ∀ data, ∃ holds, c.kind.evaluate engine.predicates data = .ok holds

variable {engine : Engine σ} {p : Plan} {data : Json} {s : Step}

/-! ## What validation finds out -/

/-- An identifier without issues leads to an action that has a handler. -/
theorem of_actionIssues {id : String} (h : p.actionIssues engine.registered s id = []) :
    ∃ a, p.action? id = some a ∧ engine.handlers.contains a.actionType = true := by
  unfold Plan.actionIssues at h
  split at h
  · cases h
  · next a found =>
    split at h
    · cases h
    · next known => exact ⟨a, found, by simpa [registered] using known⟩

/-- A condition without issues can be evaluated, whatever the data. -/
theorem of_conditionIssues {c : Condition} (h : Plan.conditionIssues engine.registered c = [])
    (data : Json) : ∃ holds, c.kind.evaluate engine.predicates data = .ok holds := by
  unfold Plan.conditionIssues at h
  split at h
  · next field operator value kind => exact ⟨_, by rw [kind]; rfl⟩
  · next source kind =>
    split at h
    · next expression parsed =>
      refine ⟨expression.holds data, ?_⟩
      simp [kind, ConditionKind.evaluate, evaluateExpression, parsed]
    · cases h
  · next name config kind =>
    split at h
    · cases h
    · next known =>
      obtain ⟨check, hcheck⟩ : ∃ check, engine.predicates name = some check :=
        Option.ne_none_iff_exists'.1 (by simpa [registered] using known)
      exact ⟨check config data, by simp [kind, ConditionKind.evaluate, hcheck]⟩

/-- An identifier without issues leads to a condition that can be evaluated. -/
theorem of_conditionReferenceIssues {id : String}
    (h : p.conditionReferenceIssues engine.registered s id = []) :
    ∃ c, p.condition? id = some c ∧
      ∀ data, ∃ holds, c.kind.evaluate engine.predicates data = .ok holds := by
  unfold Plan.conditionReferenceIssues at h
  split at h
  · cases h
  · next c found => exact ⟨c, found, of_conditionIssues h⟩

/-- A step without issues can be served. -/
theorem serves_of_stepIssues {before : List UInt32}
    (h : p.stepIssues engine.registered before s = []) : engine.Serves p s := by
  simp only [Plan.stepIssues, List.append_eq_nil_iff, List.flatMap_eq_nil_iff] at h
  exact ⟨fun id hid => of_actionIssues (h.1.2 id hid),
    fun id hid => of_conditionReferenceIssues (h.2 id hid)⟩

/-- Where no entry has a problem, every entry has been looked at. -/
theorem serves_of_entryIssues {seen : List String} {before : List UInt32} {entries : List PlanEntry}
    (h : p.entryIssues engine.registered seen before entries = []) :
    ∀ entry ∈ entries, ∃ s, entry.step = some s ∧ engine.Serves p s := by
  induction entries generalizing seen before with
  | nil => simp
  | cons entry rest ih =>
    rw [Plan.entryIssues] at h
    split at h
    · cases h
    · split at h
      · cases h
      · next s step =>
        obtain ⟨own, others⟩ := List.append_eq_nil_iff.1 h
        refine List.forall_mem_cons.2 ⟨⟨s, step, serves_of_stepIssues own⟩, ih others⟩

/-- A plan that passes validation has all its steps, and lacks nothing that they refer to. -/
theorem serves_of_validate {ids : List String} (valid : p.validate engine.registered = .ok ids) :
    ∀ entry ∈ p.entries, ∃ s, entry.step = some s ∧ engine.Serves p s := by
  unfold Plan.validate at valid
  split at valid
  · next noIssues => exact serves_of_entryIssues noIssues
  · cases valid

/-! ## What attempts find -/

/-- If all identifiers lead to actions with handlers, there is a list of them. -/
theorem exists_actions {ids : List String} (h : ∀ id ∈ ids, ∃ a, p.action? id = some a ∧
    engine.handlers.contains a.actionType = true) :
    ∃ actions : List Action, ids.map p.action? = actions.map some ∧
      ∀ a ∈ actions, engine.handlers.contains a.actionType = true := by
  induction ids with
  | nil => exact ⟨[], rfl, by simp⟩
  | cons id rest ih =>
    obtain ⟨a, found, known⟩ := h id List.mem_cons_self
    obtain ⟨actions, lists, all⟩ := ih fun other hother => h other (List.mem_cons_of_mem id hother)
    refine ⟨a :: actions, ?_, List.forall_mem_cons.2 ⟨known, all⟩⟩
    rw [List.map_cons, List.map_cons, found, lists]

/-- A step that can be served can be called. -/
theorem Serves.callable (h : engine.Serves p s) : ∃ actions, engine.callable p s = .ok actions := by
  obtain ⟨actions, lists, all⟩ := exists_actions h.actions
  exact ⟨actions, callable_eq_ok_iff.2 ⟨lists, all⟩⟩

/-- Conditions that can be evaluated hold together or do not. -/
theorem exists_holdAll {ids : List String} (h : ∀ id ∈ ids, ∃ c, p.condition? id = some c ∧
    ∀ data, ∃ holds, c.kind.evaluate engine.predicates data = .ok holds) (data : Json) :
    ∃ holds, engine.holdAll p data ids = .ok holds := by
  induction ids with
  | nil => exact ⟨true, rfl⟩
  | cons id rest ih =>
    obtain ⟨c, found, evaluates⟩ := h id List.mem_cons_self
    obtain ⟨holds, hholds⟩ := evaluates data
    rw [holdAll]
    simp only [found, hholds]
    cases holds with
    | false => exact ⟨false, rfl⟩
    | true => exact ih fun other hother => h other (List.mem_cons_of_mem id hother)

/-- If outputs are refused, one of the replies is the reason. -/
theorem of_outputs_error {actions : List Action} {replies : List Reply} {e : StepError}
    (h : outputs actions replies = .error e) :
    ∃ (a : Action) (error : DispatchError), .error error ∈ replies ∧ e = .action a.id error := by
  induction actions generalizing replies e with
  | nil => cases h
  | cons a rest ih =>
    cases replies with
    | nil => cases h
    | cons reply others =>
      cases reply with
      | error error =>
        cases h
        exact ⟨a, error, List.mem_cons_self, rfl⟩
      | ok output =>
        rw [outputs] at h
        cases hothers : outputs rest others with
        | ok values =>
          simp [hothers, Except.map] at h
        | error e' =>
          simp only [hothers, Except.map, Except.error.injEq] at h
          obtain ⟨b, error, herror, rfl⟩ := ih hothers
          exact ⟨b, error, List.mem_cons_of_mem _ herror, h.symm⟩

/-- What a handler that is there fails with is its own. -/
theorem handler_of_reply {s : Served} {error : DispatchError} (h : s.reply = .error error) :
    ∃ failure, error = .handler failure := by
  unfold Served.reply at h
  cases outcome : s.outcome with
  | ok output => rw [outcome] at h; cases h
  | error failure =>
    rw [outcome] at h
    cases h
    exact ⟨failure, rfl⟩

/-- Calls in turn to handlers that are there fail by a handler. -/
theorem handler_of_inTurn {known : String → Bool} {calls : List Invocation} {served : List Served}
    {replies : List Reply} {error : DispatchError}
    (all : ∀ c ∈ calls, known c.action.actionType = true) (h : InTurn known calls served replies)
    (herror : .error error ∈ replies) : ∃ failure, error = .handler failure := by
  induction h with
  | nil => cases herror
  | unknown rest unknown =>
    rw [all _ List.mem_cons_self] at unknown
    cases unknown
  | failed _ _ _ => exact handler_of_reply (List.mem_singleton.1 herror).symm
  | next _ _ _ ih =>
    rcases List.mem_cons.1 herror with first | later
    · exact handler_of_reply first.symm
    · exact ih (fun c hc => all c (List.mem_cons_of_mem _ hc)) later

/-- Calls that are made together to handlers that are there fail by a handler. -/
theorem handler_of_together {known : String → Bool} {calls : List Invocation} {served : List Served}
    {replies : List Reply} {error : DispatchError}
    (all : ∀ c ∈ calls, known c.action.actionType = true) (h : Together known calls served replies)
    (herror : .error error ∈ replies) : ∃ failure, error = .handler failure := by
  induction h with
  | nil => cases herror
  | unknown unknown _ _ =>
    rw [all _ List.mem_cons_self] at unknown
    cases unknown
  | known _ _ ih =>
    rcases List.mem_cons.1 herror with first | later
    · exact handler_of_reply first.symm
    · exact ih (fun c hc => all c (List.mem_cons_of_mem _ hc)) later

/-- If all actions have a handler, the failures among the replies are those of the handlers. -/
theorem handler_of_answers {order : CallOrder} {actions : List Action} {served : List Served}
    {replies : List Reply} {error : DispatchError}
    (all : ∀ a ∈ actions, engine.handlers.contains a.actionType = true)
    (h : Answers engine.handlers.contains order (actions.map (prepared data)) served (some replies))
    (herror : .error error ∈ replies) : ∃ failure, error = .handler failure := by
  have known : ∀ c ∈ actions.map (prepared data),
      engine.handlers.contains c.action.actionType = true := by
    intro c hc
    obtain ⟨a, ha, rfl⟩ := List.mem_map.1 hc
    exact all a ha
  cases h with
  | inTurn inTurn => exact handler_of_inTurn known inTurn herror
  | together together _ => exact handler_of_together known together herror

/-- What an attempt fails with after it has called is not to be foreseen. -/
theorem unforeseen_of_outputs {order : CallOrder} {actions : List Action} {served : List Served}
    {replies : List Reply} {e : StepError}
    (all : ∀ a ∈ actions, engine.handlers.contains a.actionType = true)
    (h : Answers engine.handlers.contains order (actions.map (prepared data)) served (some replies))
    (f : List Json → Json) (fails : (outputs actions replies).map f = .error e) :
    Unforeseen s e := by
  cases houtputs : outputs actions replies with
  | ok values =>
    rw [houtputs] at fails
    cases fails
  | error e' =>
    rw [houtputs] at fails
    cases fails
    obtain ⟨a, error, herror, rfl⟩ := of_outputs_error houtputs
    obtain ⟨failure, rfl⟩ := handler_of_answers all h herror
    exact .handler a.id failure

/-- A wait is refused for its duration only. -/
theorem of_duration_error {e : StepError} (h : engine.duration s = .error e) :
    ∃ value, e = .invalidDuration s.id value := by
  unfold duration at h
  split at h
  · cases h
  · cases h
  · next value _ _ =>
    split at h
    · cases h
    · cases h
      exact ⟨value, rfl⟩

/-- An attempt at a step that lacks nothing only fails in a way that validation does not foresee. -/
theorem Serves.unforeseen (h : engine.Serves p s) {served : List Served}
    {r : Except StepError Json} (attempted : Attempted engine p data s served r) {e : StepError}
    (fails : r = .error e) : Unforeseen s e := by
  obtain ⟨callable, hcallable⟩ := h.callable
  cases attempted with
  | refused _ h' =>
    rw [hcallable] at h'
    cases h'
  | inTurn _ h' answered =>
    exact unforeseen_of_outputs (callable_eq_ok_iff.1 h').2 answered _ fails
  | together _ h' answered =>
    exact unforeseen_of_outputs (callable_eq_ok_iff.1 h').2 answered _ fails
  | gate _ =>
    obtain ⟨holds, hholds⟩ := exists_holdAll h.conditions data
    rw [hholds] at fails
    cases fails
  | unreadable kind h' =>
    cases fails
    obtain ⟨value, rfl⟩ := of_duration_error h'
    exact .duration value kind
  | waited _ _ => cases fails
  | _ =>
    cases fails
    exact .timeout

/-- What fails in an attempt that passes over failing actions is unforeseen, the attempt itself as
well as each of its actions. -/
theorem Serves.unforeseen_each (h : engine.Serves p s) {served : List Served}
    {r : Except StepError (List (Action × Reply))}
    (attempted : AttemptedEach engine p data s served r) :
    (∀ e, r = .error e → Unforeseen s e) ∧
      ∀ replies, r = .ok replies → ∀ e ∈ replies.filterMap replyFailure?, Unforeseen s e := by
  obtain ⟨actions, lists, all⟩ := exists_actions h.actions
  have resolves := resolve_eq_ok_iff.2 lists
  cases attempted with
  | refused h' =>
    rw [resolves] at h'
    cases h'
  | late _ _ =>
    refine ⟨?_, fun _ h' => nomatch h'⟩
    rintro _ ⟨⟩
    exact .timeout
  | @together actions' _ replies h' answered =>
    cases resolves.symm.trans h'
    refine ⟨fun _ h' => (nomatch h'), ?_⟩
    rintro _ ⟨⟩ e he
    obtain ⟨⟨a, reply⟩, hreply, failure⟩ := List.mem_filterMap.1 he
    cases reply with
    | ok output => cases failure
    | error error =>
      cases failure
      obtain ⟨failure, rfl⟩ := handler_of_answers all answered (List.of_mem_zip hreply).2
      exact .handler a.id failure

/-- An attempt at a step that lacks nothing, as a run takes note of it. -/
theorem Serves.unforeseen_of_tried (h : engine.Serves p s) {t : Trial}
    (tried : Tried engine p data s t) :
    (∀ e ∈ t.failures, Unforeseen s e) ∧ ∀ e, t.outcome = .error e → Unforeseen s e := by
  cases tried with
  | @whole effects r _ performs =>
    have unforeseen {e : StepError} (fails : r = .error e) : Unforeseen s e :=
      h.unforeseen (attempted_of_performs performs) fails
    cases r with
    | ok output => exact ⟨fun _ he => (nomatch he), fun _ he => (nomatch he)⟩
    | error e =>
      refine ⟨fun e' he => ?_, fun e' he => ?_⟩
      · obtain rfl := List.mem_singleton.1 he
        exact unforeseen rfl
      · cases he
        exact unforeseen rfl
  | @each effects replies _ performs =>
    have unforeseen := (h.unforeseen_each (attemptedEach_of_performs performs)).2 replies rfl
    exact ⟨unforeseen, fun _ he => nomatch he⟩
  | @eachFails effects e _ performs =>
    have unforeseen := (h.unforeseen_each (attemptedEach_of_performs performs)).1 e rfl
    refine ⟨fun e' he => ?_, fun e' he => ?_⟩
    · obtain rfl := List.mem_singleton.1 he
      exact unforeseen
    · cases he
      exact unforeseen

/-! ## Runs -/

/-- `Sound engine p data e calls e'`: a run over a context finds all its steps, and each of its
attempts only fails in ways that validation does not foresee. -/
def Sound (engine : Engine σ) (p : Plan) (data : Json) (e : Execution) (calls : List Served)
    (e' : Execution) : Prop :=
  ∃ visits ending, Course engine p data 0 p.entries visits ending ∧
    calls = visits.flatMap Visit.calls ∧ Writes e visits ending e' ∧
    (∀ index id, ending ≠ .unresolved index id) ∧
    ∀ v ∈ visits, ∀ t ∈ v.trials,
      (∀ failure ∈ t.failures, Unforeseen v.step failure) ∧
        ∀ failure, t.outcome = .error failure → Unforeseen v.step failure

/-- A run of a plan without issues finds all its steps. -/
theorem Course.resolved {index : Nat} {entries : List PlanEntry} {visits : List Visit}
    {ending : Ending} (h : Course engine p data index entries visits ending)
    (found : ∀ entry ∈ entries, ∃ s, entry.step = some s ∧ engine.Serves p s) (at_index : Nat)
    (id : String) : ending ≠ .unresolved at_index id := by
  induction h with
  | completed _ => simp
  | @unresolved index entry rest step =>
    obtain ⟨s, hs, _⟩ := found entry List.mem_cons_self
    rw [step] at hs
    cases hs
  | halted _ _ _ _ => simp
  | proceeded _ _ _ _ ih => exact ih fun entry hentry => found entry (List.mem_cons_of_mem _ hentry)

/-- Whatever the handlers answer, a plan without issues runs into nothing that was to be foreseen.
-/
theorem sound_of_mayRun {e e' : Execution} {calls : List Served} (running : e.status = .running)
    (found : ∀ entry ∈ p.entries, ∃ s, entry.step = some s ∧ engine.Serves p s)
    (h : engine.MayRun p e calls e') : Sound engine p e.data e calls e' := by
  obtain ⟨visits, ending, course, hcalls, writes, _⟩ := course_of_mayRun running h
  refine ⟨visits, ending, course, hcalls, writes, course.resolved found, fun v hv t ht => ?_⟩
  obtain ⟨k, hk⟩ := List.mem_iff_getElem?.1 hv
  obtain ⟨entry, here, step, genuine⟩ := course.visited hk
  obtain ⟨s, hs, complete⟩ := found entry (List.mem_of_getElem? here)
  cases step.symm.trans hs
  exact complete.unforeseen_of_tried (genuine.tried t ht)

/-- A plan that passes validation has all its steps, no attempt at any of them fails in a way that
validation looks for, and neither does any run of the plan. -/
theorem unforeseen_of_validate (engine : Engine σ) {p : Plan} {ids : List String}
    (valid : p.validate engine.registered = .ok ids) (w : Workflow) (data : Json)
    (createdBy : String) (supply : Supply) :
    let e := (Execution.begin w data createdBy supply).1
    (∀ entry ∈ p.entries, ∃ s, entry.step = some s ∧ ∀ t, Tried engine p data s t →
        (∀ failure ∈ t.failures, Unforeseen s failure) ∧
          ∀ failure, t.outcome = .error failure → Unforeseen s failure) ∧
      (∀ calls e', engine.MayRun p e calls e' → Sound engine p data e calls e') ∧
      ∀ m, Sound engine p data e (Machine.calls engine (engine.run p e) m)
        (Machine.await engine (engine.run p e) m).1 := by
  intro e
  have found := serves_of_validate valid
  have sound : ∀ calls e', engine.MayRun p e calls e' → Sound engine p data e calls e' :=
    fun _ _ h => sound_of_mayRun rfl found h
  refine ⟨fun entry hentry => ?_, sound, fun m => sound _ _ (mayRun_await engine p e m)⟩
  obtain ⟨s, hs, complete⟩ := found entry hentry
  exact ⟨s, hs, fun t tried => complete.unforeseen_of_tried tried⟩

/-- An engine with one handler and one predicate. -/
def logging : Engine Unit :=
  ⟨[("log", fun _ supply world => ⟨world, supply, 0, .ok .null⟩)],
    fun name => if name = "open" then some fun _ _ => true else none, .default, .apart⟩

/-- A plan that asks the predicate and then calls the handler, up to three times. -/
def welcome : Plan :=
  ⟨⟨"welcome", "Welcome", "", .active, "user.joined", ["ask", "greet"], .emptyObject, default,
    default, anonymous⟩,
   [⟨"ask", some ⟨"ask", "welcome", "Ask", "", .condition, [], ["gate"], .stop, 1000, 0,
      .emptyObject, default, anonymous⟩⟩,
    ⟨"greet", some ⟨"greet", "welcome", "Greet", "", .action, ["note"], [], .retry 2, 1000, 1,
      .emptyObject, default, anonymous⟩⟩],
   [("note", ⟨"note", "Note", "", "log", "", [], .emptyObject, default, anonymous⟩)],
   [("gate", ⟨"gate", "Gate", "", .externalCheck "open" .null, default, anonymous⟩)]⟩

theorem welcome_validates : welcome.validate logging.registered = .ok ["ask", "greet"] := rfl

theorem unforeseen_of_validate_welcome :
    welcome.validate logging.registered = .ok ["ask", "greet"] ∧
      Sound logging welcome .null (Execution.begin welcome.workflow .null anonymous default).1
        (Machine.calls logging (logging.run welcome
          (Execution.begin welcome.workflow .null anonymous default).1) idle)
        (Machine.await logging (logging.run welcome
          (Execution.begin welcome.workflow .null anonymous default).1) idle).1 :=
  ⟨welcome_validates, (unforeseen_of_validate logging welcome_validates welcome.workflow .null
    anonymous default).2.2 idle⟩

end Engine

end EventFlow
