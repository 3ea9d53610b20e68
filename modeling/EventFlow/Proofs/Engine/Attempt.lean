import EventFlow.Engine.Attempt
import EventFlow.Proofs.Engine.Trace

/-!
# What an attempt does

`Attempted` lists the ways in which an attempt at a step can go: which handlers are called, and what
comes of it. `AttemptedEach` does so for a parallel step that passes over failing actions. Both are
all that later proofs use of the programs behind them (`attempted_of_performs`,
`attemptedEach_of_performs`). The programs are `Engine.attempt` and `Engine.fanOutAll`, in
`EventFlow.Engine.Attempt`.
-/

set_option autoImplicit false

namespace EventFlow.Engine

open Program

variable {σ : Type} {engine : Engine σ} {p : Plan} {data : Json} {s : Step} {effects : List Effect}

/-! ## The actions of a step -/

theorem resolve_eq_ok_iff {ids : List String} {actions : List Action} :
    resolve p ids = .ok actions ↔ ids.map p.action? = actions.map some := by
  induction ids generalizing actions with
  | nil => cases actions <;> simp [resolve]
  | cons id rest ih =>
    rw [resolve, List.map_cons]
    cases hid : p.action? id with
    | none => cases actions <;> simp
    | some a =>
      cases actions with
      | nil => cases resolve p rest <;> simp [Except.map]
      | cons b others =>
        have := @ih others
        cases hrest : resolve p rest with
        | error e => simp_all [Except.map]
        | ok found => simp_all [Except.map]

theorem unregistered?_eq_none_iff {actions : List Action} :
    engine.unregistered? actions = none ↔
      ∀ a ∈ actions, engine.handlers.contains a.actionType = true := by
  simp [unregistered?]

/-- Every identifier of a step leads to an action whose type has a handler. -/
theorem callable_eq_ok_iff {actions : List Action} :
    engine.callable p s = .ok actions ↔ s.actionIds.map p.action? = actions.map some ∧
      ∀ a ∈ actions, engine.handlers.contains a.actionType = true := by
  rw [← resolve_eq_ok_iff, ← unregistered?_eq_none_iff, callable]
  cases hresolve : resolve p s.actionIds with
  | error e => simp
  | ok found =>
    cases hun : engine.unregistered? found with
    | none =>
      simp only [hun, Except.ok.injEq]
      constructor
      · rintro rfl
        exact ⟨rfl, hun⟩
      · exact And.left
    | some e =>
      simp only [hun, reduceCtorEq, Except.ok.injEq, false_iff, not_and]
      rintro rfl
      simp [hun]

/-- The calls of actions for a step can go in two ways: all are answered, or the time is up. -/
theorem of_callAll {known : String → Bool} {order : CallOrder} {actions : List Action}
    {r : Except StepError (List Reply)}
    (h : Performs known (callAll s order data actions) effects r) :
    (∃ replies, r = .ok replies ∧
        Answers known order (actions.map (prepared data)) (Effect.calls effects) (some replies)) ∨
      (r = .error (timedOut s) ∧
        Answers known order (actions.map (prepared data)) (Effect.calls effects) none) := by
  obtain ⟨first, answer, second, rfl, hinvoke, hrest⟩ := h.of_bind
  obtain ⟨served, rfl, answered⟩ := hinvoke.of_invoke
  cases answer with
  | some replies =>
    obtain ⟨rfl, rfl⟩ := hrest.of_pure
    exact .inl ⟨replies, rfl, by simpa using answered⟩
  | none =>
    obtain ⟨rfl, rfl⟩ := hrest.of_pure
    exact .inr ⟨rfl, by simpa using answered⟩

/-! ## Attempts -/

/-- The ways in which an attempt at a step can go: the calls of handlers it makes, and what it comes
to. -/
inductive Attempted (engine : Engine σ) (p : Plan) (data : Json) (s : Step) :
    List Served → Except StepError Json → Prop
  | refused {e : StepError} (kind : s.kind = .action ∨ s.kind = .parallel)
      (h : engine.callable p s = .error e) : Attempted engine p data s [] (.error e)
  | inTurn {actions : List Action} {served : List Served} {replies : List Reply}
      (kind : s.kind = .action) (h : engine.callable p s = .ok actions)
      (answered : Answers engine.handlers.contains .inTurn (actions.map (prepared data)) served
        (some replies)) :
      Attempted engine p data s served ((outputs actions replies).map .array)
  | inTurnLate {actions : List Action} {served : List Served}
      (kind : s.kind = .action) (h : engine.callable p s = .ok actions)
      (answered : Answers engine.handlers.contains .inTurn (actions.map (prepared data)) served
        none) : Attempted engine p data s served (.error (timedOut s))
  | together {actions : List Action} {served : List Served} {replies : List Reply}
      (kind : s.kind = .parallel) (h : engine.callable p s = .ok actions)
      (answered : Answers engine.handlers.contains .together (actions.map (prepared data)) served
        (some replies)) :
      Attempted engine p data s served
        ((outputs actions replies).map fun values =>
          .array (List.zipWith outputEntry actions values))
  | togetherLate {actions : List Action} {served : List Served}
      (kind : s.kind = .parallel) (h : engine.callable p s = .ok actions)
      (answered : Answers engine.handlers.contains .together (actions.map (prepared data)) served
        none) : Attempted engine p data s served (.error (timedOut s))
  | gate (kind : s.kind = .condition) :
      Attempted engine p data s [] ((engine.holdAll p data s.conditionIds).map .bool)
  | unreadable {e : StepError} (kind : s.kind = .wait) (h : engine.duration s = .error e) :
      Attempted engine p data s [] (.error e)
  | waited {ms : Nat} (kind : s.kind = .wait) (h : engine.duration s = .ok ms) :
      Attempted engine p data s [] (.ok (.ofMembers [("waited", .ofNat ms)]))
  | waitLate (kind : s.kind = .wait) : Attempted engine p data s [] (.error (timedOut s))

theorem attempted_of_runActions {r : Except StepError Json} (kind : s.kind = .action)
    (h : Performs engine.handlers.contains (engine.runActions p s data) effects r) :
    Attempted engine p data s (Effect.calls effects) r := by
  rw [runActions] at h
  cases hcallable : engine.callable p s with
  | error e =>
    rw [hcallable] at h
    obtain ⟨rfl, rfl⟩ := h.of_pure
    exact .refused (.inl kind) hcallable
  | ok actions =>
    rw [hcallable] at h
    obtain ⟨first, answer, second, rfl, hcalls, hrest⟩ := h.of_bind
    rcases of_callAll hcalls with ⟨replies, rfl, answered⟩ | ⟨rfl, answered⟩
    · obtain ⟨rfl, rfl⟩ := hrest.of_pure
      rw [List.append_nil]
      exact .inTurn kind hcallable answered
    · obtain ⟨rfl, rfl⟩ := hrest.of_pure
      rw [List.append_nil]
      exact .inTurnLate kind hcallable answered

theorem attempted_of_fanOut {r : Except StepError Json} (kind : s.kind = .parallel)
    (h : Performs engine.handlers.contains (engine.fanOut p s data) effects r) :
    Attempted engine p data s (Effect.calls effects) r := by
  rw [fanOut] at h
  cases hcallable : engine.callable p s with
  | error e =>
    rw [hcallable] at h
    obtain ⟨rfl, rfl⟩ := h.of_pure
    exact .refused (.inr kind) hcallable
  | ok actions =>
    rw [hcallable] at h
    obtain ⟨first, answer, second, rfl, hcalls, hrest⟩ := h.of_bind
    rcases of_callAll hcalls with ⟨replies, rfl, answered⟩ | ⟨rfl, answered⟩
    · obtain ⟨rfl, rfl⟩ := hrest.of_pure
      rw [List.append_nil]
      exact .together kind hcallable answered
    · obtain ⟨rfl, rfl⟩ := hrest.of_pure
      rw [List.append_nil]
      exact .togetherLate kind hcallable answered

theorem attempted_of_wait {r : Except StepError Json} (kind : s.kind = .wait)
    (h : Performs engine.handlers.contains (engine.wait s) effects r) :
    Attempted engine p data s (Effect.calls effects) r := by
  rw [wait] at h
  cases hduration : engine.duration s with
  | error e =>
    rw [hduration] at h
    obtain ⟨rfl, rfl⟩ := h.of_pure
    exact .unreadable kind hduration
  | ok ms =>
    rw [hduration] at h
    obtain ⟨first, _, second, rfl, hpause, hrest⟩ := h.of_bind
    obtain rfl := hpause.of_pause
    split at hrest
    · obtain ⟨rfl, rfl⟩ := hrest.of_pure
      exact .waitLate kind
    · obtain ⟨rfl, rfl⟩ := hrest.of_pure
      exact .waited kind hduration

/-- Whatever is answered to an attempt at a step, it goes in one of the ways of `Attempted`. -/
theorem attempted_of_performs {r : Except StepError Json}
    (h : Performs engine.handlers.contains (engine.attempt p s data) effects r) :
    Attempted engine p data s (Effect.calls effects) r := by
  rw [attempt] at h
  split at h
  · next kind => exact attempted_of_fanOut kind h
  · next notParallel =>
    rw [interpret] at h
    cases kind : s.kind with
    | action =>
      rw [kind] at h
      exact attempted_of_runActions kind h
    | condition =>
      rw [kind] at h
      obtain ⟨rfl, rfl⟩ := h.of_pure
      exact .gate kind
    | wait =>
      rw [kind] at h
      exact attempted_of_wait kind h
    | parallel => exact absurd kind notParallel

/-- An attempt at a condition step calls nothing and finds out whether all its conditions hold. -/
theorem Attempted.of_condition {served : List Served} {r : Except StepError Json}
    (h : Attempted engine p data s served r) (kind : s.kind = .condition) :
    served = [] ∧ r = (engine.holdAll p data s.conditionIds).map .bool := by
  cases h with
  | gate _ => exact ⟨rfl, rfl⟩
  | refused kind' _ => rcases kind' with kind' | kind' <;> simp [kind] at kind'
  | inTurn kind' _ _ => simp [kind] at kind'
  | inTurnLate kind' _ _ => simp [kind] at kind'
  | together kind' _ _ => simp [kind] at kind'
  | togetherLate kind' _ _ => simp [kind] at kind'
  | unreadable kind' _ => simp [kind] at kind'
  | waited kind' _ => simp [kind] at kind'
  | waitLate kind' => simp [kind] at kind'

/-- The ways in which an attempt at a parallel step that passes over failing actions can go. -/
inductive AttemptedEach (engine : Engine σ) (p : Plan) (data : Json) (s : Step) :
    List Served → Except StepError (List (Action × Reply)) → Prop
  | refused {e : StepError} (h : resolve p s.actionIds = .error e) :
      AttemptedEach engine p data s [] (.error e)
  | together {actions : List Action} {served : List Served} {replies : List Reply}
      (h : resolve p s.actionIds = .ok actions)
      (answered : Answers engine.handlers.contains .together (actions.map (prepared data)) served
        (some replies)) : AttemptedEach engine p data s served (.ok (actions.zip replies))
  | late {actions : List Action} {served : List Served}
      (h : resolve p s.actionIds = .ok actions)
      (answered : Answers engine.handlers.contains .together (actions.map (prepared data)) served
        none) : AttemptedEach engine p data s served (.error (timedOut s))

theorem attemptedEach_of_performs {r : Except StepError (List (Action × Reply))}
    (h : Performs engine.handlers.contains (fanOutAll p s data) effects r) :
    AttemptedEach engine p data s (Effect.calls effects) r := by
  rw [fanOutAll] at h
  cases hresolve : resolve p s.actionIds with
  | error e =>
    rw [hresolve] at h
    obtain ⟨rfl, rfl⟩ := h.of_pure
    exact .refused hresolve
  | ok actions =>
    rw [hresolve] at h
    obtain ⟨first, answer, second, rfl, hcalls, hrest⟩ := h.of_bind
    rcases of_callAll hcalls with ⟨replies, rfl, answered⟩ | ⟨rfl, answered⟩
    · obtain ⟨rfl, rfl⟩ := hrest.of_pure
      rw [List.append_nil]
      exact .together hresolve answered
    · obtain ⟨rfl, rfl⟩ := hrest.of_pure
      rw [List.append_nil]
      exact .late hresolve answered

end EventFlow.Engine
