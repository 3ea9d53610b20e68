import EventFlow.Proofs.Engine.Agreement
import EventFlow.Proofs.Engine.Answering

/-!
# How long attempts take

An attempt takes as long as its handlers do, one after the other or all at once, or as long as its
wait, and comes to what they come to; or it is cut off when the time of its step is up
(`Engine.timeout_bounds_attempt`). The attempt is `Engine.attempt`, in `EventFlow.Engine.Attempt`.
-/

set_option autoImplicit false

namespace EventFlow

open Lasting (upToFailure altogether longest)

variable {σ α : Type}

/-! ## Outputs -/

namespace Lasting

/-- What comes after the first failure does not matter to the outputs. -/
theorem outputs_upToFailure (actions : List Action) (xs : List Lasting) :
    Engine.outputs actions ((upToFailure xs).map reply) =
      Engine.outputs actions (xs.map reply) := by
  induction xs generalizing actions with
  | nil => rfl
  | cons x rest ih =>
    cases actions with
    | nil => rfl
    | cons a others =>
      cases ending : x.outcome with
      | ok output =>
        rw [upToFailure, if_pos (isOk_iff.2 ⟨output, ending⟩), List.map_cons, List.map_cons, reply,
          ending]
        exact congrArg (Except.map (output :: ·)) (ih others)
      | error failure =>
        have fails : ¬ x.Succeeds := by
          rintro ⟨output, succeeds⟩
          cases ending.symm.trans succeeds
        rw [upToFailure, if_neg (mt isOk_iff.1 fails), List.map_singleton, List.map_cons, reply,
          ending]
        rfl

/-- All handlers have an output, or one is the first that fails. -/
theorem outputs_cases {actions : List Action} {xs : List Lasting}
    (length : xs.length = actions.length) :
    (∃ values, xs.map outcome = values.map .ok ∧
      Engine.outputs actions (xs.map reply) = .ok values) ∨
    ∃ (i : Nat) (a : Action) (x : Lasting) (failure : HandlerFailure), actions[i]? = some a ∧
      xs[i]? = some x ∧ x.outcome = .error failure ∧ (∀ y ∈ xs.take i, y.Succeeds) ∧
      Engine.outputs actions (xs.map reply) = .error (.action a.id (.handler failure)) := by
  induction xs generalizing actions with
  | nil =>
    obtain rfl := List.eq_nil_of_length_eq_zero length.symm
    exact .inl ⟨[], rfl, rfl⟩
  | cons x rest ih =>
    cases actions with
    | nil => cases length
    | cons a others =>
      have told : Engine.outputs (a :: others) ((x :: rest).map reply) =
          match x.outcome with
          | .ok output => (Engine.outputs others (rest.map reply)).map (output :: ·)
          | .error failure => .error (.action a.id (.handler failure)) := by
        rw [List.map_cons, reply]
        cases x.outcome <;> rfl
      rw [told]
      cases ending : x.outcome with
      | error failure => exact .inr ⟨0, a, x, failure, rfl, rfl, ending, List.forall_mem_nil _, rfl⟩
      | ok output =>
        rcases ih (Nat.succ.inj length) with ⟨values, each, outputs⟩ |
          ⟨i, b, y, failure, action, here, fails, before, outputs⟩
        · refine .inl ⟨output :: values, ?_, ?_⟩
          · rw [List.map_cons, ending, each, List.map_cons]
          · rw [outputs]
            rfl
        · refine .inr ⟨i + 1, b, y, failure, action, here, fails, ?_, ?_⟩
          · rw [List.take_succ_cons]
            exact List.forall_mem_cons.2 ⟨⟨output, ending⟩, before⟩
          · rw [outputs]
            rfl

end Lasting

namespace Engine

variable {engine : Engine σ} {p : Plan} {s : Step} {data : Json} {m : Machine σ}

/-! ## Bounds -/

/-- What actions come to whose handlers end so: what is made of their outputs, or the failure of the
first that fails. -/
inductive OwnOutcome (kind : StepKind) (actions : List Action) (xs : List Lasting) :
    Except StepError Json → Prop
  | succeeds {values : List Json} (each : xs.map Lasting.outcome = values.map .ok) :
      OwnOutcome kind actions xs (.ok (presented kind (actions, values)))
  | fails {i : Nat} {a : Action} {x : Lasting} {failure : HandlerFailure}
      (action : actions[i]? = some a) (here : xs[i]? = some x)
      (ending : x.outcome = .error failure) (before : ∀ y ∈ xs.take i, y.Succeeds) :
      OwnOutcome kind actions xs (.error (.action a.id (.handler failure)))

/-- How long the calls of a step take if no time is up: until the first failure if they are made one
after the other, and until the last has ended if they are made all at once. -/
def taking (kind : StepKind) (xs : List Lasting) : Nat :=
  if kind = .parallel then longest xs else altogether (upToFailure xs)

/-- `Bounded s takes Own start result time`: an attempt at a step that began at a time has had this
result at this time. If it takes less than it may, the result is its own, and it has not timed out;
if it takes more, it has timed out as soon as it could. -/
structure Bounded (s : Step) (takes : Nat) (Own : Except StepError α → Prop) (start : Nat)
    (result : Except StepError α) (time : Nat) : Prop where
  inTime : takes < s.timeoutMs.toNat →
    Own result ∧ (∀ id ms, result ≠ .error (.timeout id ms)) ∧ time = start + takes
  late : s.timeoutMs.toNat < takes →
    result = .error (.timeout s.id s.timeoutMs) ∧ time = start + s.timeoutMs.toNat

/-- `engine.Lasts s ms`: the milliseconds of a wait, which the configuration of its step says, or
the settings of the engine if it says nothing. -/
inductive Lasts (engine : Engine σ) (s : Step) : Nat → Prop
  | configured {ms : UInt64} (told : s.config.get? "duration" = some (.ofUInt64 ms)) :
      engine.Lasts s ms.toNat
  | default (silent : s.config.get? "duration" = none ∨ s.config.get? "duration" = some .null) :
      engine.Lasts s engine.settings.defaultWaitMs.toNat

/-- The calls that a program makes for actions take as long, and end as, these. -/
def Last (engine : Engine σ) (data : Json) (actions : List Action) (xs : List Lasting)
    (program : Program α) (m : Machine σ) : Prop :=
  xs.length = actions.length ∧ ∀ c ∈ m.timeline engine program, ∀ a, actions[c.slot]? = some a →
    c.call = ⟨Template.interpolateAction data a, data⟩ → xs[c.slot]? = some c.lasting

/-- Where handlers behave in one way, calls take as long, and end as, the behaviour says. -/
theorem last_of_behaves {b : Behaviour} (behaves : engine.Behaves b) (data : Json)
    (actions : List Action) (program : Program α) (m : Machine σ) :
    engine.Last data actions (actions.map fun a =>
      ⟨b.duration (prepared data a), b.reply (prepared data a)⟩) program m := by
  refine ⟨List.length_map _, ?_⟩
  intro c hc a here call
  rw [List.getElem?_map, here, Machine.lasting_of_behaves behaves hc, call]
  rfl

/-! ## Requests -/

/-- The calls of actions for a step. -/
def requested (s : Step) (order : CallOrder) (data : Json) (actions : List Action)
    (xs : List Lasting) (start : Nat) : Schedule :=
  ⟨start, limit s, order, actions.map (prepared data), xs⟩

/-- What an attempt makes of the answer to its calls. -/
def answered (s : Step) (f : List Reply → Except StepError α) :
    Option (List Reply) → Except StepError α
  | some replies => f replies
  | none => .error (timedOut s)

/-- The order in which a step makes its calls. -/
def orderOf (kind : StepKind) : CallOrder := if kind = .parallel then .together else .inTurn

theorem attempt_eq_request {actions : List Action} (kind : s.kind = .action ∨ s.kind = .parallel)
    (called : engine.callable p s = .ok actions) (xs : List Lasting) (start : Nat) :
    engine.attempt p s data = (requested s (orderOf s.kind) data actions xs start).request
      (answered s fun replies =>
        (outputs actions replies).map fun values => presented s.kind (actions, values)) := by
  rw [attempt]
  rcases kind with kind | kind
  · rw [if_neg (by simp [kind]), interpret, kind]
    simp only [runActions, called]
    exact congrArg (Program.call _ _ _) (funext fun answer => by cases answer <;> rfl)
  · rw [if_pos kind, fanOut, kind]
    simp only [called]
    exact congrArg (Program.call _ _ _) (funext fun answer => by cases answer <;> rfl)

theorem fanOutAll_eq_request {actions : List Action} (called : engine.callable p s = .ok actions)
    (xs : List Lasting) (start : Nat) :
    fanOutAll p s data = (requested s .together data actions xs start).request
      (answered s fun replies => .ok (actions.zip replies)) := by
  have resolved := resolve_eq_ok_iff.2 (callable_eq_ok_iff.1 called).1
  simp only [fanOutAll, resolved]
  exact congrArg (Program.call _ _ _) (funext fun answer => by cases answer <;> rfl)

theorem served_requested {actions : List Action} (called : engine.callable p s = .ok actions)
    {xs : List Lasting} (length : xs.length = actions.length) (order : CallOrder) (start : Nat) :
    (requested s order data actions xs start).Served engine where
  length := length.trans (List.length_map _).symm
  handled call hcall := by
    obtain ⟨a, ha, rfl⟩ := List.mem_map.1 hcall
    exact (callable_eq_ok_iff.1 called).2 a ha

/-- An attempt that is answered on schedule is bounded. -/
theorem bounded_of_await {actions : List Action} (called : engine.callable p s = .ok actions)
    {xs : List Lasting} {order : CallOrder} {f : List Reply → Except StepError α}
    {program : Program (Except StepError α)}
    (asks : program = (requested s order data actions xs m.time).request (answered s f))
    (orderly : m.Orderly) (last : engine.Last data actions xs program m)
    (Own : Except StepError α → Prop)
    (own : Own (f ((requested s order data actions xs m.time).made.map Lasting.reply)))
    (other : ∀ result, Own result → ∀ id ms, result ≠ .error (.timeout id ms)) :
    Bounded s (requested s order data actions xs m.time).takes Own m.time
        (m.await engine program).1 (m.await engine program).2.time ∧
      ∀ c ∈ m.timeline engine program, (requested s order data actions xs m.time).OnTime c := by
  obtain ⟨length, lasts⟩ := last
  have fits :
      ∀ c ∈ m.timeline engine program, (requested s order data actions xs m.time).Fits c := by
    intro c hc here
    obtain ⟨a, action, call⟩ := Option.map_eq_some_iff.1 (List.getElem?_map.symm.trans here)
    exact lasts c hc a action call.symm
  subst asks
  obtain ⟨⟨answer, result, ends⟩, onTime⟩ :=
    Schedule.ends_of_await (served_requested called length order m.time) orderly rfl fits
  refine ⟨?_, onTime⟩
  rw [result]
  generalize (m.await engine _).2.time = time at ends ⊢
  cases ends with
  | settled inTime =>
    exact ⟨fun _ => ⟨own, other _ own, rfl⟩, fun late => absurd inTime (Nat.not_le.2 late)⟩
  | late tooLong => exact ⟨fun early => absurd tooLong (Nat.not_le.2 early), fun _ => ⟨rfl, rfl⟩⟩

theorem OwnOutcome.ne_timeout {kind : StepKind} {actions : List Action} {xs : List Lasting}
    {result : Except StepError Json} (h : OwnOutcome kind actions xs result) (id : String)
    (ms : UInt64) : result ≠ .error (.timeout id ms) := by
  cases h <;> nofun

theorem ownOutcome_of_outputs {actions : List Action} {xs : List Lasting}
    (length : xs.length = actions.length) (kind : StepKind) :
    OwnOutcome kind actions xs ((outputs actions (xs.map Lasting.reply)).map fun values =>
      presented kind (actions, values)) := by
  rcases Lasting.outputs_cases length with ⟨values, each, outputs⟩ |
    ⟨i, a, x, failure, action, here, ending, before, outputs⟩
  · rw [outputs]
    exact .succeeds each
  · rw [outputs]
    exact .fails action here ending before

/-! ## Waits -/

/-- What the configuration of a wait says is a number of milliseconds, or nothing. -/
theorem duration_eq_ok_iff {ms : Nat} : engine.duration s = .ok ms ↔ engine.Lasts s ms := by
  constructor
  · intro h
    unfold duration at h
    split at h
    · next told =>
      cases h
      exact .default (.inl told)
    · next told =>
      cases h
      exact .default (.inr told)
    · next value _ told =>
      split at h
      · next word number =>
        cases h
        rw [Json.asUInt64?_eq_some_iff.1 number] at told
        exact .configured told
      · cases h
  · intro h
    cases h with
    | @configured word told =>
      have number : (Json.ofUInt64 word).asUInt64? = some word :=
        Json.asUInt64?_eq_some_iff.2 rfl
      rw [duration, told]
      dsimp only [Json.ofUInt64] at number ⊢
      rw [number]
    | default silent =>
      rcases silent with told | told <;> rw [duration, told]

/-- A wait takes as long as it lasts, but no longer than the longest sleep. -/
theorem bounded_wait (kind : s.kind = .wait) {ms : Nat} (lasts : engine.duration s = .ok ms)
    (orderly : m.Orderly) :
    Bounded s (Sleep.lasting ms) (· = .ok (.ofMembers [("waited", .ofNat ms)])) m.time
      (m.await engine (engine.attempt p s data)).1
      (m.await engine (engine.attempt p s data)).2.time := by
  let result : Except StepError Json :=
    if limit s < Sleep.lasting ms then .error (timedOut s)
    else .ok (.ofMembers [("waited", .ofNat ms)])
  have sleeps : engine.attempt p s data =
      .sleep (min (Sleep.lasting ms) (limit s)) (.done result) := by
    rw [attempt, if_neg (by simp [kind]), interpret, kind]
    simp only [wait, lasts]
    refine congrArg (Program.sleep _) ?_
    unfold result
    split <;> rfl
  have within : min (Sleep.lasting ms) (limit s) ≤ Sleep.longest :=
    Nat.le_trans (Nat.min_le_left _ _) (Nat.min_le_right _ _)
  rw [sleeps]
  obtain ⟨same, time⟩ : (m.await engine (.sleep _ (.done result))).1 = result ∧ _ :=
    Machine.sleeps_of_await orderly within result
  rw [same, time]
  unfold result
  constructor
  · intro (early : Sleep.lasting ms < limit s)
    rw [if_neg (Nat.not_lt.2 (Nat.le_of_lt early)), Nat.min_eq_left (Nat.le_of_lt early)]
    exact ⟨rfl, by simp, rfl⟩
  · intro (late : limit s < Sleep.lasting ms)
    rw [if_pos late, Nat.min_eq_right (Nat.le_of_lt late)]
    exact ⟨rfl, rfl⟩

/-- A wait of 317 years, for which there are 32 years. -/
def hibernation : Step :=
  ⟨"hibernate", "nightly", "Hibernate", "", .wait, [], [], .stop, 1000000000000, 0,
    .ofMembers [("duration", .ofNat 10000000000000)], default, anonymous⟩

/-- The wait is longer than it may take, but it succeeds after 30 years. -/
theorem hibernation_succeeds :
    bare.duration hibernation = .ok 10000000000000 ∧ limit hibernation < 10000000000000 ∧
      (idle.await bare (bare.attempt chimes hibernation .null)).1 =
        .ok (.ofMembers [("waited", .ofNat 10000000000000)]) ∧
      (idle.await bare (bare.attempt chimes hibernation .null)).2.time = 946080000000 := by
  have lasts : bare.duration hibernation = .ok 10000000000000 := by rfl
  have orderly : idle.Orderly := ⟨.nil, nofun, nofun⟩
  have bounded : Bounded hibernation _ _ idle.time
      (idle.await bare (bare.attempt chimes hibernation .null)).1 _ :=
    bounded_wait rfl lasts orderly
  obtain ⟨succeeds, -, time⟩ := bounded.inTime (by decide)
  exact ⟨lasts, by decide, succeeds, time⟩

/-! ## The bound -/

/-- The time of a step bounds an attempt at it, whatever goes on in the background: the sum of what
its handlers take up to the first failure, the maximum of what they take if all are called at once,
or the length of the wait. No handler is called one after the other whose turn comes when the time
is up. -/
theorem timeout_bounds_attempt (engine : Engine σ) (p : Plan) (s : Step) (data : Json)
    {m : Machine σ} (orderly : m.Orderly) :
    (∀ actions xs, p.Lists s actions → (∀ a ∈ actions, engine.handles a = true) →
      (s.kind = .action ∨ s.kind = .parallel →
        engine.Last data actions xs (engine.attempt p s data) m →
        Bounded s (taking s.kind xs) (OwnOutcome s.kind actions xs) m.time
          (m.await engine (engine.attempt p s data)).1
          (m.await engine (engine.attempt p s data)).2.time ∧
        (s.kind = .action → ∀ c ∈ m.timeline engine (engine.attempt p s data),
          (∃ a, actions[c.slot]? = some a ∧
              c.call = ⟨Template.interpolateAction data a, data⟩) ∧
            c.time = m.time + altogether (xs.take c.slot) ∧
            altogether (xs.take c.slot) < s.timeoutMs.toNat)) ∧
      (engine.Last data actions xs (fanOutAll p s data) m →
        Bounded s (longest xs) (· = .ok (actions.zip (xs.map Lasting.reply))) m.time
          (m.await engine (fanOutAll p s data)).1
          (m.await engine (fanOutAll p s data)).2.time)) ∧
    (s.kind = .wait → ∀ ms, engine.Lasts s ms →
      Bounded s (min ms 946080000000) (· = .ok (.ofMembers [("waited", .ofNat ms)])) m.time
        (m.await engine (engine.attempt p s data)).1
        (m.await engine (engine.attempt p s data)).2.time) := by
  refine ⟨?_, fun kind ms lasts => bounded_wait kind (duration_eq_ok_iff.2 lasts) orderly⟩
  intro actions xs lists handled
  have called : engine.callable p s = .ok actions := callable_eq_ok_iff.2 ⟨lists, handled⟩
  refine ⟨?_, ?_⟩
  · intro kind last
    have takes :
        (requested s (orderOf s.kind) data actions xs m.time).takes = taking s.kind xs := by
      rcases kind with kind | kind <;> rw [kind] <;> rfl
    have own : OwnOutcome s.kind actions xs ((outputs actions
        ((requested s (orderOf s.kind) data actions xs m.time).made.map Lasting.reply)).map
          fun values => presented s.kind (actions, values)) := by
      have all := ownOutcome_of_outputs last.1 s.kind
      rcases kind with kind | kind
      · rw [← Lasting.outputs_upToFailure] at all
        rw [kind] at all ⊢
        exact all
      · rw [kind] at all ⊢
        exact all
    obtain ⟨bounded, onTime⟩ := bounded_of_await called
      (attempt_eq_request kind called xs m.time) orderly last _ own fun _ => OwnOutcome.ne_timeout
    rw [takes] at bounded
    refine ⟨bounded, ?_⟩
    intro inTurn c hc
    obtain ⟨here, turn, early⟩ := onTime c hc
    obtain ⟨a, action, call⟩ := Option.map_eq_some_iff.1 (List.getElem?_map.symm.trans here)
    have time : c.time = m.time + altogether (xs.take c.slot) := by
      rw [inTurn] at turn
      exact turn
    have before : c.time < m.time + s.timeoutMs.toNat := early
    exact ⟨⟨a, action, call.symm⟩, time, by omega⟩
  · intro last
    refine (bounded_of_await called (fanOutAll_eq_request called xs m.time) orderly last
      (· = .ok (actions.zip (xs.map Lasting.reply))) rfl ?_).1
    rintro _ rfl
    nofun

/-- The gong fails after 3 milliseconds if it is rung after the bell, and after 2 if both are rung
at once. In 2 milliseconds it cannot be rung after the bell. -/
theorem timeout_bounds_attempt_chimes :
    let peal : Step := { chime with kind := .action }
    let hurried : Step := { peal with timeoutMs := 2 }
    let rung (s : Step) := idle.await (belfry 1 2) ((belfry 1 2).attempt chimes s .null)
    idle.Orderly ∧
      ((∀ id ms, (rung peal).1 ≠ .error (.timeout id ms)) ∧ (rung peal).2.time = 3) ∧
      ((∀ id ms, (rung chime).1 ≠ .error (.timeout id ms)) ∧ (rung chime).2.time = 2) ∧
      (rung hurried).1 = .error (.timeout "chime" 2) ∧ (rung hurried).2.time = 2 := by
  intro peal hurried rung
  have orderly : idle.Orderly := ⟨.nil, nofun, nofun⟩
  let rung_both : List Action :=
    [⟨"bell", "Bell", "", "bell", "", [], .emptyObject, default, anonymous⟩,
      ⟨"gong", "Gong", "", "gong", "", [], .emptyObject, default, anonymous⟩]
  have last (s : Step) := last_of_behaves (belfry_behaves 1 2) .null rung_both
    ((belfry 1 2).attempt chimes s .null) idle
  have lists : chimes.Lists chime rung_both := rfl
  have handled : ∀ a ∈ rung_both, (belfry 1 2).handles a = true := by decide
  have pealed := (((timeout_bounds_attempt (belfry 1 2) chimes peal .null orderly).1 _ _ lists
    handled).1 (.inl rfl) (last peal)).1.inTime (by decide)
  have chimed := (((timeout_bounds_attempt (belfry 1 2) chimes chime .null orderly).1 _ _ lists
    handled).1 (.inr rfl) (last chime)).1.inTime (by decide)
  have late := (((timeout_bounds_attempt (belfry 1 2) chimes hurried .null orderly).1 _ _ lists
    handled).1 (.inl rfl) (last hurried)).1.late (by decide)
  exact ⟨orderly, pealed.2, chimed.2, late⟩

end Engine

end EventFlow
