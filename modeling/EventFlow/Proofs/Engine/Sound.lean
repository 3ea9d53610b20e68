import EventFlow.Engine.Run
import EventFlow.Proofs.Engine.Trace
import EventFlow.Proofs.Record.Sound

/-!
# Runs leave sound executions

`Program.Ensures P p` says that whatever `p` ends with satisfies `P`, if the clock tells regular
points of time and handlers answer with values in key order. What a program ensures, it ensures of
every run that it may have (`Ensures.of_performs`). A run of a workflow over a value in key order
ensures that its execution is sound (`Engine.ensures_run`): the context it works in is in key order,
and so is all that its steps make of the outputs of handlers. The run is `Engine.run`
(`EventFlow.Engine.Run`), and the context is `Engine.context`.
-/

set_option autoImplicit false

namespace EventFlow

variable {σ α β : Type}

/-- What a reply answers, if it is no failure, has its members in key order. -/
def Reply.Canonical (reply : Reply) : Prop := ∀ output, reply = .ok output → output.Canonical

/-- The effect is one of a world that keeps to the rules: its clock tells regular points of time,
and the outputs of its handlers have their members in key order. -/
def Effect.Sound : Effect → Prop
  | .readClock time => time.Regular
  | .called served => ∀ s ∈ served, Reply.Canonical s.reply
  | _ => True

/-! ## Programs -/

/-- Whatever a program ends with has a property, in a world that keeps to the rules. -/
def Program.Ensures (P : α → Prop) : Program α → Prop
  | .done a => P a
  | .clock next => ∀ time, time.Regular → (next time).Ensures P
  | .collections next => ∀ c, (next c).Ensures P
  | .record _ next => next.Ensures P
  | .sleep _ next => next.Ensures P
  | .call _ _ _ next => ∀ answer : Option (List Reply),
    (∀ replies, answer = some replies → ∀ reply ∈ replies, reply.Canonical) →
      (next answer).Ensures P

/-- A failure holds no value. -/
theorem canonical_of_error {error : DispatchError} : Reply.Canonical (.error error) := nofun

/-- Replies in key order come of handlers that answer so. -/
theorem canonical_of_inTurn {known : String → Bool} {calls : List Invocation}
    {served : List Served} {replies : List Reply} (h : InTurn known calls served replies)
    (sound : ∀ s ∈ served, Reply.Canonical s.reply) : ∀ reply ∈ replies, Reply.Canonical reply := by
  induction h with
  | nil => exact nofun
  | unknown rest h => exact List.forall_mem_singleton.2 canonical_of_error
  | failed rest h fails => exact List.forall_mem_singleton.2 (sound _ List.mem_cons_self)
  | next h succeeds others ih =>
    obtain ⟨first, later⟩ := List.forall_mem_cons.1 sound
    exact List.forall_mem_cons.2 ⟨first, ih later⟩

/-- What is heard of calls that are made together is canonical if what handlers answer is. -/
theorem canonical_of_together {known : String → Bool} {calls : List Invocation}
    {served : List Served} {replies : List Reply} (h : Together known calls served replies)
    (sound : ∀ s ∈ served, Reply.Canonical s.reply) : ∀ reply ∈ replies, Reply.Canonical reply := by
  induction h with
  | nil => exact nofun
  | unknown h others ih => exact List.forall_mem_cons.2 ⟨canonical_of_error, ih sound⟩
  | known h others ih =>
    obtain ⟨first, later⟩ := List.forall_mem_cons.1 sound
    exact List.forall_mem_cons.2 ⟨first, ih later⟩

/-- What is heard of calls is in key order, in whichever order they are made. -/
theorem canonical_of_answers {known : String → Bool} {order : CallOrder} {calls : List Invocation}
    {served : List Served} {answer : Option (List Reply)}
    (h : Answers known order calls served answer) (sound : ∀ s ∈ served, Reply.Canonical s.reply) :
    ∀ replies, answer = some replies → ∀ reply ∈ replies, Reply.Canonical reply := by
  cases h with
  | inTurn h =>
    intro replies same
    cases same
    exact canonical_of_inTurn h sound
  | together h anyOrder =>
    intro replies same
    cases same
    exact canonical_of_together h fun s hs => sound s (anyOrder.mem_iff.2 hs)
  | inTurnLate first succeed => exact nofun
  | togetherLate apart => exact nofun

namespace Program

variable {P : α → Prop} {Q : β → Prop}

/-- A program that is done ensures what its result has. -/
theorem ensures_pure {a : α} (h : P a) : (pure a : Program α).Ensures P := h

/-- What a program ensures may be used by those behind it. -/
theorem Ensures.bind {p : Program α} {f : α → Program β} (hp : p.Ensures P)
    (hf : ∀ a, P a → (f a).Ensures Q) : (p >>= f).Ensures Q := by
  change (p.bind f).Ensures Q
  induction p with
  | done a => exact hf a hp
  | clock next ih => exact fun time regular => ih time (hp time regular)
  | collections next ih => exact fun c => ih c (hp c)
  | record e next ih => exact ih hp
  | sleep ms next ih => exact ih hp
  | call limit order calls next ih => exact fun answer sound => ih answer (hp answer sound)

/-- The clock says times that exist. -/
theorem ensures_now : now.Ensures Instant.Regular := fun _ regular => regular

theorem ensures_pause (ms : Nat) : (pause ms).Ensures fun _ => True := trivial

/-- Handlers are relied on to answer with canonical values, which is what all of this comes from. -/
theorem ensures_invoke (limit : Option Nat) (order : CallOrder) (calls : List Invocation) :
    (invoke limit order calls).Ensures fun answer =>
      ∀ replies, answer = some replies → ∀ reply ∈ replies, Reply.Canonical reply :=
  fun _ sound => sound

/-- What a program ensures holds at the end of every run that it may have. -/
theorem Ensures.of_performs {p : Program α} {known : String → Bool} {effects : List Effect} {a : α}
    (hp : p.Ensures P) (h : Performs known p effects a) (sound : ∀ f ∈ effects, f.Sound) : P a := by
  induction h with
  | done a => exact hp
  | clock time h ih =>
    obtain ⟨regular, later⟩ := List.forall_mem_cons.1 sound
    exact ih (hp time regular) later
  | collections c h ih => exact ih (hp c) (List.forall_mem_cons.1 sound).2
  | record e h ih => exact ih hp (List.forall_mem_cons.1 sound).2
  | sleep ms h ih => exact ih hp (List.forall_mem_cons.1 sound).2
  | call answered h ih =>
    obtain ⟨replies, later⟩ := List.forall_mem_cons.1 sound
    exact ih (hp _ (canonical_of_answers answered replies)) later

end Program

/-! ## Executions -/

namespace Execution

variable {e : Execution}

/-- A result with a canonical output keeps an execution sound. -/
theorem sound_pushResult (h : Sound Instant.Regular e) (stepId stepName : String) {output : Json}
    {time : Instant} (value : output.Canonical) (regular : time.Regular) :
    Sound Instant.Regular (e.pushResult stepId stepName output time) := by
  obtain ⟨data, index, results, errors, started, completed⟩ := sound_iff.1 h
  refine sound_iff.2 ⟨data, index, ?_, errors, started, completed⟩
  apply List.forall_mem_append.2 ⟨results, ?_⟩
  exact List.forall_mem_singleton.2 (StepResult.sound_iff.2 ⟨value, regular⟩)

/-- An error at an index that fits into its field keeps an execution sound. -/
theorem sound_pushError (h : Sound Instant.Regular e) {index : Nat} (stepId message : String)
    {time : Instant} (small : index < UInt64.size) (regular : time.Regular) :
    Sound Instant.Regular (e.pushError index stepId message time) := by
  obtain ⟨data, current, results, errors, started, completed⟩ := sound_iff.1 h
  refine sound_iff.2 ⟨data, current, results, ?_, started, completed⟩
  apply List.forall_mem_append.2 ⟨errors, ?_⟩
  exact List.forall_mem_singleton.2 (ExecutionError.sound_iff.2 ⟨small, regular⟩)

/-- To end keeps an execution sound, whatever its status. -/
theorem sound_finish (h : Sound Instant.Regular e) (status : ExecutionStatus) {time : Instant}
    (regular : time.Regular) : Sound Instant.Regular (e.finish status time) := by
  unfold finish
  split
  · obtain ⟨data, index, results, errors, started, -⟩ := sound_iff.1 h
    refine sound_iff.2 ⟨data, index, results, errors, started, fun t told => ?_⟩
    cases told
    exact regular
  · exact h

theorem sound_place (h : Sound Instant.Regular e) {index : Nat} (small : index < UInt64.size) :
    Sound Instant.Regular { e with currentStepIndex := index } := by
  obtain ⟨data, -, results, errors, started, completed⟩ := sound_iff.1 h
  exact sound_iff.2 ⟨data, small, results, errors, started, completed⟩

/-- An execution is sound from the beginning if its data is canonical. -/
theorem sound_begin (w : Workflow) {data : Json} (value : data.Canonical) (createdBy : String)
    {supply : Supply} (clock : supply.clock.Regular) :
    Sound Instant.Regular (Execution.begin w data createdBy supply).1 :=
  sound_iff.2 ⟨value, (by decide : 0 < UInt64.size), nofun, nofun, clock, nofun⟩

end Execution

namespace Engine

open Program

/-! ## Attempts -/

/-- What comes of an attempt, if it does not fail, has a property. -/
def Succeeding (P : α → Prop) (r : Except StepError α) : Prop := ∀ a, r = .ok a → P a

variable {P : α → Prop}

theorem succeeding_error (e : StepError) : Succeeding P (.error e) := nofun

theorem succeeding_ok {a : α} (h : P a) : Succeeding P (.ok a) := by
  intro b same
  cases same
  exact h

/-- What is made of a success has what follows from it; a failure stays one. -/
theorem Succeeding.map {Q : β → Prop} {r : Except StepError α} {f : α → β} (h : Succeeding P r)
    (along : ∀ a, P a → Q (f a)) : Succeeding Q (r.map f) := by
  cases r with
  | error e => exact succeeding_error e
  | ok a => exact succeeding_ok (along a (h a rfl))

/-- The outputs of a step are canonical if all replies are. -/
theorem succeeding_outputs {actions : List Action} {replies : List Reply}
    (h : ∀ reply ∈ replies, Reply.Canonical reply) :
    Succeeding (∀ v ∈ ·, Json.Canonical v) (outputs actions replies) := by
  induction actions generalizing replies with
  | nil => exact succeeding_ok (List.forall_mem_nil _)
  | cons a actions ih =>
    cases replies with
    | nil => exact succeeding_ok (List.forall_mem_nil _)
    | cons reply replies =>
      obtain ⟨first, later⟩ := List.forall_mem_cons.1 h
      cases reply with
      | error e => exact succeeding_error _
      | ok output =>
        exact (ih later).map fun values others => List.forall_mem_cons.2 ⟨first output rfl, others⟩

/-- The entry of an action that has succeeded is canonical: its keys are in order. -/
theorem canonical_outputEntry (a : Action) {output : Json} (h : output.Canonical) :
    (outputEntry a output).Canonical := by
  apply Json.canonical_ofMembers
  simp only [List.forall_mem_cons, List.not_mem_nil]
  exact ⟨trivial, h, nofun⟩

/-- The entry of an action that has failed is canonical as well. -/
theorem canonical_errorEntry (a : Action) (text : String) : (errorEntry a text).Canonical := by
  apply Json.canonical_ofMembers
  simp only [List.forall_mem_cons, List.not_mem_nil]
  exact ⟨trivial, trivial, nofun⟩

variable (engine : Engine σ) (p : Plan) (s : Step) (data : Json)

/-- The replies to the calls of a step are canonical. -/
theorem ensures_callAll (order : CallOrder) (actions : List Action) :
    (callAll s order data actions).Ensures
      (Succeeding fun replies => ∀ reply ∈ replies, Reply.Canonical reply) := by
  refine .bind (ensures_invoke _ order _) fun answer sound => ?_
  cases answer with
  | some replies => exact ensures_pure (succeeding_ok (sound replies rfl))
  | none => exact ensures_pure (succeeding_error _)

theorem ensures_runActions :
    (engine.runActions p s data).Ensures (Succeeding Json.Canonical) := by
  unfold runActions
  split
  · exact ensures_pure (succeeding_error _)
  · refine .bind (ensures_callAll s data .inTurn _) fun r sound => ?_
    cases r with
    | error e => exact ensures_pure (succeeding_error e)
    | ok replies =>
      exact ensures_pure ((succeeding_outputs (sound replies rfl)).map fun _ =>
        Json.canonical_array)

theorem ensures_wait : (engine.wait s).Ensures (Succeeding Json.Canonical) := by
  unfold wait
  split
  · exact ensures_pure (succeeding_error _)
  · refine .bind (ensures_pause _) fun _ _ => ?_
    split
    · exact ensures_pure (succeeding_error _)
    · apply ensures_pure
      apply succeeding_ok
      exact Json.canonical_ofMembers (List.forall_mem_singleton.2 trivial)

theorem ensures_fanOut : (engine.fanOut p s data).Ensures (Succeeding Json.Canonical) := by
  unfold fanOut
  split
  · exact ensures_pure (succeeding_error _)
  · next actions _ =>
    refine .bind (ensures_callAll s data .together _) fun r sound => ?_
    cases r with
    | error e => exact ensures_pure (succeeding_error e)
    | ok replies =>
      apply ensures_pure
      refine (succeeding_outputs (sound replies rfl)).map fun values canonical => ?_
      apply Json.canonical_array
      intro v hv
      rw [← List.map_uncurry_zip_eq_zipWith] at hv
      obtain ⟨⟨a, output⟩, pair, rfl⟩ := List.mem_map.1 hv
      exact canonical_outputEntry a (canonical output (List.of_mem_zip pair).2)

/-- The output of an attempt is canonical, of whatever kind the step is. -/
theorem ensures_attempt : (engine.attempt p s data).Ensures (Succeeding Json.Canonical) := by
  unfold attempt
  split
  · exact engine.ensures_fanOut p s data
  · unfold interpret
    split
    · exact engine.ensures_runActions p s data
    · apply ensures_pure
      exact Succeeding.map (P := fun _ => True) (fun _ _ => trivial) fun _ _ => trivial
    · exact engine.ensures_wait s
    · exact ensures_pure (succeeding_error _)

theorem ensures_fanOutAll : (fanOutAll p s data).Ensures
    (Succeeding fun replies => ∀ r ∈ replies, Reply.Canonical r.2) := by
  unfold fanOutAll
  split
  · exact ensures_pure (succeeding_error _)
  · refine .bind (ensures_callAll s data .together _) fun r sound => ?_
    cases r with
    | error e => exact ensures_pure (succeeding_error e)
    | ok replies =>
      apply ensures_pure
      apply succeeding_ok
      intro r hr
      exact sound replies rfl r.2 (List.of_mem_zip hr).2

/-! ## Runs -/

variable {place : Place} {e : Execution}

/-- A place whose index has 64 bits. -/
def Place.Small (place : Place) : Prop := place.index < UInt64.size

/-- The result that is noted has the time of the clock and an output that is canonical. -/
theorem ensures_noteResult (h : Sound Instant.Regular e) {output : Json}
    (value : output.Canonical) :
    (noteResult s output e).Ensures (Sound Instant.Regular) := by
  refine .bind ensures_now fun time regular => ?_
  exact ensures_pure (Execution.sound_pushResult h _ _ value regular)

theorem ensures_noteError (h : Sound Instant.Regular e) (small : place.Small) (text : String) :
    (noteError place text e).Ensures (Sound Instant.Regular) := by
  refine .bind ensures_now fun time regular => ?_
  exact ensures_pure (Execution.sound_pushError h _ _ small regular)

theorem ensures_succeed (h : Sound Instant.Regular e) {output : Json} (value : output.Canonical) :
    (succeed s output e).Ensures fun r => Sound Instant.Regular r.2 := by
  unfold succeed
  split
  · exact ensures_pure h
  · exact .bind (ensures_noteResult s h value) fun e sound => ensures_pure sound

theorem ensures_passOver (h : Sound Instant.Regular e) (small : place.Small) (text : String) :
    (passOver place text e).Ensures fun r => Sound Instant.Regular r.2 := by
  refine .bind (ensures_noteError h small text) fun e sound => ?_
  have entry : (Json.ofMembers [("error", .string text)]).Canonical :=
    Json.canonical_ofMembers (List.forall_mem_singleton.2 trivial)
  exact .bind (ensures_noteResult _ sound entry) fun e sound => ensures_pure sound

/-- The entries of a parallel step are in key order, and the errors it records are sound. -/
theorem ensures_noteReplies (small : place.Small) {replies : List (Action × Reply)}
    (canonical : ∀ r ∈ replies, Reply.Canonical r.2) (h : Sound Instant.Regular e) :
    (noteReplies place replies e).Ensures fun r =>
      (∀ v ∈ r.1, Json.Canonical v) ∧ Sound Instant.Regular r.2 := by
  induction replies generalizing e with
  | nil => exact ensures_pure ⟨nofun, h⟩
  | cons first rest ih =>
    obtain ⟨a, reply⟩ := first
    obtain ⟨here, later⟩ := List.forall_mem_cons.1 canonical
    cases reply with
    | ok output =>
      refine .bind (ih later h) fun r sound => ?_
      have entry := canonical_outputEntry a (here output rfl)
      exact ensures_pure ⟨List.forall_mem_cons.2 ⟨entry, sound.1⟩, sound.2⟩
    | error error =>
      refine .bind (ensures_noteError h small _) fun e noted => ?_
      refine .bind (ih later noted) fun r sound => ?_
      exact ensures_pure ⟨List.forall_mem_cons.2 ⟨canonical_errorEntry a _, sound.1⟩, sound.2⟩

/-- A step that is tried once keeps its execution sound. -/
theorem ensures_runOnce (h : Sound Instant.Regular e) (small : place.Small) :
    (engine.runOnce p data place e).Ensures fun r => Sound Instant.Regular r.2 := by
  refine .bind (engine.ensures_attempt p place.step data) fun r succeeding => ?_
  cases r with
  | ok output => exact ensures_succeed _ h (succeeding output rfl)
  | error error =>
    exact .bind (ensures_noteError h small _) fun e sound => ensures_pure sound

/-- A step that is passed over when it fails keeps its execution sound. -/
theorem ensures_runAnyway (h : Sound Instant.Regular e) (small : place.Small) :
    (engine.runAnyway p data place e).Ensures fun r => Sound Instant.Regular r.2 := by
  unfold runAnyway
  split
  · refine .bind (ensures_fanOutAll p place.step data) fun r succeeding => ?_
    cases r with
    | error error => exact ensures_passOver h small _
    | ok replies =>
      refine .bind (ensures_noteReplies small (succeeding replies rfl) h) fun r sound => ?_
      have entries := Json.canonical_array sound.1
      exact .bind (ensures_noteResult _ sound.2 entries) fun e sound => ensures_pure sound
  · refine .bind (engine.ensures_attempt p place.step data) fun r succeeding => ?_
    cases r with
    | ok output => exact ensures_succeed _ h (succeeding output rfl)
    | error error => exact ensures_passOver h small _

/-- A step that is tried again keeps its execution sound, by induction on the attempts left. -/
theorem ensures_runAgain (small : place.Small) (total left : Nat) (h : Sound Instant.Regular e) :
    (engine.runAgain p data place total left e).Ensures fun r => Sound Instant.Regular r.2 := by
  induction left generalizing e with
  | zero => exact ensures_pure h
  | succ left ih =>
    refine .bind (engine.ensures_attempt p place.step data) fun r succeeding => ?_
    cases r with
    | ok output => exact ensures_succeed _ h (succeeding output rfl)
    | error error =>
      refine .bind (ensures_noteError h small _) fun e sound => ?_
      split
      · exact ensures_pure sound
      · exact .bind (ensures_pause _) fun _ _ => ih sound

/-- Every step does, whatever its policy. -/
theorem ensures_runStep (h : Sound Instant.Regular e) (small : place.Small) :
    (engine.runStep p data place e).Ensures fun r => Sound Instant.Regular r.2 := by
  unfold runStep
  split
  · exact engine.ensures_runOnce p data h small
  · exact engine.ensures_runAnyway p data h small
  · exact engine.ensures_runAgain p data small _ _ h

/-- An execution is sound when it has ended. -/
theorem ensures_finished (status : ExecutionStatus) (h : Sound Instant.Regular e) :
    (finished status e).Ensures (Sound Instant.Regular) := by
  refine .bind ensures_now fun time regular => ?_
  exact ensures_pure (Execution.sound_finish h status regular)

/-- A run from an index on keeps its execution sound, if no index is too large. -/
theorem ensures_runFrom (index : Nat) (entries : List PlanEntry)
    (small : index + entries.length ≤ UInt64.size) (h : Sound Instant.Regular e) :
    (engine.runFrom p data index entries e).Ensures (Sound Instant.Regular) := by
  induction entries generalizing index e with
  | nil => exact ensures_finished .completed h
  | cons entry rest ih =>
    rw [List.length_cons] at small
    -- The index counts the entries that have gone before, so it is smaller than their number.
    have here : index < UInt64.size := by omega
    have placed := Execution.sound_place h here
    unfold runFrom
    dsimp only
    split
    · refine .bind ensures_now fun time regular => ?_
      exact ensures_finished .failed (Execution.sound_pushError placed _ _ here regular)
    · next s _ =>
      refine .bind (engine.ensures_runStep p data placed here) fun r sound => ?_
      obtain ⟨flow, e⟩ := r
      cases flow with
      | proceed => exact ih (index + 1) (by omega) sound
      | halt status => exact ensures_finished status sound

/-- The context of a run is in key order, if the defaults and the data are. -/
theorem canonical_context {defaults data : Json} (hdefaults : defaults.Canonical)
    (hdata : data.Canonical) : (context defaults data).Canonical := by
  -- The data are always laid over an object: over the defaults, or over the empty object where the
  -- defaults are none.
  have laid (base : List (String × Json)) (below : (Json.object base).Canonical) :
      (context (.object base) data).Canonical := by
    have values := Json.canonicalMembers_iff.1 below.2
    have payload : (Json.object (Assoc.insert "payload" data base)).Canonical := by
      refine Json.canonical_object (Assoc.ascending_insert _ data below.1) fun m hm => ?_
      rcases Assoc.mem_insert hm with rfl | old
      · exact hdata
      · exact values m old
    cases data with
    | object members =>
      refine Json.canonical_object (Assoc.ascending_overlay below.1 members) fun m hm => ?_
      rcases Assoc.mem_overlay hm with upper | lower
      · exact Json.canonicalMembers_iff.1 hdata.2 m upper
      · exact values m lower
    | null => exact below
    | _ => exact payload
  cases defaults with
  | object members => exact laid members hdefaults
  | _ => exact laid [] Json.canonical_emptyObject

/-- A run of a workflow over data leaves a sound execution. -/
theorem ensures_run {w : Workflow} (defaults : w.defaults.Canonical) {data : Json}
    (value : data.Canonical) {supply : Supply} (clock : supply.clock.Regular)
    (short : w.stepIds.length ≤ UInt64.size) (c : Collections) :
    (engine.run (Plan.ofCollections c w) (engine.prepare w data supply).1).Ensures
      (Sound Instant.Regular) := by
  apply ensures_runFrom
  · rw [Nat.zero_add]
    exact Nat.le_trans (Nat.le_of_eq (List.length_map _)) short
  · exact Execution.sound_begin w (canonical_context defaults value) _ clock

end Engine

end EventFlow
