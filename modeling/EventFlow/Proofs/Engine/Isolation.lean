import EventFlow.Engine.Machine
import EventFlow.Proofs.Engine.Account
import EventFlow.Proofs.Engine.Snapshot

/-!
# Edits do not reach a run

A run never asks for the collections of the store (`Engine.blind_run`): it has its plan. So the
store may be edited while the run is under way, before anything that happens (`Scene.runAmid`), and
what becomes of the run is the same, as long as nobody else tells it of the edits: the handlers see
no more of the world than a view that the store's file is no part of (`Engine.Overlooks`), and the
runs in the background have taken their plans (`Agent.Blind`). Two machines that differ only in
their stores and in what the view leaves out are twins (`Machine.Twin`), and every step of a scene
keeps them so (`Scene.Twin.next`). The run is `Engine.run` (`EventFlow.Engine.Run`), and the plan is
taken by `Plan.ofCollections` (`EventFlow.Engine.Plan`).
-/

set_option autoImplicit false

namespace EventFlow

variable {σ τ α β : Type}

/-! ## Programs that do not look -/

/-- The program never asks for the collections of the store, whatever it is answered. -/
def Program.Blind : Program α → Prop
  | .done _ => True
  | .clock next => ∀ time, (next time).Blind
  | .collections _ => False
  | .record _ next => next.Blind
  | .sleep _ next => next.Blind
  | .call _ _ _ next => ∀ answer, (next answer).Blind

namespace Program

/-- A program that is done does not look. -/
theorem blind_pure (a : α) : (pure a : Program α).Blind := trivial

/-- A program that goes on blindly does not look either. -/
theorem Blind.bind {p : Program α} {f : α → Program β} (hp : p.Blind) (hf : ∀ a, (f a).Blind) :
    (p >>= f).Blind := by
  change (p.bind f).Blind
  induction p with
  | done a => exact hf a
  | clock next ih => exact fun time => ih time (hp time)
  | collections next ih => exact hp.elim
  | record e next ih => exact ih hp
  | sleep ms next ih => exact ih hp
  | call limit order calls next ih => exact fun answer => ih answer (hp answer)

theorem blind_now : now.Blind := fun _ => trivial

theorem blind_pause (ms : Nat) : (pause ms).Blind := trivial

theorem blind_recorded (e : Execution) : (recorded e).Blind := trivial

/-- Calls go to handlers, not to the store. -/
theorem blind_invoke (limit : Option Nat) (order : CallOrder) (calls : List Invocation) :
    (invoke limit order calls).Blind := fun _ => trivial

end Program

namespace Engine

open Program

variable (engine : Engine σ) (p : Plan) (s : Step) (place : Place) (data : Json) (e : Execution)

/-- An attempt that calls all actions of a step asks the handlers only. -/
theorem blind_callAll (order : CallOrder) (actions : List Action) :
    (callAll s order data actions).Blind :=
  (blind_invoke _ _ _).bind fun
    | some _ => blind_pure _
    | none => blind_pure _

theorem blind_runActions : (engine.runActions p s data).Blind := by
  unfold runActions
  split
  · exact blind_pure _
  · exact (blind_callAll s data _ _).bind fun
      | .error _ => blind_pure _
      | .ok _ => blind_pure _

theorem blind_wait : (engine.wait s).Blind := by
  unfold wait
  split
  · exact blind_pure _
  · refine (blind_pause _).bind fun _ => ?_
    split <;> exact blind_pure _

theorem blind_fanOut : (engine.fanOut p s data).Blind := by
  unfold fanOut
  split
  · exact blind_pure _
  · exact (blind_callAll s data _ _).bind fun
      | .error _ => blind_pure _
      | .ok _ => blind_pure _

/-- No attempt at a step looks, of whatever kind the step is. -/
theorem blind_attempt : (engine.attempt p s data).Blind := by
  unfold attempt interpret
  split
  · exact engine.blind_fanOut p s data
  · split
    · exact engine.blind_runActions p s data
    · exact blind_pure _
    · exact engine.blind_wait s
    · exact blind_pure _

theorem blind_fanOutAll : (fanOutAll p s data).Blind := by
  unfold fanOutAll
  split
  · exact blind_pure _
  · exact (blind_callAll s data _ _).bind fun
      | .error _ => blind_pure _
      | .ok _ => blind_pure _

/-- To note a result is to read the clock. -/
theorem blind_noteResult (output : Json) : (noteResult s output e).Blind :=
  blind_now.bind fun _ => blind_pure _

theorem blind_noteError (text : String) : (noteError place text e).Blind :=
  blind_now.bind fun _ => blind_pure _

theorem blind_succeed (output : Json) : (succeed s output e).Blind := by
  unfold succeed
  split
  · exact blind_pure _
  · exact (blind_noteResult s e output).bind fun _ => blind_pure _

theorem blind_passOver (text : String) : (passOver place text e).Blind :=
  (blind_noteError place e text).bind fun e =>
    (blind_noteResult place.step e _).bind fun _ => blind_pure _

theorem blind_noteReplies (replies : List (Action × Reply)) :
    (noteReplies place replies e).Blind := by
  induction replies generalizing e with
  | nil => exact blind_pure _
  | cons entry rest ih =>
    obtain ⟨a, _ | _⟩ := entry
    · exact (blind_noteError place e _).bind fun e => (ih e).bind fun _ => blind_pure _
    · exact (ih e).bind fun _ => blind_pure _

theorem blind_runOnce : (engine.runOnce p data place e).Blind :=
  (engine.blind_attempt p place.step data).bind fun
    | .ok output => blind_succeed place.step e output
    | .error _ => (blind_noteError place e _).bind fun _ => blind_pure _

theorem blind_runAnyway : (engine.runAnyway p data place e).Blind := by
  unfold runAnyway
  split
  · exact (blind_fanOutAll p place.step data).bind fun
      | .ok replies => (blind_noteReplies place e replies).bind fun (_, e) =>
          (blind_noteResult place.step e _).bind fun _ => blind_pure _
      | .error _ => blind_passOver place e _
  · exact (engine.blind_attempt p place.step data).bind fun
      | .ok output => blind_succeed place.step e output
      | .error _ => blind_passOver place e _

/-- Repetitions do not look, by induction on the attempts left. -/
theorem blind_runAgain (total left : Nat) : (engine.runAgain p data place total left e).Blind := by
  induction left generalizing e with
  | zero => exact blind_pure _
  | succ left ih =>
    refine (engine.blind_attempt p place.step data).bind fun
      | .ok output => blind_succeed place.step e output
      | .error _ => (blind_noteError place e _).bind fun e => ?_
    split
    · exact blind_pure _
    · exact (blind_pause _).bind fun _ => ih e

/-- No step looks, whatever its policy. -/
theorem blind_runStep : (engine.runStep p data place e).Blind := by
  unfold runStep
  split
  · exact engine.blind_runOnce p place data e
  · exact engine.blind_runAnyway p place data e
  · exact engine.blind_runAgain p place data e _ _

theorem blind_finished (status : ExecutionStatus) : (finished status e).Blind :=
  blind_now.bind fun _ => blind_pure _

/-- A run of steps does not look at the store, which is only read before it. -/
theorem blind_runFrom (index : Nat) (entries : List PlanEntry) :
    (engine.runFrom p data index entries e).Blind := by
  induction entries generalizing index e with
  | nil => exact blind_finished e _
  | cons entry rest ih =>
    simp only [runFrom]
    split
    · exact blind_now.bind fun _ => blind_finished _ _
    · refine (engine.blind_runStep p _ data _).bind fun reply => ?_
      obtain ⟨flow, e⟩ := reply
      cases flow with
      | proceed => exact ih e (index + 1)
      | halt status => exact blind_finished e status

/-- Once its plan is taken, a run does not look into the store. -/
theorem blind_run : (engine.run p e).Blind := engine.blind_runFrom p e.data e 0 p.entries

/-- What driving a workflow does after it has seen the collections. -/
def driven (w : Workflow) (c : Collections) : Program Execution := do
  let e ← engine.run (.ofCollections c w) e
  Program.recorded e
  return e

/-- What is left of a run when its plan has been made does not look into the store. -/
theorem blind_driven (w : Workflow) (c : Collections) : (engine.driven e w c).Blind :=
  (engine.blind_run _ e).bind fun e => (blind_recorded e).bind fun _ => blind_pure e

end Engine

/-- The agent goes on with a program that does not look into the store. -/
def Agent.Blind : Agent α → Prop
  | .ready p => p.Blind
  | .asleep _ p => p.Blind
  | .calling _ next => ∀ answer, (next answer).Blind
  | .finished _ => True

/-- To be told a reply does not make an agent look. -/
theorem Agent.Blind.fill {agent : Agent α} (h : agent.Blind) (slot : Nat) (reply : Reply) :
    (agent.fill slot reply).Blind := by
  cases agent <;> exact h

/-! ## Twins -/

/-- Nothing of the store reaches the handlers: they work on what a view shows of the world, and the
view does not show the file of the store. -/
structure Engine.Overlooks (engine : Engine σ) (view : σ → τ) : Prop where
  handlers : ∀ name handler, Assoc.find? name engine.handlers = some handler →
    ∀ call supply world world', view world' = view world →
      (handler call supply world').supply = (handler call supply world).supply ∧
      (handler call supply world').duration = (handler call supply world).duration ∧
      (handler call supply world').reply = (handler call supply world).reply ∧
      view (handler call supply world').world = view (handler call supply world).world
  file : ∀ text world, view (engine.disk.after text world) = view world

/-- Two machines differ only in their stores and in what a view leaves out, and no agent in the
background looks into the store. -/
structure Machine.Twin (view : σ → τ) (m m' : Machine σ) : Prop where
  time : m'.time = m.time
  supply : m'.supply = m.supply
  world : view m'.world = view m.world
  agents : m'.agents = m.agents
  alarms : m'.alarms = m.alarms
  blind : ∀ agent ∈ m.agents, agent.Blind

namespace Machine.Twin

variable {engine : Engine σ} {view : σ → τ} {m m' : Machine σ}

/-- A machine is its own twin if its agents are blind. -/
theorem refl (blind : ∀ agent ∈ m.agents, agent.Blind) : m.Twin view m :=
  ⟨rfl, rfl, rfl, rfl, rfl, blind⟩

/-- Twins for which one alarm is set stay twins. -/
theorem setAlarm (h : m.Twin view m') (a : Alarm) : (m.setAlarm a).Twin view (m'.setAlarm a) :=
  { h with alarms := congrArg a.insert h.alarms }

/-- Twins on which an owner's alarms are cancelled stay twins. -/
theorem cancel (h : m.Twin view m') (owner : Owner) :
    (m.cancel owner).Twin view (m'.cancel owner) :=
  { h with alarms := congrArg (List.filter _) h.alarms }

/-- Twins on which an owner makes the same calls stay twins. -/
theorem makeCalls (h : m.Twin view m') (owner : Owner) (made : List (Nat × Invocation)) :
    (m.makeCalls owner made).Twin view (m'.makeCalls owner made) := by
  induction made generalizing m m' with
  | nil => exact h
  | cons c rest ih =>
    rw [Machine.makeCalls, Machine.makeCalls, h.time]
    exact ih (h.setAlarm _)

/-- Twins on which an owner waits for the same limit stay twins. -/
theorem setTimer (h : m.Twin view m') (owner : Owner) (time : Nat) :
    (m.setTimer owner time).Twin view (m'.setTimer owner time) := by
  unfold Machine.setTimer
  split
  · exact h
  · exact h.setAlarm _

/-- What is written to the disk is nothing that the engine sees of the world. -/
theorem settled (sees : engine.Overlooks view) (s : Store) (world : σ) :
    view (engine.disk.settled s world) = view world := by
  unfold Disk.settled
  split
  · rfl
  · exact sees.file _ _

/-- A change of one store, or of both, leaves twins. -/
theorem change {γ γ' : Type} (h : m.Twin view m') (sees : engine.Overlooks view)
    (f : Store → γ × Store) (f' : Store → γ' × Store) :
    (m.change engine.disk f).2.Twin view (m'.change engine.disk f').2 :=
  { h with world := (settled sees _ _).trans (h.world.trans (settled sees _ _).symm) }

/-- What the agents of twins become is the same, and leaves twins. -/
theorem advance (h : m.Twin view m') (sees : engine.Overlooks view) (owner : Owner) {p : Program β}
    (blind : p.Blind) :
    (Machine.advance engine owner p m').1 = (Machine.advance engine owner p m).1 ∧
      (Machine.advance engine owner p m).2.Twin view (Machine.advance engine owner p m').2 ∧
        (Machine.advance engine owner p m).1.Blind := by
  induction p generalizing m m' with
  | done result => exact ⟨rfl, h, trivial⟩
  | clock next ih =>
    rw [Machine.advance, Machine.advance, h.supply]
    exact ih _ { h with supply := rfl } (blind _)
  | collections next ih => exact blind.elim
  | record e next ih => exact ih (h.change sees _ _) blind
  | sleep ms next ih =>
    rw [Machine.advance, Machine.advance, h.time]
    split
    · exact ih h blind
    · exact ⟨rfl, h.setTimer owner _, blind⟩
  | call limit order calls next ih =>
    rw [Machine.advance, Machine.advance, h.time]
    split
    · exact ih _ h (blind _)
    · split
      · exact ih _ h (blind _)
      · exact ⟨rfl, (h.makeCalls owner _).setTimer owner _, blind⟩
      · exact ⟨rfl, h.makeCalls owner _, blind⟩

/-- Twins that go on come to twins, and their agents to the same place. This is the step on which
all that follows rests: a blind agent cannot tell the machines apart. -/
theorem resume (h : m.Twin view m') (sees : engine.Overlooks view) (owner : Owner) (expired : Bool)
    {agent : Agent β} (blind : agent.Blind) :
    (Machine.resume engine owner expired agent m').1 =
        (Machine.resume engine owner expired agent m).1 ∧
      (Machine.resume engine owner expired agent m).2.Twin view
          (Machine.resume engine owner expired agent m').2 ∧
        (Machine.resume engine owner expired agent m).1.Blind := by
  cases agent with
  | ready p => exact h.advance sees owner blind
  | asleep wakeTime p =>
    rw [Machine.resume, Machine.resume, h.time]
    split
    · exact h.advance sees owner blind
    · exact ⟨rfl, h, blind⟩
  | calling waiting next =>
    rw [Machine.resume, Machine.resume, h.time]
    split
    · exact (h.cancel owner).advance sees owner (blind _)
    · split
      · exact (h.cancel owner).advance sees owner (blind _)
      · exact ⟨rfl, h.makeCalls owner _, blind⟩
  | finished result => exact ⟨rfl, h, trivial⟩

end Machine.Twin

namespace Scene

/-- Two scenes with the same agent in front, which does not look into the store, on twin machines.
-/
structure Twin (view : σ → τ) (s s' : Scene σ β) : Prop where
  machine : s.machine.Twin view s'.machine
  front : s'.front = s.front
  woken : s'.woken = s.woken
  turns : s'.turns = s.turns
  blind : s.front.Blind

namespace Twin

variable {engine : Engine σ} {view : σ → τ} {s s' : Scene σ β}

theorem onMachine (h : s.Twin view s') {m m' : Machine σ} (twin : m.Twin view m') :
    Scene.Twin view { s with machine := m } { s' with machine := m' } :=
  { h with machine := twin }

theorem wake (h : s.Twin view s') (owner : Owner) : (s.wake owner).Twin view (s'.wake owner) := by
  unfold Scene.wake
  cases owner with
  | front => exact { h with woken := rfl }
  | background i =>
    dsimp only
    rw [h.machine.alarms, h.machine.time]
    split
    · exact h
    · exact h.onMachine (h.machine.setAlarm _)

theorem deliver (h : s.Twin view s') (owner : Owner) (slot : Nat) (reply : Reply) :
    (s.deliver owner slot reply).Twin view (s'.deliver owner slot reply) := by
  unfold Scene.deliver
  refine wake ?_ owner
  cases owner with
  | front =>
    exact { h with
      front := congrArg (Agent.fill slot reply) h.front
      blind := h.blind.fill slot reply }
  | background i =>
    refine h.onMachine { h.machine with
      agents := congrArg (List.modify · i _) h.machine.agents
      blind := fun agent hagent => ?_ }
    obtain ⟨j, hj⟩ := List.mem_iff_getElem?.1 hagent
    rw [List.getElem?_modify] at hj
    obtain ⟨other, hother, rfl⟩ := Option.map_eq_some_iff.1 hj
    have blind := h.machine.blind other (List.mem_of_getElem? hother)
    split
    · exact blind.fill slot reply
    · exact blind

/-- Handlers that overlook what is different answer alike. -/
theorem begin (h : s.Twin view s') (sees : engine.Overlooks view) (owner : Owner) (slot : Nat)
    (call : Invocation) :
    (s.begin engine owner slot call).Twin view (s'.begin engine owner slot call) := by
  unfold Scene.begin
  split
  · exact h.deliver owner slot _
  · next handler found =>
    -- Both calls begin at the same time, with worlds that the handler cannot tell apart.
    have alike := sees.handlers _ handler found call s.machine.supply _ _ h.machine.world
    dsimp only
    rw [h.machine.supply, h.machine.time]
    revert alike
    generalize handler call s.machine.supply s.machine.world = begun
    generalize handler call s.machine.supply s'.machine.world = begun'
    rintro ⟨supply, duration, reply, world⟩
    rw [supply, duration, reply]
    have started : Machine.Twin view
        { s.machine with world := begun.world, supply := begun.supply }
        { s'.machine with
          time := s.machine.time, world := begun'.world, supply := begun.supply } :=
      { h.machine with time := rfl, world, supply := rfl }
    split
    · exact (h.onMachine started).deliver owner slot (begun.reply.mapError .handler)
    · exact h.onMachine (started.setAlarm
        ⟨s.machine.time + begun.duration, owner, .finish slot (begun.reply.mapError .handler)⟩)

/-- An agent of the background goes on alike on both machines, -/
theorem resumeBackground (h : s.Twin view s') (sees : engine.Overlooks view) (i : Nat) :
    (s.resumeBackground engine i).Twin view (s'.resumeBackground engine i) := by
  unfold Scene.resumeBackground
  rw [h.machine.agents]
  split
  · exact h
  · next agent hagent =>
    obtain ⟨same, twin, blind⟩ := h.machine.resume sees (.background i) false
      (h.machine.blind agent (List.mem_of_getElem? hagent))
    dsimp only
    rw [same]
    refine h.onMachine { twin with
      agents := congrArg (List.set · i _) twin.agents
      blind := fun other hother => ?_ }
    rcases List.mem_or_eq_of_mem_set hother with hother | rfl
    · exact twin.blind other hother
    · exact blind

/-- The agent in front goes on alike on both machines. -/
theorem resumeFront (h : s.Twin view s') (sees : engine.Overlooks view) (expired : Bool) :
    (s.resumeFront engine expired).Twin view (s'.resumeFront engine expired) := by
  obtain ⟨same, twin, blind⟩ := h.machine.resume sees .front expired h.blind
  unfold Scene.resumeFront
  rw [h.front]
  exact ⟨twin, same, rfl, rfl, blind⟩

theorem atTime (h : s.Twin view s') (time : Nat) : (s.atTime time).Twin view (s'.atTime time) :=
  h.onMachine { h.machine with time := congrArg (max · time) h.machine.time }

/-- The same alarm goes off alike on both machines. -/
theorem goOff (h : s.Twin view s') (sees : engine.Overlooks view) (a : Alarm) :
    (s.goOff engine a).Twin view (s'.goOff engine a) := by
  unfold Scene.goOff
  split
  · exact h
  · exact h.resumeBackground sees _
  · exact h.begin sees _ _ _
  · exact h.deliver _ _ _

/-- Twins agree on whether every agent has had its turn. -/
theorem isRoundOver_eq (h : s.Twin view s') : s'.isRoundOver = s.isRoundOver := by
  rw [isRoundOver, isRoundOver, isQuiet, isQuiet, h.machine.alarms, h.machine.time, h.turns]

theorem isDue_eq (h : s.Twin view s') : s'.isDue = s.isDue := by
  rw [isDue, isDue, h.machine.alarms, h.front]

/-- Twins go on in step: the next alarm is the same on both, and goes off alike. -/
theorem tick (h : s.Twin view s') (sees : engine.Overlooks view) :
    ((s.tick engine).getD s).Twin view ((s'.tick engine).getD s') := by
  unfold Scene.tick
  rw [h.machine.alarms, h.isRoundOver_eq, h.turns]
  split
  · exact h
  · next a rest _ =>
    have left : Scene.Twin view
        { s with
          machine := { s.machine with alarms := rest }
          turns := if s.isRoundOver then 1 else s.turns + 1 }
        { s' with
          machine := { s'.machine with alarms := rest }
          turns := if s.isRoundOver then 1 else s.turns + 1 } :=
      { h with machine := { h.machine with alarms := rfl }, turns := rfl }
    exact (left.atTime a.time).goOff sees a

/-- What happens next to twins leaves twins. -/
theorem next (h : s.Twin view s') (sees : engine.Overlooks view) :
    (s.next engine).Twin view (s'.next engine) := by
  unfold Scene.next
  rw [h.woken, h.isRoundOver_eq, h.isDue_eq]
  split
  · exact h.resumeFront sees false
  · split
    · unfold expire
      rw [h.front]
      exact (h.atTime _).resumeFront sees true
    · exact h.tick sees

end Twin

/-! ## Edits while a run is under way -/

/-- Somebody changes the store. -/
def edited (engine : Engine σ) (edit : Store → Store) (s : Scene σ β) : Scene σ β :=
  { s with machine := (s.machine.change engine.disk fun store => ((), edit store)).2 }

/-- Runs until the agent in front has ended. Before each thing that happens the store is changed:
the changes are numbered from `n` on. -/
def runAmid (engine : Engine σ) (edits : Nat → Store → Store) (n : Nat) (s : Scene σ β) :
    β × Machine σ :=
  match _h : s.front.result? with
  | some result => (result, s.machine)
  | none => runAmid engine edits (n + 1) ((s.edited engine (edits n)).next engine)
termination_by before_wellFounded.wrap s
decreasing_by exact next_before engine (s := s.edited engine (edits n)) ‹_›

/-- The agent in front comes to the same result, whatever is done to the store meanwhile. -/
theorem Twin.runAmid_eq {engine : Engine σ} {view : σ → τ} {s s' : Scene σ β}
    (h : s.Twin view s') (sees : engine.Overlooks view) (edits : Nat → Store → Store) (n : Nat) :
    (s'.runAmid engine edits n).1 = (s.run engine).1 := by
  induction s using Scene.run.induct engine generalizing s' n with
  | case1 s result ended =>
    rw [Scene.run, runAmid]
    split <;> split <;> simp_all [h.front]
  | case2 s going ih =>
    have edited : s.Twin view (s'.edited engine (edits n)) :=
      { h with machine := { h.machine with
        world := (Machine.Twin.settled sees _ _).trans h.machine.world } }
    have first := ih (edited.next sees) (n + 1)
    rw [Scene.run, runAmid]
    split <;> split <;> simp_all [h.front]

end Scene

namespace Machine

/-- Runs a program in front to its end, while the store is changed before each thing that happens.
-/
def awaitAmid (engine : Engine σ) (edits : Nat → Store → Store) (p : Program β) (m : Machine σ) :
    β × Machine σ :=
  let (front, m) := advance engine .front p (m.cancel .front)
  Scene.runAmid engine edits 0 ⟨m, front, false, 0⟩

/-- A program that does not look into the store comes to the same result, whatever is done to the
store meanwhile. -/
theorem awaitAmid_eq {engine : Engine σ} {view : σ → τ} (sees : engine.Overlooks view)
    {p : Program β} (looks : p.Blind) {m : Machine σ} (blind : ∀ agent ∈ m.agents, agent.Blind)
    (edits : Nat → Store → Store) : (m.awaitAmid engine edits p).1 = (m.await engine p).1 := by
  have same : m.Twin view m := .refl blind
  obtain ⟨-, twin, looks'⟩ := (same.cancel .front).advance sees .front looks
  exact Scene.Twin.runAmid_eq ⟨.refl twin.blind, rfl, rfl, rfl, looks'⟩ sees edits 0

end Machine

namespace Engine

/-- A plan is a snapshot. It has what the collections have under every identifier that a run of the
workflow looks up; its run is the one that looks the identifiers up in those collections, and that
of the plan from any others which agree on these records. It never asks for the collections again,
so a workflow that is driven comes to the same execution, whatever is done to the store meanwhile.
-/
theorem plan_is_snapshot (engine : Engine σ) (c : Collections) (w : Workflow) :
    (Plan.ofCollections c w).FaithfulTo c w ∧
    (∀ e, engine.run (.ofCollections c w) e = engine.visit c w e) ∧
    (∀ c', c.AgreeFor w c' → ∀ e,
      engine.run (.ofCollections c' w) e = engine.run (.ofCollections c w) e) ∧
    (∀ e, (engine.run (.ofCollections c w) e).Blind) ∧
    ∀ (τ : Type) (view : σ → τ), engine.Overlooks view →
      ∀ m : Machine σ, m.store.collections = c → (∀ agent ∈ m.agents, agent.Blind) →
        ∀ (edits : Nat → Store → Store) (e : Execution),
          (m.awaitAmid engine edits (engine.run (.ofCollections c w) e)).1 =
              (m.await engine (engine.visit c w e)).1 ∧
            (m.awaitAmid engine edits (engine.drive w e)).1 =
              (m.await engine (engine.drive w e)).1 := by
  refine ⟨Plan.faithfulTo_ofCollections c w, engine.run_eq_visit c w,
    fun c' agree e => (agree.run_eq engine e).symm, fun e => engine.blind_run _ e, ?_⟩
  rintro τ view sees m rfl blind edits e
  constructor
  · rw [← run_eq_visit]
    exact Machine.awaitAmid_eq sees (engine.blind_run _ e) blind edits
  · -- The collections are seen at once, and from then on nothing looks into the store.
    exact Machine.awaitAmid_eq sees (engine.blind_driven e w m.store.collections) blind edits

/-- The world of an engine without handlers is all that they could see. -/
theorem bare_overlooks : bare.Overlooks (id : Unit → Unit) where
  handlers _ _ found := nomatch found
  file _ _ := rfl

/-- The store is emptied again and again while the nightly workflow runs. -/
theorem plan_is_snapshot_nightly :
    let m := { idle with store := ⟨oneStep, none⟩ }
    let e := (Execution.begin nightly .null anonymous default).1
    (m.awaitAmid bare (fun _ _ => .inMemory) (bare.drive nightly e)).1 =
      (m.await bare (bare.drive nightly e)).1 ∧
    bare.run (.ofCollections { oneStep with actions := [] } nightly) e =
      bare.run (.ofCollections oneStep nightly) e :=
  ⟨((plan_is_snapshot bare oneStep nightly).2.2.2.2 Unit id bare_overlooks
      { idle with store := ⟨oneStep, none⟩ } rfl (fun _ h => (nomatch h)) _ _).2,
    (plan_is_snapshot bare oneStep nightly).2.2.1 _
      ⟨fun _ _ => rfl, fun _ _ _ _ => rfl, fun _ _ _ _ => rfl⟩ _⟩

end Engine

end EventFlow
