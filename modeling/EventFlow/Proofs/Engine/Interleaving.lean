import EventFlow.Engine.Trigger
import EventFlow.Proofs.Engine.Adequacy
import EventFlow.Proofs.Store.Requests
import Mathlib.Logic.Relation

/-!
# What may happen to a machine

Whoever shares a machine acts in some order. `Machine.Happens` is one thing that may happen: one of
the alarms that are due first goes off, somebody makes a request or records an execution, a workflow
is launched, or the agent in front does something of its own. A machine that keeps to its own order
is one of many interleavings: whatever it runs, awaits, joins or dispatches is a `Machine.Path` of
such steps (`runs_await`, `runs_join`, `runs_dispatch`, `Runs.path`).

An agent reaches the machine by a few acts only (`Machine.Act`), so what it leaves to the others is
shown act by act (`Act.spares`, `Act.orderly`). The order that a machine keeps to is that of
`Scene.next` (`EventFlow.Engine.Machine`), and dispatching is `Engine.dispatch`
(`EventFlow.Engine.Trigger`).
-/

set_option autoImplicit false

open Relation (ReflTransGen)

namespace EventFlow

variable {σ β : Type}

/-! ## Alarms -/

namespace Alarm

/-- The alarms of a machine are sorted, but none is lost or doubled by that. -/
theorem mem_insert {a b : Alarm} {alarms : List Alarm} :
    b ∈ a.insert alarms ↔ b = a ∨ b ∈ alarms :=
  (a.insert_perm alarms).mem_iff.trans List.mem_cons

/-- Alarms that are in the order of their times stay so. -/
theorem ordered_insert (a : Alarm) {alarms : List Alarm}
    (h : alarms.Pairwise fun b c => b.time ≤ c.time) :
    (a.insert alarms).Pairwise fun b c => b.time ≤ c.time := by
  induction alarms with
  | nil => exact List.pairwise_singleton _ _
  | cons b rest ih =>
    obtain ⟨first, later⟩ := List.pairwise_cons.1 h
    rw [insert]
    split
    · next before =>
      refine List.pairwise_cons.2 ⟨fun c hc => ?_, h⟩
      rcases List.mem_cons.1 hc with rfl | hc
      · exact Nat.le_of_lt before
      · exact Nat.le_trans (Nat.le_of_lt before) (first c hc)
    · next after =>
      refine List.pairwise_cons.2 ⟨fun c hc => ?_, ih later⟩
      rcases mem_insert.1 hc with rfl | hc
      · exact Nat.le_of_not_lt after
      · exact first c hc

end Alarm

namespace Machine

/-- The alarms of an owner, in the order in which they are set. -/
def alarmsOf (owner : Owner) (m : Machine σ) : List Alarm :=
  m.alarms.filter fun a => decide (a.owner = owner)

/-- The alarms of an owner are those among all alarms that are its own. -/
theorem mem_alarmsOf {owner : Owner} {m : Machine σ} {a : Alarm} :
    a ∈ m.alarmsOf owner ↔ a ∈ m.alarms ∧ a.owner = owner := by
  rw [alarmsOf, List.mem_filter, decide_eq_true_eq]

/-- An alarm that is set is one more for its owner. -/
theorem mem_alarmsOf_setAlarm {owner : Owner} {m : Machine σ} {a b : Alarm} :
    b ∈ (m.setAlarm a).alarmsOf owner ↔ b = a ∧ a.owner = owner ∨ b ∈ m.alarmsOf owner := by
  rw [mem_alarmsOf, mem_alarmsOf, setAlarm, Alarm.mem_insert]
  constructor
  · rintro ⟨rfl | old, own⟩
    · exact .inl ⟨rfl, own⟩
    · exact .inr ⟨old, own⟩
  · rintro (⟨rfl, own⟩ | ⟨old, own⟩)
    · exact ⟨.inl rfl, own⟩
    · exact ⟨.inr old, own⟩

/-- An alarm that is set is nothing to any other owner. -/
theorem alarmsOf_setAlarm_of_ne {owner : Owner} {a : Alarm} (apart : a.owner ≠ owner)
    (m : Machine σ) : (m.setAlarm a).alarmsOf owner = m.alarmsOf owner := by
  unfold alarmsOf setAlarm
  induction m.alarms with
  | nil => simp [Alarm.insert, apart]
  | cons b rest ih =>
    simp only [Alarm.insert]
    split
    · simp [List.filter_cons, apart]
    · rw [List.filter_cons, List.filter_cons, ih]

/-- To cancel an owner's alarms is nothing to any other owner. -/
theorem alarmsOf_cancel_of_ne {owner other : Owner} (apart : other ≠ owner) (m : Machine σ) :
    (m.cancel owner).alarmsOf other = m.alarmsOf other := by
  rw [alarmsOf, cancel, List.filter_filter]
  refine List.filter_congr fun a _ => ?_
  by_cases own : a.owner = other
  · simp [own, apart]
  · simp [own]

/-- An owner whose alarms are cancelled has none left. -/
theorem alarmsOf_cancel (owner : Owner) (m : Machine σ) : (m.cancel owner).alarmsOf owner = [] := by
  rw [alarmsOf, cancel, List.filter_filter, List.filter_eq_nil_iff]
  simp

/-- The alarms are in order, those of the background are due now or later, and belong to agents that
there are. -/
structure Orderly (m : Machine σ) : Prop where
  ordered : m.alarms.Pairwise fun a b => a.time ≤ b.time
  due : ∀ a ∈ m.alarms, a.owner ≠ .front → m.time ≤ a.time
  owned : ∀ a ∈ m.alarms, ∀ i, a.owner = .background i → i < m.agents.length

/-! ## Acts -/

/-- What an owner of alarms may do to the machine it shares. -/
inductive Act (engine : Engine σ) (owner : Owner) : Machine σ → Machine σ → Prop
  | draws (m : Machine σ) (supply : Supply) : Act engine owner m { m with supply }
  | works (m : Machine σ) (world : σ) : Act engine owner m { m with world }
  | records (m : Machine σ) (e : Execution) :
      Act engine owner m (m.change engine.disk (·.record e)).2
  | sets (m : Machine σ) {a : Alarm} (own : a.owner = owner) (due : m.time ≤ a.time) :
      Act engine owner m (m.setAlarm a)
  | cancels (m : Machine σ) : Act engine owner m (m.cancel owner)
  | goesOn (m : Machine σ) {i : Nat} (own : owner = .background i) {agents : List (Agent Execution)}
      (length : agents.length = m.agents.length)
      (others : ∀ j, j ≠ i → agents[j]? = m.agents[j]?) : Act engine owner m { m with agents }

/-- What an owner may do, one act after the other. -/
abbrev Acts (engine : Engine σ) (owner : Owner) : Machine σ → Machine σ → Prop :=
  ReflTransGen (Act engine owner)

variable {engine : Engine σ} {owner : Owner} {m m' m'' : Machine σ}

/-- Calls are made by setting an alarm for each. -/
theorem acts_makeCalls (made : List (Nat × Invocation)) (m : Machine σ) :
    Acts engine owner m (m.makeCalls owner made) := by
  induction made generalizing m with
  | nil => exact .refl
  | cons c rest ih => exact .head (.sets m rfl (Nat.le_refl _)) (ih _)

/-- A limit that is not over yet is waited for by an alarm. -/
theorem acts_setTimer {time : Nat} (due : m.time ≤ time) :
    Acts engine owner m (m.setTimer owner time) := by
  unfold setTimer
  split
  · exact .refl
  · exact .single (.sets m rfl due)

theorem time_makeCalls (owner : Owner) (made : List (Nat × Invocation)) (m : Machine σ) :
    (m.makeCalls owner made).time = m.time := by
  induction made generalizing m with
  | nil => rfl
  | cons c rest ih => exact ih _

/-- A program that goes on does nothing but acts of its own. -/
theorem acts_advance (p : Program β) (m : Machine σ) :
    Acts engine owner m (advance engine owner p m).2 := by
  induction p generalizing m with
  | done result => exact .refl
  | clock next ih => exact .head (.draws m _) (ih _ _)
  | collections next ih => exact ih _ m
  | record e next ih => exact .head (.records m e) (ih _)
  | sleep ms next ih =>
    rw [advance]
    split
    · exact ih m
    · exact acts_setTimer (Nat.le_add_right _ _)
  | call limit order calls next ih =>
    rw [advance]
    split
    · exact ih _ m
    · next waiting made _ =>
      split
      · exact ih _ m
      · refine (acts_makeCalls made m).trans (acts_setTimer ?_)
        rw [time_makeCalls]
        exact Nat.le_add_right _ _
      · exact acts_makeCalls made m

/-- Whatever an agent does when it goes on consists of acts. -/
theorem acts_resume (expired : Bool) (agent : Agent β) (m : Machine σ) :
    Acts engine owner m (resume engine owner expired agent m).2 := by
  cases agent with
  | ready p => exact acts_advance p m
  | asleep wakeTime p =>
    rw [resume]
    split
    · exact acts_advance p m
    · exact .refl
  | calling waiting next =>
    rw [resume]
    split
    · exact .head (.cancels m) (acts_advance _ _)
    · next waiting made _ =>
      split
      · exact .head (.cancels m) (acts_advance _ _)
      · exact acts_makeCalls made m
  | finished result => exact .refl

/-- What an owner leaves to all others. -/
structure Spares (owner : Owner) (m m' : Machine σ) : Prop where
  time : m'.time = m.time
  length : m'.agents.length = m.agents.length
  agents : ∀ i, owner ≠ .background i → m'.agents[i]? = m.agents[i]?
  alarms : ∀ other, other ≠ owner → m'.alarmsOf other = m.alarmsOf other
  tables : ∀ k, m'.store.collections.table k = m.store.collections.table k

/-- Who does nothing spares everybody. -/
theorem Spares.refl (owner : Owner) (m : Machine σ) : m.Spares owner m :=
  ⟨rfl, rfl, fun _ _ => rfl, fun _ _ => rfl, fun _ => rfl⟩

/-- Who spares the others twice spares them altogether. -/
theorem Spares.trans (h : m.Spares owner m') (h' : m'.Spares owner m'') : m.Spares owner m'' where
  time := h'.time.trans h.time
  length := h'.length.trans h.length
  agents i apart := (h'.agents i apart).trans (h.agents i apart)
  alarms other apart := (h'.alarms other apart).trans (h.alarms other apart)
  tables k := (h'.tables k).trans (h.tables k)

/-- No act of an owner touches the others' agents, alarms or definitions. -/
theorem Act.spares (h : Act engine owner m m') : m.Spares owner m' := by
  cases h with
  | draws supply => exact ⟨rfl, rfl, fun _ _ => rfl, fun _ _ => rfl, fun _ => rfl⟩
  | works world => exact ⟨rfl, rfl, fun _ _ => rfl, fun _ _ => rfl, fun _ => rfl⟩
  | records e =>
    refine { Spares.refl owner m with tables := fun k => ?_ }
    rw [change, Store.table_record, Disk.collections_facing]
  | sets own due =>
    subst own
    exact { Spares.refl _ m with alarms := fun _ apart => alarmsOf_setAlarm_of_ne apart.symm m }
  | cancels =>
    exact { Spares.refl owner m with alarms := fun _ apart => alarmsOf_cancel_of_ne apart m }
  | goesOn own length others =>
    exact ⟨rfl, length, fun j apart => others j fun same => apart (same ▸ own), fun _ _ => rfl,
      fun _ => rfl⟩

/-- No sequence of acts of an owner touches the others' agents, alarms or definitions. -/
theorem Acts.spares (h : Acts engine owner m m') : m.Spares owner m' := by
  induction h with
  | refl => exact .refl owner m
  | tail _ act ih => exact ih.trans act.spares

/-- A machine stays orderly when somebody who is there sets an alarm that is not past. -/
theorem Orderly.setAlarm (h : m.Orderly) {a : Alarm} (due : m.time ≤ a.time)
    (owned : ∀ i, a.owner = .background i → i < m.agents.length) : (m.setAlarm a).Orderly where
  ordered := Alarm.ordered_insert a h.ordered
  due b hb apart := by
    rcases Alarm.mem_insert.1 hb with rfl | old
    · exact due
    · exact h.due b old apart
  owned b hb i own := by
    rcases Alarm.mem_insert.1 hb with rfl | old
    · exact owned i own
    · exact h.owned b old i own

/-- An act leaves the machine orderly. -/
theorem Act.orderly (act : Act engine owner m m') (h : m.Orderly)
    (there : ∀ i, owner = .background i → i < m.agents.length) : m'.Orderly := by
  cases act with
  | draws supply => exact ⟨h.ordered, h.due, h.owned⟩
  | works world => exact ⟨h.ordered, h.due, h.owned⟩
  | records e => exact ⟨h.ordered, h.due, h.owned⟩
  | sets own due => exact h.setAlarm due fun i hi => there i (own.symm.trans hi)
  | cancels =>
    exact ⟨h.ordered.filter _, fun a ha => h.due a (List.mem_filter.1 ha).1,
      fun a ha => h.owned a (List.mem_filter.1 ha).1⟩
  | goesOn own length others =>
    exact ⟨h.ordered, h.due, fun a ha i hi => Nat.lt_of_lt_of_eq (h.owned a ha i hi) length.symm⟩

/-- Acts one after the other leave the machine orderly. -/
theorem Acts.orderly (acts : Acts engine owner m m') (h : m.Orderly)
    (there : ∀ i, owner = .background i → i < m.agents.length) : m'.Orderly := by
  induction acts with
  | refl => exact h
  | tail before act ih =>
    refine act.orderly ih fun i own => ?_
    rw [(Acts.spares before).length]
    exact there i own

end Machine

namespace Scene

variable {engine : Engine σ}

/-- What the agents in the background do to the machine does not depend on the agent in front. -/
def onMachine (f : Scene σ Unit → Scene σ Unit) (m : Machine σ) : Machine σ :=
  (f ⟨m, .finished (), false, 0⟩).machine

/-- To wake an agent of the background is a matter of the machine: who is in front makes no
difference. -/
theorem machine_wake (i : Nat) (s : Scene σ β) :
    (s.wake (.background i)).machine = onMachine (wake (.background i)) s.machine := by
  unfold onMachine wake
  dsimp only
  split <;> rfl

/-- To deliver a reply to an agent of the background is a matter of the machine alone. -/
theorem machine_deliver (i slot : Nat) (reply : Reply) (s : Scene σ β) :
    (s.deliver (.background i) slot reply).machine =
      onMachine (deliver (.background i) slot reply) s.machine := by
  unfold deliver
  dsimp only
  rw [machine_wake]
  unfold onMachine
  dsimp only

/-- An alarm of the background is a matter of the machine alone. -/
theorem machine_goOff_background {a : Alarm} {i : Nat} (own : a.owner = .background i)
    (s : Scene σ β) : (s.goOff engine a).machine = onMachine (goOff engine a) s.machine := by
  obtain ⟨time, owner, signal⟩ := a
  cases own
  cases signal with
  | wake =>
    simp only [goOff, resumeBackground, onMachine]
    split <;> rfl
  | start slot call =>
    simp only [goOff, begin, onMachine]
    split
    · exact machine_deliver i slot _ s
    · split
      · exact machine_deliver i slot _ _
      · rfl
  | finish slot reply => exact machine_deliver i slot reply s

/-- An alarm of the background is no matter of the agent in front. -/
theorem front_goOff_background {a : Alarm} {i : Nat} (own : a.owner = .background i)
    (s : Scene σ β) :
    (s.goOff engine a).front = s.front ∧ (s.goOff engine a).woken = s.woken := by
  have wakes (s : Scene σ β) :
      (s.wake (.background i)).front = s.front ∧ (s.wake (.background i)).woken = s.woken := by
    unfold wake
    dsimp only
    split <;> exact ⟨rfl, rfl⟩
  obtain ⟨time, owner, signal⟩ := a
  cases own
  cases signal with
  | wake =>
    simp only [goOff, resumeBackground]
    split <;> exact ⟨rfl, rfl⟩
  | start slot call =>
    simp only [goOff, begin]
    split
    · exact wakes _
    · split
      · exact wakes _
      · exact ⟨rfl, rfl⟩
  | finish slot reply => exact wakes _

end Scene

namespace Machine

variable {engine : Engine σ} {m m' : Machine σ}

/-- An alarm of the background goes off, and others stay. -/
def goOff (engine : Engine σ) (a : Alarm) (others : List Alarm) (m : Machine σ) : Machine σ :=
  Scene.onMachine (Scene.goOff engine a) { m with time := max m.time a.time, alarms := others }

/-- A handler that is called may change the world and draw from the supply. -/
theorem acts_serve {owner : Owner} (m : Machine σ) (world : σ) (supply : Supply) :
    Acts engine owner m { m with world, supply } :=
  .tail (.single (.works m world)) (.draws _ supply)

/-- An agent of the background that is told a reply acts on its own behalf. -/
theorem acts_deliver (i slot : Nat) (reply : Reply) (m : Machine σ) :
    Acts engine (.background i) m
      (Scene.onMachine (Scene.deliver (.background i) slot reply) m) := by
  have filled : Act engine (.background i) m
      { m with agents := m.agents.modify i (·.fill slot reply) } :=
    .goesOn m rfl (List.length_modify _ _ _) fun j apart => by simp [Ne.symm apart]
  unfold Scene.onMachine Scene.deliver Scene.wake
  dsimp only
  split
  · exact .single filled
  · exact .head filled (.single (.sets _ rfl (Nat.le_refl _)))

/-- An alarm that goes off lets its owner act. -/
theorem acts_onMachine_goOff {a : Alarm} {i : Nat} (own : a.owner = .background i) (m : Machine σ) :
    Acts engine (.background i) m (Scene.onMachine (Scene.goOff engine a) m) := by
  obtain ⟨time, owner, signal⟩ := a
  cases own
  cases signal with
  | wake =>
    unfold Scene.onMachine Scene.goOff Scene.resumeBackground
    dsimp only
    split
    · exact .refl
    · next agent _ =>
      exact (acts_resume false agent m).tail (.goesOn _ rfl List.length_set fun j apart =>
        List.getElem?_set_ne (Ne.symm apart))
  | start slot call =>
    unfold Scene.onMachine Scene.goOff Scene.begin
    dsimp only
    split
    · exact acts_deliver i slot _ m
    · split
      · rw [Scene.machine_deliver]
        exact (acts_serve m _ _).trans (acts_deliver i slot _ _)
      · exact (acts_serve m _ _).tail (.sets _ rfl (Nat.le_add_right _ _))
  | finish slot reply => exact acts_deliver i slot reply m

/-- An agent of the background whose alarm goes off acts on its own behalf. -/
theorem acts_goOff {a : Alarm} {i : Nat} (own : a.owner = .background i) (others : List Alarm)
    (m : Machine σ) : Acts engine (.background i)
      { m with time := max m.time a.time, alarms := others } (m.goOff engine a others) :=
  acts_onMachine_goOff own _

/-! ## What may happen -/

/-- One thing that may happen to a machine. -/
inductive Happens (engine : Engine σ) : Machine σ → Machine σ → Prop
  /-- An alarm of the background goes off, one of those that are due first. -/
  | goesOff {m : Machine σ} {a : Alarm} {before after : List Alarm}
      (alarms : m.alarms = before ++ a :: after) (own : a.owner ≠ .front)
      (first : ∀ b ∈ m.alarms, b.owner ≠ .front → a.time ≤ b.time) :
      Happens engine m (m.goOff engine a (before ++ after))
  /-- Somebody makes a request for definitions. -/
  | requested (m : Machine σ) (request : Store.Request) (supply : Supply) :
      Happens engine m (m.change engine.disk fun s =>
        let (answer, s, _) := request.perform s supply
        (answer, s)).2
  /-- Somebody records an execution. -/
  | recorded (m : Machine σ) (e : Execution) :
      Happens engine m (m.change engine.disk (·.record e)).2
  /-- A workflow is launched. -/
  | launched (m : Machine σ) (w : Workflow) (data : Json) :
      Happens engine m (engine.launch w data m).2
  /-- The agent in front, or somebody outside, does what is no matter of the store and the
  background. The time goes on, but no alarm of the background is missed. -/
  | aside {m m' : Machine σ} (agents : m'.agents = m.agents) (store : m'.store = m.store)
      (alarms : ∀ i, m'.alarmsOf (.background i) = m.alarmsOf (.background i))
      (ordered : m'.alarms.Pairwise fun a b => a.time ≤ b.time) (later : m.time ≤ m'.time)
      (first : ∀ a ∈ m.alarms, a.owner ≠ .front → m'.time ≤ a.time) : Happens engine m m'

/-- What may happen, one thing after the other. -/
abbrev Path (engine : Engine σ) : Machine σ → Machine σ → Prop := ReflTransGen (Happens engine)

/-- Something happens that leaves the definitions as they are. -/
def Proceeds (engine : Engine σ) (m m' : Machine σ) : Prop :=
  m.Happens engine m' ∧ ∀ k, m'.store.collections.table k = m.store.collections.table k

/-- A machine runs: what happens leaves the definitions as they are. -/
abbrev Runs (engine : Engine σ) : Machine σ → Machine σ → Prop := ReflTransGen (Proceeds engine)

/-- A machine that runs is one to which things happen. -/
theorem Runs.path (h : m.Runs engine m') : m.Path engine m' :=
  ReflTransGen.mono (fun _ _ step => step.1) _ _ h

/-- Where the alarms of an agent are the same, each of them is there. -/
theorem mem_background {i : Nat} {a : Alarm} (alarms : m'.alarmsOf (.background i) =
    m.alarmsOf (.background i)) (h : a ∈ m'.alarms) (own : a.owner = .background i) :
    a ∈ m.alarms := by
  have kept : a ∈ m'.alarmsOf (.background i) := mem_alarmsOf.2 ⟨h, own⟩
  rw [alarms] at kept
  exact (mem_alarmsOf.1 kept).1

/-- Who is not in front is in the background. -/
theorem exists_background {owner : Owner} (h : owner ≠ .front) : ∃ i, owner = .background i := by
  cases owner with
  | front => exact absurd rfl h
  | background i => exact ⟨i, rfl⟩

/-- When an alarm goes off that is due first, its owner finds the machine in order. -/
theorem Orderly.of_goesOff (h : m.Orderly) {a : Alarm} {before after : List Alarm}
    (alarms : m.alarms = before ++ a :: after)
    (first : ∀ b ∈ m.alarms, b.owner ≠ .front → a.time ≤ b.time) :
    Orderly { m with time := max m.time a.time, alarms := before ++ after } := by
  have sub : (before ++ after).Sublist m.alarms := by
    rw [alarms]
    exact (List.sublist_cons_self a after).append_left before
  have here : a ∈ m.alarms := by
    rw [alarms]
    exact List.mem_append_right _ List.mem_cons_self
  refine ⟨h.ordered.sublist sub, fun b hb apart => ?_, fun b hb => h.owned b (sub.subset hb)⟩
  exact Nat.max_le.2 ⟨h.due b (sub.subset hb) apart, first b (sub.subset hb) apart⟩

/-- Whatever happens leaves the machine orderly, -/
theorem Happens.orderly (step : m.Happens engine m') (h : m.Orderly) : m'.Orderly := by
  cases step with
  | @goesOff a before after alarms own first =>
    obtain ⟨i, hi⟩ := exists_background own
    refine (acts_goOff hi (before ++ after) m).orderly (h.of_goesOff alarms first) ?_
    rintro j same
    cases same
    exact h.owned a (by rw [alarms]; simp) i hi
  | requested request supply => exact ⟨h.ordered, h.due, h.owned⟩
  | recorded e => exact ⟨h.ordered, h.due, h.owned⟩
  | launched w data =>
    have spawned : Orderly { m with
        supply := (engine.prepare w data m.supply).2
        agents := m.agents ++ [Agent.ready (engine.drive w (engine.prepare w data m.supply).1)] } :=
      ⟨h.ordered, h.due, fun a ha i hi => by
        rw [List.length_append]
        exact Nat.lt_add_right _ (h.owned a ha i hi)⟩
    refine spawned.setAlarm (Nat.le_refl _) fun i hi => ?_
    cases hi
    rw [List.length_append]
    exact Nat.lt_succ_self _
  | aside agents store alarms ordered later first =>
    refine ⟨ordered, fun a ha apart => ?_, fun a ha i hi => ?_⟩
    · obtain ⟨i, hi⟩ := exists_background apart
      exact first a (mem_background (alarms i) ha hi) apart
    · rw [agents]
      exact h.owned a (mem_background (alarms i) ha hi) i hi

/-- A machine stays orderly, however much happens to it. -/
theorem Path.orderly (path : m.Path engine m') (h : m.Orderly) : m'.Orderly := by
  induction path with
  | refl => exact h
  | tail _ step ih => exact step.orderly ih

/-! ## The machine's own order -/

/-- What the agent in front does may happen. -/
theorem runs_of_acts (acts : Acts engine .front m m') (h : m.Orderly) : m.Runs engine m' := by
  induction acts with
  | refl => exact .refl
  | @tail middle last before act ih =>
    have orderly := Path.orderly (Runs.path ih) h
    refine ih.tail ⟨?_, act.spares.tables⟩
    have kept : ∀ i, last.alarmsOf (.background i) = middle.alarmsOf (.background i) :=
      fun i => act.spares.alarms _ nofun
    have after : last.Orderly := act.orderly orderly nofun
    have first : ∀ a ∈ middle.alarms, a.owner ≠ .front → last.time ≤ a.time := by
      rw [act.spares.time]
      exact orderly.due
    cases act with
    | records e => exact .recorded middle e
    | goesOn own => cases own
    | draws supply => exact .aside rfl rfl kept after.ordered (Nat.le_refl _) first
    | works world => exact .aside rfl rfl kept after.ordered (Nat.le_refl _) first
    | sets own due => exact .aside rfl rfl kept after.ordered (Nat.le_refl _) first
    | cancels => exact .aside rfl rfl kept after.ordered (Nat.le_refl _) first

end Machine

namespace Scene

variable {engine : Engine σ} {s t : Scene σ β}

open Machine (Runs Path Acts)

/-- The handler that the agent in front calls acts for it. -/
theorem acts_begin_front (slot : Nat) (call : Invocation) (s : Scene σ β) :
    Acts engine .front s.machine (s.begin engine .front slot call).machine := by
  unfold begin
  split
  · exact .refl
  · dsimp only
    split
    · exact Machine.acts_serve s.machine _ _
    · exact (Machine.acts_serve s.machine _ _).tail (.sets _ rfl (Nat.le_add_right _ _))

/-- An alarm of the agent in front is its own matter. -/
theorem acts_goOff_front {a : Alarm} (own : a.owner = .front) (s : Scene σ β) :
    Acts engine .front s.machine (s.goOff engine a).machine := by
  obtain ⟨time, owner, signal⟩ := a
  cases own
  cases signal with
  | wake => exact .refl
  | start slot call => exact acts_begin_front slot call s
  | finish slot reply => exact .refl

/-- An alarm of the agent in front that is due first is no matter of the background. -/
theorem runs_tick_front {a : Alarm} {rest : List Alarm} (alarms : s.machine.alarms = a :: rest)
    (own : a.owner = .front) (h : s.machine.Orderly) :
    s.machine.Runs engine { s.machine with time := max s.machine.time a.time, alarms := rest } := by
  obtain ⟨first, ordered⟩ := List.pairwise_cons.1 (alarms ▸ h.ordered)
  refine .single ⟨.aside rfl rfl (fun i => ?_) ordered (Nat.le_max_left _ _) fun b hb apart => ?_,
    fun _ => rfl⟩
  · simp [Machine.alarmsOf, alarms, own]
  · refine Nat.max_le.2 ⟨h.due b hb apart, ?_⟩
    rw [alarms] at hb
    rcases List.mem_cons.1 hb with rfl | hb
    · exact Nat.le_refl _
    · exact first b hb

/-- The next alarm that goes off is one of those that may. -/
theorem runs_tick (ticks : s.tick engine = some t) (h : s.machine.Orderly) :
    s.machine.Runs engine t.machine := by
  unfold tick at ticks
  split at ticks
  · cases ticks
  · next a rest alarms =>
    cases ticks
    cases own : a.owner with
    | front =>
      have passed : s.machine.Runs engine _ := runs_tick_front alarms own h
      refine passed.trans (Machine.runs_of_acts ?_ (passed.path.orderly h))
      exact acts_goOff_front own ⟨_, s.front, s.woken, _⟩
    | background i =>
      have background : a.owner ≠ .front := by rw [own]; exact nofun
      have first : ∀ b ∈ s.machine.alarms, b.owner ≠ .front → a.time ≤ b.time := by
        intro b hb _
        rw [alarms] at hb
        rcases List.mem_cons.1 hb with rfl | hb
        · exact Nat.le_refl _
        · exact (List.pairwise_cons.1 (alarms ▸ h.ordered)).1 b hb
      have goesOff : s.machine.Happens engine (s.machine.goOff engine a ([] ++ rest)) :=
        .goesOff alarms background first
      rw [machine_goOff_background own]
      exact .single ⟨goesOff, fun k => (Machine.acts_goOff own rest s.machine).spares.tables k⟩

/-- When the agent in front goes on, the machine runs. -/
theorem runs_resumeFront (expired : Bool) (s : Scene σ β) (h : s.machine.Orderly) :
    s.machine.Runs engine (s.resumeFront engine expired).machine :=
  Machine.runs_of_acts (Machine.acts_resume expired s.front s.machine) h

/-- No alarm goes off before the agent in front is due. -/
theorem due_le_of_isDue (due : s.isDue = true)
    (ordered : s.machine.alarms.Pairwise fun a b => a.time ≤ b.time) {b : Alarm}
    (hb : b ∈ s.machine.alarms) : s.front.due.getD 0 ≤ b.time := by
  unfold isDue at due
  split at due
  · next none_left =>
    rw [none_left] at hb
    cases hb
  · next a rest alarms =>
    -- The agent in front is due before the next alarm, and so before all others.
    obtain ⟨time, htime, before⟩ := (Option.any_eq_true _ _).1 due
    rw [htime]
    refine Nat.le_trans (of_decide_eq_true before) ?_
    rw [alarms] at hb ordered
    rcases List.mem_cons.1 hb with rfl | hb
    · exact Nat.le_refl _
    · exact (List.pairwise_cons.1 ordered).1 b hb

/-- The time passes until the agent in front is due. -/
theorem runs_atTime (due : s.isDue) (h : s.machine.Orderly) :
    s.machine.Runs engine (s.atTime (s.front.due.getD 0)).machine :=
  .single ⟨.aside rfl rfl (fun _ => rfl) h.ordered (Nat.le_max_left _ _)
    fun b hb apart => Nat.max_le.2 ⟨h.due b hb apart, due_le_of_isDue due h.ordered hb⟩,
      fun _ => rfl⟩

/-- When the time of the agent in front is up, the machine runs. -/
theorem runs_expire (due : s.isDue) (h : s.machine.Orderly) :
    s.machine.Runs engine (s.expire engine).machine := by
  have passed : s.machine.Runs engine _ := runs_atTime due h
  exact passed.trans (runs_resumeFront true _ (passed.path.orderly h))

/-- What the machine does next is something that may happen. -/
theorem runs_next (s : Scene σ β) (h : s.machine.Orderly) :
    s.machine.Runs engine (s.next engine).machine := by
  unfold next
  split
  · exact runs_resumeFront false s h
  · split
    · next due => exact runs_expire due h
    · cases ticks : s.tick engine with
      | none => exact .refl
      | some t => exact runs_tick ticks h

/-- What every step keeps holds when the agent in front has ended. -/
theorem run_keeps {Keeps : Scene σ β → Prop}
    (step : ∀ s, Keeps s → s.front.result? = none → Keeps (s.next engine)) {s : Scene σ β}
    (h : Keeps s) : ∃ last, Keeps last ∧ last.front = .finished (s.run engine).1 ∧
      last.machine = (s.run engine).2 := by
  induction s using Scene.run.induct engine with
  | case1 s result ended =>
    have front : s.front = .finished result := by
      cases front : s.front <;> simp_all [Agent.result?]
    rw [run]
    split
    · next result' ended' =>
      cases ended.symm.trans ended'
      exact ⟨s, h, front, rfl⟩
    · next going => cases ended.symm.trans going
  | case2 s going ih =>
    rw [run]
    split
    · next result ended => cases going.symm.trans ended
    · exact ih (step s h going)

/-- Until the agent in front has ended, the machine runs. -/
theorem runs_run (s : Scene σ β) (h : s.machine.Orderly) :
    s.machine.Runs engine (s.run engine).2 := by
  obtain ⟨last, runs, -, machine⟩ : ∃ last : Scene σ β, s.machine.Runs engine last.machine ∧
      last.front = .finished (s.run engine).1 ∧ last.machine = (s.run engine).2 :=
    run_keeps (fun t runs _ => runs.trans (runs_next t (runs.path.orderly h))) .refl
  exact machine ▸ runs

end Scene

namespace Machine

variable {engine : Engine σ}

/-- Whatever a machine runs in front may happen. -/
theorem runs_await (p : Program β) (m : Machine σ) (h : m.Orderly) :
    m.Runs engine (m.await engine p).2 := by
  have begun : m.Runs engine (advance engine .front p (m.cancel .front)).2 :=
    runs_of_acts (.head (.cancels m) (acts_advance p _)) h
  exact begun.trans (Scene.runs_run ⟨_, _, false, 0⟩ (begun.path.orderly h))

/-- To let the machine run until something is so is to run it. -/
theorem runs_runUntil (stop : Machine σ → Bool) (s : Scene σ Unit) (h : s.machine.Orderly) :
    s.machine.Runs engine (runUntil engine stop s) := by
  induction s using runUntil.induct engine stop with
  | case1 s stops =>
    rw [runUntil, if_pos stops]
  | case2 s goes ends =>
    rw [runUntil, if_neg goes]
    split
    · exact .refl
    · next ticks => cases ends.symm.trans ticks
  | case3 s goes t ticks ih =>
    have first := Scene.runs_tick ticks h
    rw [runUntil, if_neg goes]
    split
    · next ends => cases ticks.symm.trans ends
    · next t' ticks' =>
      cases ticks.symm.trans ticks'
      exact first.trans (ih (first.path.orderly h))

/-- A machine may do whatever it does until an agent in the background has ended. -/
theorem runs_join (i : Nat) (m : Machine σ) (h : m.Orderly) :
    m.Runs engine (m.join engine i).2 := by
  unfold join
  dsimp only
  split
  · exact .refl
  · exact runs_runUntil _ ⟨m, .finished (), false, 0⟩ h

end Machine

namespace Engine

open Machine (Runs)

variable (engine : Engine σ)

/-- To launch workflows is to run the machine. -/
theorem runs_launchAll (data : Json) (ws : List Workflow) (m : Machine σ) :
    m.Runs engine (engine.launchAll data ws m).2 := by
  induction ws generalizing m with
  | nil => exact .refl
  | cons w rest ih => exact .head ⟨.launched m w data, fun _ => rfl⟩ (ih _)

/-- An event is dispatched by launching what it triggers. -/
theorem runs_dispatch (eventType : String) (data : Json) (m : Machine σ) :
    m.Runs engine (engine.dispatch eventType data m).2 :=
  engine.runs_launchAll data _ m

theorem runs_dispatchAll (received : List Received) (m : Machine σ) :
    m.Runs engine (engine.dispatchAll received m).2 := by
  induction received generalizing m with
  | nil => exact .refl
  | cons r rest ih =>
    cases r with
    | event e => exact (engine.runs_dispatch e.eventType e.data m).trans (ih _)
    | lagged lost => exact ih m
    | empty => exact ih m
    | closed => exact ih m

/-- To wait for executions is to let the machine run until each has ended. -/
theorem runs_awaitAll (started : List Started) (m : Machine σ) (h : m.Orderly) :
    m.Runs engine (engine.awaitAll started m) := by
  induction started generalizing m with
  | nil => exact .refl
  | cons s rest ih =>
    have first : m.Runs engine _ := Machine.runs_join s.agent m h
    exact first.trans (ih _ (first.path.orderly h))

theorem runs_listen (received : List Received) (m : Machine σ) (h : m.Orderly) :
    m.Runs engine (engine.listen received m).2 := by
  have dispatched := engine.runs_dispatchAll received m
  exact dispatched.trans (engine.runs_awaitAll _ _ (dispatched.path.orderly h))

/-- To draw from the supply is no matter of the store and the background. -/
theorem runs_draws (supply : Supply) {m : Machine σ} (h : m.Orderly) :
    m.Runs engine { m with supply } :=
  Machine.runs_of_acts (.single (.draws m supply)) h

/-- A workflow is run to its end in front, while those in the background go on. -/
theorem runs_start (w : Workflow) (data : Json) (m : Machine σ) (h : m.Orderly) :
    m.Runs engine (engine.start w data m).2 := by
  have prepared := engine.runs_draws (engine.prepare w data m.supply).2 h
  exact prepared.trans (Machine.runs_await _ _ (prepared.path.orderly h))

theorem runs_execute (id : String) (data : Json) (m : Machine σ) (h : m.Orderly) :
    m.Runs engine (engine.execute id data m).2 := by
  unfold execute
  split
  · exact .refl
  · next w _ =>
    split
    · exact engine.runs_start w data m h
    · exact .refl

theorem runs_invoke (a : Action) (data : Json) (m : Machine σ) (h : m.Orderly) :
    m.Runs engine (engine.invoke a data m).2 := by
  have awaited : m.Runs engine _ :=
    Machine.runs_await (Program.invoke none .inTurn [prepared data a]) m h
  unfold invoke
  dsimp only
  split <;> exact awaited

end Engine

end EventFlow
