import EventFlow.Engine.Listener
import EventFlow.Proofs.Engine.Dispatching
import EventFlow.Proofs.Event.Bus

/-!
# What happens at a station

The listener acts, others use the bus, and something happens to the machine, in any order: a run of
a station (`Station.Run`) is told as the history of all deeds. What has been done so far determines
what the listener is still to do: it has received what was published but for what the bus owes it
(`Station.Attentive`), it has matched what it received and launched what was matched
(`Listener.Diligent`), and whatever it started is in flight or has ended (`Station.Attends`). All
that was started delivers, and is entered in the ledger when it has ended (`Station.Manned`). A deed
of the listener is what `Station.act` says, in `EventFlow.Engine.Listener`.
-/

set_option autoImplicit false

open Relation (ReflTransGen)

namespace EventFlow

variable {σ : Type}

open Execution (Ended)

/-! ## Histories -/

namespace Phase

/-- The events that are received and not matched yet. -/
@[simp] def unmatched : Phase → List Event
  | .matching e => [e]
  | _ => []

/-- The workflows that are matched and not launched yet, with the data they will run over. -/
@[simp] def unlaunched : Phase → List (Workflow × Json)
  | .launching data rest _ => rest.map fun w => (w, data)
  | _ => []

/-- The executions that are launched and not counted yet. -/
@[simp] def uncounted : Phase → List Started
  | .launching _ _ launched => launched
  | _ => []

/-- The listener has been told that the bus is closed. -/
@[simp] def isOver : Phase → Bool
  | .joining | .returned => true
  | _ => false

end Phase

namespace Deed

@[simp] def event? : Deed σ → Option Event
  | .published e => some e
  | _ => none

@[simp] def receipt? : Deed σ → Option Received
  | .received r => some r
  | _ => none

@[simp] def match? : Deed σ → Option (Event × Store)
  | .matched e store => some (e, store)
  | _ => none

@[simp] def launch? : Deed σ → Option (Workflow × Json × Started)
  | .launched w data s => some (w, data, s)
  | _ => none

end Deed

/-- All that was done at a station, in order. -/
abbrev History (σ : Type) := List (Deed σ)

namespace History

def published (history : History σ) : List Event := history.filterMap Deed.event?

def received (history : History σ) : List Received := history.filterMap Deed.receipt?

/-- The events that were dispatched, each with the store as it was then. -/
def matched (history : History σ) : List (Event × Store) := history.filterMap Deed.match?

/-- The workflows that were launched, each with the data it runs over and the execution that was
started. -/
def launched (history : History σ) : List (Workflow × Json × Started) :=
  history.filterMap Deed.launch?

/-- The executions that were started. -/
def started (history : History σ) : List Started := history.launched.map fun (_, _, s) => s

variable (history : History σ) (d : Deed σ)

/-- What a history tells of one more deed is told at its end. -/
theorem filterMap_snoc {α : Type} (f : Deed σ → Option α) :
    (history ++ [d]).filterMap f = history.filterMap f ++ (f d).toList := by
  rw [List.filterMap_append, List.filterMap_cons]
  cases f d <;> rfl

@[simp] theorem published_snoc :
    published (history ++ [d]) = history.published ++ d.event?.toList :=
  filterMap_snoc history d Deed.event?

@[simp] theorem received_snoc :
    received (history ++ [d]) = history.received ++ d.receipt?.toList :=
  filterMap_snoc history d Deed.receipt?

@[simp] theorem matched_snoc :
    matched (history ++ [d]) = history.matched ++ d.match?.toList :=
  filterMap_snoc history d Deed.match?

@[simp] theorem launched_snoc :
    launched (history ++ [d]) = history.launched ++ d.launch?.toList :=
  filterMap_snoc history d Deed.launch?

@[simp] theorem started_snoc :
    started (history ++ [d]) = history.started ++ (d.launch?.map fun (_, _, s) => s).toList := by
  rw [started, launched_snoc, List.map_append, started]
  cases d.launch? <;> rfl

theorem started_launched (w : Workflow) (data : Json) (s : Started) :
    started (history ++ [.launched w data s]) = history.started ++ [s] :=
  started_snoc history (.launched w data s)

end History

namespace Station

/-! ## Steps -/

/-- One thing that is done at a station. -/
inductive Step (engine : Engine σ) (t : Station σ) : Deed σ → Station σ → Prop
  /-- The listener does what it does next. -/
  | acts {d : Deed σ} {t' : Station σ} (act : t.act engine = some (d, t')) : Step engine t d t'
  | published (e : Event) (isOpen : t.bus.isOpen = true) :
      Step engine t (.published e) { t with bus := (t.bus.publish e).2 }
  | closed : Step engine t .aside { t with bus := t.bus.close }
  /-- Somebody else subscribes, -/
  | subscribed (isOpen : t.bus.isOpen = true) :
      Step engine t .aside { t with bus := t.bus.subscribe.2 }
  /-- receives, -/
  | received {k : Nat} (other : k ≠ t.listener.subscriber) :
      Step engine t .aside { t with bus := (t.bus.receive k).2 }
  /-- or leaves. -/
  | left {k : Nat} (other : k ≠ t.listener.subscriber) :
      Step engine t .aside { t with bus := t.bus.leave k }
  | happened {m : Machine σ} (happens : t.machine.Happens engine m) :
      Step engine t (.happened t.machine m) { t with machine := m }

/-- One thing is done after the other. -/
inductive Run (engine : Engine σ) (t : Station σ) : History σ → Station σ → Prop
  | nil : Run engine t [] t
  | snoc {history : History σ} {t' t'' : Station σ} {d : Deed σ} (run : Run engine t history t')
      (step : Step engine t' d t'') : Run engine t (history ++ [d]) t''

variable {engine : Engine σ} {start : Machine σ} {history later : History σ} {d : Deed σ}
  {t t' t'' : Station σ}

/-- One step is a run. -/
theorem Run.single (step : t.Step engine d t') : t.Run engine [d] t' := .snoc .nil step

/-- Runs follow each other. -/
theorem Run.append (run : t.Run engine history t') (more : t'.Run engine later t'') :
    t.Run engine (history ++ later) t'' := by
  induction more with
  | nil => exact (List.append_nil history).symm ▸ run
  | snoc _ step ih =>
    rw [← List.append_assoc]
    exact .snoc ih step

/-- The things that the listener does, phase by phase. -/
inductive Acts (engine : Engine σ) : Station σ → Deed σ → Station σ → Prop
  | hears {bus bus' : Bus} {m : Machine σ} {k n : Nat} {inFlight : List Started} {e : Event}
      (got : bus.receive k = (some (.event e), bus')) :
      Acts engine ⟨bus, m, ⟨k, .listening, inFlight, n⟩⟩ (.received (.event e))
        ⟨bus', m, ⟨k, .matching e, inFlight.filter fun s => (m.outcome? s.agent).isNone, n⟩⟩
  | passesOver {bus bus' : Bus} {m : Machine σ} {k n : Nat} {inFlight : List Started} {lost : Nat}
      (got : bus.receive k = (some (.lagged lost), bus')) :
      Acts engine ⟨bus, m, ⟨k, .listening, inFlight, n⟩⟩ (.received (.lagged lost))
        ⟨bus', m, ⟨k, .listening, inFlight, n⟩⟩
  | stops {bus bus' : Bus} {m : Machine σ} {k n : Nat} {inFlight : List Started}
      (got : bus.receive k = (some .closed, bus')) :
      Acts engine ⟨bus, m, ⟨k, .listening, inFlight, n⟩⟩ (.received .closed)
        ⟨bus', m, ⟨k, .joining, inFlight, n⟩⟩
  | selects (bus : Bus) (m : Machine σ) (k n : Nat) (inFlight : List Started) (e : Event) :
      Acts engine ⟨bus, m, ⟨k, .matching e, inFlight, n⟩⟩ (.matched e m.store)
        ⟨bus, m, ⟨k, .launching e.data (m.store.findActive e.eventType) [], inFlight, n⟩⟩
  | launches (bus : Bus) (m : Machine σ) (k n : Nat) (inFlight : List Started) (data : Json)
      (w : Workflow) (rest : List Workflow) (launched : List Started) :
      Acts engine ⟨bus, m, ⟨k, .launching data (w :: rest) launched, inFlight, n⟩⟩
        (.launched w data (engine.launch w data m).1)
        ⟨bus, (engine.launch w data m).2,
          ⟨k, .launching data rest (launched ++ [(engine.launch w data m).1]), inFlight, n⟩⟩
  | counts (bus : Bus) (m : Machine σ) (k n : Nat) (inFlight : List Started) (data : Json)
      (launched : List Started) :
      Acts engine ⟨bus, m, ⟨k, .launching data [] launched, inFlight, n⟩⟩ .aside
        ⟨bus, m, ⟨k, .listening, inFlight ++ launched, n + launched.length⟩⟩
  | joins {bus : Bus} {m : Machine σ} {k n : Nat} {s : Started} {inFlight : List Started}
      (ended : (m.outcome? s.agent).isSome = true) :
      Acts engine ⟨bus, m, ⟨k, .joining, s :: inFlight, n⟩⟩ .aside
        ⟨bus, m, ⟨k, .joining, inFlight, n⟩⟩
  | returns (bus : Bus) (m : Machine σ) (k n : Nat) :
      Acts engine ⟨bus, m, ⟨k, .joining, [], n⟩⟩ .aside ⟨bus, m, ⟨k, .returned, [], n⟩⟩

/-- What the listener does next is one of the things that it does in its phase. -/
theorem act_iff : t.act engine = some (d, t') ↔ Acts engine t d t' := by
  constructor
  · obtain ⟨bus, m, ⟨k, phase, inFlight, n⟩⟩ := t
    intro act
    cases phase with
    | listening =>
      simp only [Station.act] at act
      split at act
      · next got => cases act; exact .hears got
      · next got => cases act; exact .passesOver got
      · next got => cases act; exact .stops got
      · cases act
    | matching e => cases act; exact .selects bus m k n inFlight e
    | launching data rest launched =>
      cases rest with
      | nil => cases act; exact .counts bus m k n inFlight data launched
      | cons w rest => cases act; exact .launches bus m k n inFlight data w rest launched
    | joining =>
      cases inFlight with
      | nil => cases act; exact .returns bus m k n
      | cons s inFlight =>
        simp only [Station.act] at act
        split at act
        · next ended => cases act; exact .joins ended
        · cases act
    | returned => cases act
  · intro acts
    cases acts with
    | hears got => simp [Station.act, got]
    | passesOver got => simp [Station.act, got]
    | stops got => simp [Station.act, got]
    | selects => rfl
    | launches => rfl
    | counts => rfl
    | joins ended => simp [Station.act, ended]
    | returns => rfl

/-! ## What the listener hears -/

/-- The listener has received all that was published but for what it is still to receive; when it
waits for executions, nothing more will come. -/
structure Attentive (history : History σ) (t : Station σ) (unread : List Event) : Prop where
  covers : ∃ seen, history.published = seen ++ unread ∧ Covers history.received seen
  owes : t.bus.Owes t.listener.subscriber unread
  told : t.listener.phase.isOver = true → unread = [] ∧ t.bus.isOpen = false

/-- Most things are no matter of the bus. -/
theorem Attentive.aside {unread : List Event} (h : t.Attentive history unread)
    (published : d.event? = none) (received : d.receipt? = none)
    (owes : t'.bus.Owes t'.listener.subscriber unread)
    (told : t'.listener.phase.isOver = true → unread = [] ∧ t'.bus.isOpen = false) :
    t'.Attentive (history ++ [d]) unread := by
  refine ⟨?_, owes, told⟩
  rw [History.published_snoc, History.received_snoc, published, received]
  simpa using h.covers

/-- The listener receives what the bus owes it. -/
theorem Attentive.receives {unread : List Event} (h : t.Attentive history unread) {got : Received}
    {bus : Bus} (receive : t.bus.receive t.listener.subscriber = (some got, bus))
    (any : got ≠ .empty) : ∃ rest, Gets t.bus.isOpen unread got rest ∧
      ∀ phase inFlight, (phase.isOver = true → rest = [] ∧ bus.isOpen = false) →
        (Station.mk bus t.machine { t.listener with phase, inFlight }).Attentive
          (history ++ [.received got]) rest := by
  obtain ⟨got', rest, after, received, gets, owes⟩ := h.owes.receive
  cases received.symm.trans receive
  obtain ⟨seen, published, covers⟩ := h.covers
  obtain ⟨new, rfl, covers'⟩ := covers.gets gets any
  refine ⟨rest, gets, fun phase inFlight told => ⟨⟨seen ++ new, ?_, ?_⟩, owes, told⟩⟩
  · simpa using published
  · simpa using covers'

/-- When the listener acts, it misses nothing that has been published: what it receives is what
comes next of the unread. -/
theorem Acts.attentive {unread : List Event} (acts : Acts engine t d t')
    (h : t.Attentive history unread) : ∃ rest, t'.Attentive (history ++ [d]) rest := by
  cases acts with
  | hears got =>
    obtain ⟨rest, -, attentive⟩ := h.receives got nofun
    exact ⟨rest, attentive _ _ nofun⟩
  | passesOver got =>
    obtain ⟨rest, -, attentive⟩ := h.receives got nofun
    exact ⟨rest, attentive _ _ nofun⟩
  | @stops bus bus' m k n inFlight got =>
    obtain ⟨rest, gets, attentive⟩ := h.receives got nofun
    cases gets with
    | closed shut =>
      have same := bus.isOpen_receive k
      rw [got] at same
      exact ⟨[], attentive _ _ fun _ => ⟨rfl, same.trans shut⟩⟩
  | selects => exact ⟨unread, h.aside rfl rfl h.owes nofun⟩
  | launches => exact ⟨unread, h.aside rfl rfl h.owes nofun⟩
  | counts => exact ⟨unread, h.aside rfl rfl h.owes nofun⟩
  | joins => exact ⟨unread, h.aside rfl rfl h.owes h.told⟩
  | returns => exact ⟨unread, h.aside rfl rfl h.owes h.told⟩

/-- Whoever acts, the listener misses nothing. What others publish comes behind the unread, and what
others receive is not taken from the listener. -/
theorem Step.attentive {unread : List Event} (step : t.Step engine d t')
    (h : t.Attentive history unread) : ∃ rest, t'.Attentive (history ++ [d]) rest := by
  cases step with
  | acts act => exact (act_iff.1 act).attentive h
  | published e isOpen =>
    obtain ⟨seen, published, covers⟩ := h.covers
    refine ⟨unread ++ [e], ⟨seen, ?_, ?_⟩, h.owes.publish e, fun told => ?_⟩
    · simp [published]
    · simpa using covers
    · -- Nobody publishes when the listener has been told that the bus is closed.
      cases isOpen.symm.trans (h.told told).2
  | closed => exact ⟨unread, h.aside rfl rfl h.owes.close fun told => ⟨(h.told told).1, rfl⟩⟩
  | subscribed isOpen => exact ⟨unread, h.aside rfl rfl h.owes.subscribe fun told => h.told told⟩
  | received other =>
    refine ⟨unread, h.aside rfl rfl (h.owes.receive_other other) fun told => ?_⟩
    rw [Bus.isOpen_receive]
    exact h.told told
  | left other =>
    exact ⟨unread, h.aside rfl rfl (h.owes.leave other) fun told => h.told told⟩
  | happened happens => exact ⟨unread, h.aside rfl rfl h.owes h.told⟩

/-! ## What the listener does about it -/

/-- The workflows that an event triggers in a store, each with the data it is to run over. -/
def triggered (e : Event) (store : Store) : List (Workflow × Json) :=
  (store.findActive e.eventType).map fun w => (w, e.data)

end Station

open Station (triggered)

/-- Every event that was received is matched, every workflow that was matched is launched, and all
that was launched is counted, but for what is left to do. -/
structure Listener.Diligent (history : History σ) (l : Listener) : Prop where
  matched : history.received.filterMap Received.event? =
    history.matched.map Prod.fst ++ l.phase.unmatched
  launched : (history.matched.flatMap fun (e, store) => triggered e store) =
    (history.launched.map fun (w, data, _) => (w, data)) ++ l.phase.unlaunched
  workflows : ∀ w data s, (w, data, s) ∈ history.launched → s.workflowId = w.id
  counted : l.started + l.phase.uncounted.length = history.started.length
  returned : l.phase = .returned → l.inFlight = []

namespace Station

variable {engine : Engine σ} {start : Machine σ} {history later : History σ} {d : Deed σ}
  {t t' t'' : Station σ}

/-- When the listener acts, it goes on with what it has received and nothing else. -/
theorem Acts.diligent (acts : Acts engine t d t') (h : t.listener.Diligent history) :
    t'.listener.Diligent (history ++ [d]) := by
  obtain ⟨matched, launched, workflows, counted, returned⟩ := h
  cases acts with
  | hears got =>
    exact ⟨by simpa [Received.event?] using matched, by simpa using launched,
      by simpa using workflows, by simpa using counted, fun same => by cases same⟩
  | passesOver got =>
    exact ⟨by simpa [List.filterMap_cons, Received.event?] using matched, by simpa using launched,
      by simpa using workflows, by simpa using counted, fun same => by cases same⟩
  | stops got =>
    exact ⟨by simpa [List.filterMap_cons, Received.event?] using matched, by simpa using launched,
      by simpa using workflows, by simpa using counted, fun same => by cases same⟩
  | selects bus m k n inFlight e =>
    refine ⟨by simpa using matched, ?_, by simpa using workflows, by simpa using counted,
      fun same => by cases same⟩
    simpa [triggered] using launched
  | launches bus m k n inFlight data w rest before =>
    refine ⟨by simpa using matched, by simpa using launched, ?_, ?_, fun same => by cases same⟩
    · intro w' data' s new
      rcases List.mem_append.1 (History.launched_snoc history _ ▸ new) with old | new
      · exact workflows w' data' s old
      · cases List.mem_singleton.1 new
        rfl
    · simp at counted ⊢
      omega
  | counts =>
    exact ⟨by simpa using matched, by simpa using launched, by simpa using workflows,
      by simpa using counted, fun same => by cases same⟩
  | joins =>
    exact ⟨by simpa using matched, by simpa using launched, by simpa using workflows,
      by simpa using counted, fun same => by cases same⟩
  | returns =>
    exact ⟨by simpa using matched, by simpa using launched, by simpa using workflows,
      by simpa using counted, fun _ => rfl⟩

/-- Others have no hand in what the listener does. -/
theorem Step.diligent (step : t.Step engine d t') (h : t.listener.Diligent history) :
    t'.listener.Diligent (history ++ [d]) := by
  cases step with
  | acts act => exact (act_iff.1 act).diligent h
  | _ =>
    obtain ⟨matched, launched, workflows, counted, returned⟩ := h
    exact ⟨by simpa using matched, by simpa using launched, by simpa using workflows,
      by simpa using counted, returned⟩

/-! ## What becomes of the executions -/

open Machine (Written OwnWritten)

/-- What a deed does to the machine. -/
inductive Moves (engine : Engine σ) (m : Machine σ) : Deed σ → Machine σ → Prop
  | stays {d : Deed σ} (launch : d.launch? = none) : Moves engine m d m
  | launches (w : Workflow) (data : Json) :
      Moves engine m (.launched w data (engine.launch w data m).1) (engine.launch w data m).2
  | happens {m' : Machine σ} (happens : m.Happens engine m') :
      Moves engine m (.happened m m') m'

/-- Every step moves the machine in one of three ways: not at all, by a launch, or as something
happens to it. -/
theorem Step.moves (step : t.Step engine d t') : Moves engine t.machine d t'.machine := by
  cases step with
  | acts act => cases act_iff.1 act with
    | launches => exact .launches _ _
    | _ => exact .stays rfl
  | happened happens => exact .happens happens
  | _ => exact .stays rfl

/-- However the machine is moved, something may happen to it. -/
theorem Moves.path {m m' : Machine σ} (moves : Moves engine m d m') : m.Path engine m' := by
  cases moves with
  | stays => exact .refl
  | launches w data => exact .single (.launched m w data)
  | happens happens => exact .single happens

/-- Whatever happened to the machine, the execution could be entered when it ended. -/
def Enterable (engine : Engine σ) (history : History σ) (s : Started) : Prop :=
  ∀ before after, .happened before after ∈ history → Written engine s before after

/-- The same, and nobody else recorded anything under the identifier of the execution. -/
def OwnEnterable (engine : Engine σ) (history : History σ) (s : Started) : Prop :=
  ∀ before after, .happened before after ∈ history → OwnWritten engine s before after

/-- An execution that could be entered all the time could be so before. -/
theorem Enterable.before {s : Started} (h : Enterable engine (history ++ [d]) s) :
    Enterable engine history s :=
  fun before after happened => h before after (List.mem_append_left _ happened)

/-- What nobody else recorded all the time nobody had recorded before. -/
theorem OwnEnterable.before {s : Started} (h : OwnEnterable engine (history ++ [d]) s) :
    OwnEnterable engine history s :=
  fun before after happened => h before after (List.mem_append_left _ happened)

/-- Every execution that was started has an agent of its own that delivers it, and if it could be
entered in the ledger when it ended, it is there. -/
structure Manned (engine : Engine σ) (start : Machine σ) (history : History σ) (m : Machine σ) :
    Prop where
  path : start.Path engine m
  delivers : ∀ s ∈ history.started, ∃ agent, m.agents[s.agent]? = some agent ∧
    agent.Delivers (Ended s.executionId) (m.alarmsOf (.background s.agent))
  distinct : (history.started.map Started.agent).Nodup
  entered : ∀ s ∈ history.started, Enterable engine history s →
    ∀ e, m.outcome? s.agent = some e → ∃ x ∈ m.store.ledger, x.id = s.executionId
  own : ∀ s : Started, OwnEnterable engine history s →
    (∀ x ∈ start.store.ledger, x.id ≠ s.executionId) →
    ∀ x ∈ m.store.ledger, x.id = s.executionId → m.outcome? s.agent = some x

section Manned

variable {m m' : Machine σ}

/-- What happens to the machine leaves the executions that were started where they are. -/
theorem Manned.happens (h : Manned engine start history m) (sound : m.Sound)
    (happens : m.Happens engine m') :
    Manned engine start (history ++ [.happened m m']) m' := by
  have started : History.started (history ++ [.happened m m']) = history.started := by simp
  have now : Deed.happened m m' ∈ history ++ [.happened m m'] :=
    List.mem_append_right _ (List.mem_singleton_self _)
  constructor
  · exact h.path.tail happens
  · intro s hs
    obtain ⟨agent, there, delivers⟩ := h.delivers s (started ▸ hs)
    obtain ⟨agent', becomes⟩ := happens.becomes sound.orderly there delivers
    exact ⟨agent', becomes.there, becomes.delivers⟩
  · rw [started]
    exact h.distinct
  · intro s hs enterable e outcome
    obtain ⟨agent, there, delivers⟩ := h.delivers s (started ▸ hs)
    exact (enterable m m' now).enters sound there delivers
      (h.entered s (started ▸ hs) enterable.before) outcome
  · intro s own free x hx id
    exact (own m m' now).outcome_of_mem sound (h.own s own.before free) hx id

/-- A launch gives the new execution an agent of its own. -/
theorem Manned.launches (h : Manned engine start history m) (sound : m.Sound) (w : Workflow)
    (data : Json) : Manned engine start
      (history ++ [.launched w data (engine.launch w data m).1]) (engine.launch w data m).2 := by
  have launched : m.Happens engine (engine.launch w data m).2 := .launched m w data
  have inside : ∀ s ∈ history.started, s.agent < m.agents.length := by
    intro s hs
    obtain ⟨agent, there, -⟩ := h.delivers s hs
    exact (List.getElem?_eq_some_iff.1 there).1
  constructor
  · exact h.path.tail launched
  · intro s hs
    rcases List.mem_append.1 (History.started_launched _ _ _ _ ▸ hs) with old | new
    · obtain ⟨agent, there, delivers⟩ := h.delivers s old
      obtain ⟨agent', becomes⟩ := launched.becomes sound.orderly there delivers
      exact ⟨agent', becomes.there, becomes.delivers⟩
    · cases List.mem_singleton.1 new
      exact ⟨_, (Machine.agent_launch engine w data sound.orderly).1,
        Machine.delivers_launch engine w data sound.orderly⟩
  · rw [History.started_launched, List.map_append, List.map_singleton, List.nodup_append]
    refine ⟨h.distinct, List.nodup_singleton _, ?_⟩
    rintro i hi j hj rfl
    obtain ⟨s, hs, rfl⟩ := List.mem_map.1 hi
    exact absurd (inside s hs) (List.mem_singleton.1 hj ▸ Nat.lt_irrefl _)
  · intro s hs enterable e outcome
    rw [Machine.outcome?_launch] at outcome
    rcases List.mem_append.1 (History.started_launched _ _ _ _ ▸ hs) with old | new
    · exact h.entered s old enterable.before e outcome
    · -- Who has only just been launched has not ended.
      cases List.mem_singleton.1 new
      have none_yet : m.outcome? m.agents.length = none := by
        rw [Machine.outcome?, List.getElem?_eq_none (Nat.le_refl _), Option.bind_none]
      cases none_yet.symm.trans outcome
  · intro s own free x hx id
    rw [Machine.outcome?_launch]
    exact h.own s own.before free x hx id

/-- Executions have agents of their own, however the machine moves. -/
theorem Moves.manned (moves : Moves engine m d m') (sound : m.Sound)
    (h : Manned engine start history m) : Manned engine start (history ++ [d]) m' := by
  cases moves with
  | stays launch =>
    have started : History.started (history ++ [d]) = history.started := by
      rw [History.started_snoc, launch]
      exact List.append_nil _
    obtain ⟨path, delivers, distinct, entered, own⟩ := h
    rw [← started] at delivers distinct entered
    exact ⟨path, delivers, distinct, fun s hs enterable => entered s hs enterable.before,
      fun s owned => own s owned.before⟩
  | launches w data => exact h.launches sound w data
  | happens happens => exact h.happens sound happens

end Manned

/-- The executions that the listener will wait for. -/
def awaited (t : Station σ) : List Started := t.listener.inFlight ++ t.listener.phase.uncounted

/-- The listener will wait for executions that it has started, and for all that have not ended. -/
structure Attends (history : History σ) (t : Station σ) : Prop where
  known : ∀ s ∈ t.awaited, s ∈ history.started
  missed : ∀ s ∈ history.started, s ∈ t.awaited ∨ (t.machine.outcome? s.agent).isSome = true

/-- As long as nothing is launched, it is enough to keep what has not ended. -/
theorem Attends.of_started (h : t.Attends history)
    (started : later.started = history.started) (fewer : ∀ s ∈ t'.awaited, s ∈ t.awaited)
    (kept : ∀ s ∈ t.awaited, s ∈ t'.awaited ∨ (t'.machine.outcome? s.agent).isSome = true)
    (ended : ∀ s : Started, (t.machine.outcome? s.agent).isSome = true →
      (t'.machine.outcome? s.agent).isSome = true) : t'.Attends later where
  known s hs := started ▸ h.known s (fewer s hs)
  missed s hs := (h.missed s (started ▸ hs)).elim (kept s) fun before => .inr (ended s before)

/-- The listener forgets only executions that have ended. -/
theorem Acts.attends (acts : Acts engine t d t') (h : t.Attends history) :
    t'.Attends (history ++ [d]) := by
  cases acts with
  | @hears bus bus' m k n inFlight e got =>
    refine h.of_started (by simp) (fun s hs => ?_) (fun s hs => ?_) fun _ => id
    · simp [awaited] at hs ⊢
      exact hs.1
    · -- Only what has ended is taken out.
      cases ended : (m.outcome? s.agent).isSome with
      | true => exact .inr rfl
      | false =>
        left
        simp [awaited] at hs ⊢
        exact ⟨hs, by simpa using ended⟩
  | passesOver got => exact h.of_started (by simp) (fun _ => id) (fun _ => .inl) fun _ => id
  | stops got => exact h.of_started (by simp) (fun _ => id) (fun _ => .inl) fun _ => id
  | selects => exact h.of_started (by simp) (fun _ => id) (fun _ => .inl) fun _ => id
  | launches bus m k n inFlight data w rest launched =>
    constructor
    · intro s hs
      rw [History.started_launched, List.mem_append, List.mem_singleton]
      simp [awaited] at hs
      rcases hs with flying | uncounted | new
      · exact .inl (h.known s (List.mem_append_left _ flying))
      · exact .inl (h.known s (List.mem_append_right _ uncounted))
      · exact .inr new
    · intro s hs
      rw [History.started_launched, List.mem_append, List.mem_singleton] at hs
      rw [Machine.outcome?_launch]
      rcases hs with old | new
      · refine (h.missed s old).imp_left fun there => ?_
        simp [awaited] at there ⊢
        exact or_assoc.1 (.inl there)
      · simp [awaited, new]
  | counts bus m k n inFlight data launched =>
    have same : ∀ s, s ∈ (inFlight ++ launched) ++ [] ↔ s ∈ inFlight ++ launched := by simp
    exact h.of_started (by simp) (fun s => (same s).1) (fun s hs => .inl ((same s).2 hs))
      fun _ => id
  | @joins bus m k n s inFlight ended =>
    refine h.of_started (by simp) (fun s' => List.mem_cons_of_mem s) (fun s' hs => ?_) fun _ => id
    rcases List.mem_cons.1 hs with rfl | rest
    · exact .inr ended
    · exact .inl rest
  | returns => exact h.of_started (by simp) (fun _ => id) (fun _ => .inl) fun _ => id

/-- No execution that is under way is forgotten, whoever acts. -/
theorem Step.attends (step : t.Step engine d t') (sound : t.machine.Sound) (h : t.Attends history) :
    t'.Attends (history ++ [d]) := by
  cases step with
  | acts act => exact (act_iff.1 act).attends h
  | happened happens =>
    refine h.of_started (by simp) (fun _ => id) (fun _ => .inl) fun s ended => ?_
    obtain ⟨e, outcome⟩ := Option.isSome_iff_exists.1 ended
    exact Option.isSome_iff_exists.2 ⟨e, happens.outcome?_kept sound outcome⟩
  | _ => exact h.of_started (by simp) (fun _ => id) (fun _ => .inl) fun _ => id

/-! ## Runs -/

/-- All that is known of a station at any time. -/
structure Orderly (engine : Engine σ) (start : Machine σ) (history : History σ) (t : Station σ) :
    Prop where
  attentive : ∃ unread, t.Attentive history unread
  diligent : t.listener.Diligent history
  attends : t.Attends history
  manned : Manned engine start history t.machine

/-- A listener that has just subscribed is in order: nothing has been published to it, and nothing
started. -/
theorem orderly_enter (engine : Engine σ) (bus : Bus) (start : Machine σ) :
    (enter bus start).Orderly engine start [] where
  attentive := ⟨[], ⟨[], rfl, .nil⟩, bus.owes_subscribe, nofun⟩
  diligent := ⟨rfl, rfl, nofun, rfl, nofun⟩
  attends := ⟨nofun, nofun⟩
  manned := ⟨.refl, nofun, List.nodup_nil, nofun, fun _ _ free x hx id => absurd id (free x hx)⟩

/-- Every step keeps a station in order: the listener hears all, does what it is to do, and loses no
execution. -/
theorem Step.orderly (step : t.Step engine d t') (sound : start.Sound)
    (h : t.Orderly engine start history) : t'.Orderly engine start (history ++ [d]) := by
  obtain ⟨⟨unread, attentive⟩, diligent, attends, manned⟩ := h
  have now : t.machine.Sound := Machine.Path.sound manned.path sound
  exact ⟨step.attentive attentive, step.diligent diligent, step.attends now attends,
    step.moves.manned now manned⟩

/-- A station stays in order, however long it runs. -/
theorem Run.orderly (run : t.Run engine later t') (sound : start.Sound)
    (h : t.Orderly engine start history) : t'.Orderly engine start (history ++ later) := by
  induction run with
  | nil => exact (List.append_nil history).symm ▸ h
  | snoc _ step ih =>
    rw [← List.append_assoc]
    exact step.orderly sound ih

end Station

end EventFlow
