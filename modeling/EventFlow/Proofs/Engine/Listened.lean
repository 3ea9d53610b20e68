import EventFlow.Proofs.Engine.Returning

/-!
# The listener loses and doubles nothing

When the listener has returned, every event that was published has been dispatched exactly once and
in order, but for those that were reported as lost; the number that it returns is that of the
workflows that were active with the trigger at each dispatch; and every execution that it started
has ended, and is in the ledger (`Listened`). When the bus is closed, it returns, and where nobody
else acts, it returns what `Engine.listen` does. This holds of every run of a station
(`Engine.listened_of_run`). `Engine.listen` is in `EventFlow.Engine.Trigger`, and what a listener
does next is `Station.act` (`EventFlow.Engine.Listener`).
-/

set_option autoImplicit false

open Relation (ReflTransGen)

namespace EventFlow

variable {σ : Type}

open Execution (Ended)

namespace Machine

variable {engine : Engine σ} {m m' : Machine σ}

theorem outcome?_launchAll (data : Json) (ws : List Workflow) (m : Machine σ) (i : Nat) :
    (engine.launchAll data ws m).2.outcome? i = m.outcome? i := by
  induction ws generalizing m with
  | nil => rfl
  | cons w rest ih => exact (ih _).trans (outcome?_launch engine w data m i)

/-- Who has only just been launched has not ended. -/
theorem outcome?_of_launchAll {data : Json} {ws : List Workflow} {s : Started}
    (hs : s ∈ (engine.launchAll data ws m).1) :
    (engine.launchAll data ws m).2.outcome? s.agent = none := by
  have numbered : s.agent ∈ List.range' m.agents.length ws.length := by
    rw [← (agents_launchAll engine data ws m).1]
    exact List.mem_map_of_mem hs
  rw [outcome?_launchAll, outcome?, List.getElem?_eq_none (List.mem_range'_1.1 numbered).1]
  rfl

/-- Whoever was in flight before an event is dispatched is so afterwards, and whoever is
launched. -/
theorem outcome?_of_dispatch {inFlight : List Started}
    (going : ∀ s ∈ inFlight, m.outcome? s.agent = none) (e : Event) :
    ∀ s ∈ inFlight ++ (engine.dispatch e.eventType e.data m).1,
      (engine.dispatch e.eventType e.data m).2.outcome? s.agent = none := by
  intro s hs
  rcases List.mem_append.1 hs with old | new
  · exact (outcome?_launchAll _ _ _ _).trans (going s old)
  · exact outcome?_of_launchAll new

theorem Path.length_le (path : m.Path engine m') : m.agents.length ≤ m'.agents.length := by
  induction path with
  | refl => exact Nat.le_refl _
  | tail _ step ih => exact Nat.le_trans ih step.length_le

end Machine

namespace Station

open Machine (Path)

variable {engine : Engine σ} {start m : Machine σ} {history : History σ} {bus : Bus} {k n : Nat}
  {inFlight : List Started}

/-! ## The listener alone -/

theorem exists_run_launching (bus : Bus) (k n : Nat) (inFlight : List Started) (data : Json)
    (ws : List Workflow) (m : Machine σ) (launched : List Started) : ∃ history,
    Run engine ⟨bus, m, ⟨k, .launching data ws launched, inFlight, n⟩⟩ history
      ⟨bus, (engine.launchAll data ws m).2,
        ⟨k, .listening, inFlight ++ (launched ++ (engine.launchAll data ws m).1),
          n + (launched ++ (engine.launchAll data ws m).1).length⟩⟩ := by
  induction ws generalizing m launched with
  | nil =>
    rw [Engine.launchAll, List.append_nil]
    exact ⟨_, .single (.acts rfl)⟩
  | cons w rest ih =>
    obtain ⟨history, run⟩ :=
      ih (engine.launch w data m).2 (launched ++ [(engine.launch w data m).1])
    rw [List.append_assoc] at run
    exact ⟨_, (Run.single (.acts rfl)).append run⟩

theorem exists_run_dispatch (engine : Engine σ) (n : Nat) {bus' : Bus} {e : Event}
    (receive : bus.receive k = (some (.event e), bus'))
    (going : ∀ s ∈ inFlight, m.outcome? s.agent = none) : ∃ history,
    Run engine ⟨bus, m, ⟨k, .listening, inFlight, n⟩⟩ history
      ⟨bus', (engine.dispatch e.eventType e.data m).2,
        ⟨k, .listening, inFlight ++ (engine.dispatch e.eventType e.data m).1,
          n + (engine.dispatch e.eventType e.data m).1.length⟩⟩ := by
  have kept : (inFlight.filter fun s => (m.outcome? s.agent).isNone) = inFlight :=
    List.filter_eq_self.2 fun s hs => by rw [going s hs]; rfl
  have hears : Acts engine ⟨bus, m, ⟨k, .listening, inFlight, n⟩⟩ _ _ := .hears receive
  rw [kept] at hears
  obtain ⟨history, run⟩ := exists_run_launching bus' k n inFlight e.data
    (m.store.findActive e.eventType) m []
  exact ⟨_, ((Run.single (.acts (act_iff.2 hears))).snoc (.acts rfl)).append run⟩

/-- When the bus is closed, all that is left in it is dispatched. -/
theorem exists_run_dispatchAll (engine : Engine σ) (n : Nat) {received : List Received} {p : Nat}
    (backlog : bus.backlog p = received) (position : bus.positions[k]? = some (some p))
    (shut : bus.isOpen = false) (going : ∀ s ∈ inFlight, m.outcome? s.agent = none) :
    ∃ history bus', Run engine ⟨bus, m, ⟨k, .listening, inFlight, n⟩⟩ history
      ⟨bus', (engine.dispatchAll received m).2,
        ⟨k, .joining, inFlight ++ (engine.dispatchAll received m).1,
          n + (engine.dispatchAll received m).1.length⟩⟩ := by
  induction received generalizing bus m n inFlight p with
  | nil =>
    have receive := Bus.receive_of_position position
    obtain ⟨later, next⟩ := Bus.next_of_backlog_eq_nil shut backlog
    rw [next] at receive
    rw [Engine.dispatchAll, List.append_nil]
    exact ⟨_, _, .single (.acts (act_iff.2 (.stops receive)))⟩
  | cons r rest ih =>
    have receive := Bus.receive_of_position position
    obtain ⟨later, next, backlog', any, goesOn⟩ := Bus.next_of_backlog_eq_cons backlog
    rw [next] at receive
    -- The bus will differ only in the position of the subscriber.
    let after : Bus := { bus with positions := bus.positions.set k (some later) }
    have position' : after.positions[k]? = some (some later) :=
      List.getElem?_set_self (List.getElem?_eq_some_iff.1 position).1
    have left : after.backlog later = rest := backlog'
    cases r with
    | event e =>
      obtain ⟨first, run⟩ := exists_run_dispatch engine n receive going
      obtain ⟨more, bus', runs⟩ := ih _ left position' shut (Machine.outcome?_of_dispatch going e)
      have all := run.append runs
      rw [List.append_assoc, Nat.add_assoc, ← List.length_append] at all
      exact ⟨_, bus', all⟩
    | lagged lost =>
      obtain ⟨more, bus', runs⟩ := ih _ left position' shut going
      exact ⟨_, bus', (Run.single (.acts (act_iff.2 (.passesOver receive)))).append runs⟩
    | empty => exact absurd rfl any
    | closed => exact absurd rfl goesOn

/-- Whoever is in flight is waited for. -/
theorem exists_run_awaitAll (engine : Engine σ) (bus : Bus) (k n : Nat) (sound : m.Sound)
    (inside : ∀ s ∈ inFlight, s.agent < m.agents.length) :
    ∃ history, Run engine ⟨bus, m, ⟨k, .joining, inFlight, n⟩⟩ history
      ⟨bus, engine.awaitAll inFlight m, ⟨k, .returned, [], n⟩⟩ := by
  induction inFlight generalizing m with
  | nil => exact ⟨_, .single (.acts rfl)⟩
  | cons s rest ih =>
    obtain ⟨e, -, outcome⟩ : ∃ e, _ ∧ (m.join engine s.agent).2.outcome? s.agent = some e :=
      Machine.outcome?_join sound (inside s List.mem_cons_self)
    have path : m.Path engine _ := Machine.Runs.path (Machine.runs_join s.agent m sound.orderly)
    obtain ⟨before, waits⟩ := exists_run_of_path path bus ⟨k, .joining, s :: rest, n⟩
    obtain ⟨after, run⟩ := ih (Path.sound path sound) fun s' hs =>
      Nat.lt_of_lt_of_le (inside s' (List.mem_cons_of_mem s hs)) (Path.length_le path)
    have joins : Step engine ⟨bus, (m.join engine s.agent).2, ⟨k, .joining, s :: rest, n⟩⟩ .aside
        ⟨bus, (m.join engine s.agent).2, ⟨k, .joining, rest, n⟩⟩ :=
      .acts (act_iff.2 (.joins (by rw [outcome]; rfl)))
    exact ⟨_, (waits.snoc joins).append run⟩

/-- Where nobody else acts, the listener does what `Engine.listen` does. -/
theorem exists_run_listen {p : Nat}
    (h : (Station.mk bus m ⟨k, .listening, [], 0⟩).Orderly engine start history)
    (sound : start.Sound) (position : bus.positions[k]? = some (some p))
    (shut : bus.isOpen = false) : ∃ more bus',
      Run engine ⟨bus, m, ⟨k, .listening, [], 0⟩⟩ more
        ⟨bus', (engine.listen (bus.backlog p) m).2,
          ⟨k, .returned, [], (engine.listen (bus.backlog p) m).1⟩⟩ := by
  have nobody : ∀ s ∈ ([] : List Started), m.outcome? s.agent = none := nofun
  obtain ⟨before, bus', run⟩ := exists_run_dispatchAll engine 0 rfl position shut nobody
  rw [Nat.zero_add, List.nil_append] at run
  have orderly := run.orderly sound h
  obtain ⟨after, awaits⟩ := exists_run_awaitAll engine bus' k _
    (Path.sound orderly.manned.path sound) fun s flying => orderly.inside flying
  exact ⟨_, bus', run.append awaits⟩

end Station

open Station (triggered Enterable OwnEnterable)

/-- What has been done when the listener has returned. -/
structure Listened (engine : Engine σ) (start : Machine σ) (history : History σ) (t : Station σ) :
    Prop where
  /-- Every event that was published was received in order, or reported as lost. -/
  covered : Covers history.received history.published
  /-- Those that were received were dispatched, each of them once, in the same order. -/
  dispatched : history.matched.map Prod.fst = history.received.filterMap Received.event?
  /-- For each, the workflows were launched over its data that were active with its trigger then, -/
  launched : (history.launched.map fun (w, data, _) => (w, data)) =
    history.matched.flatMap fun (e, store) => triggered e store
  workflows : ∀ w data s, (w, data, s) ∈ history.launched → s.workflowId = w.id
  /-- and their number is returned. -/
  counted : t.listener.started = (history.matched.map fun (e, store) =>
    (store.list Workflow).countP fun w => w.status = .active ∧ w.triggerEventType = e.eventType).sum
  /-- Each execution that was started has an agent of its own, -/
  agents : (history.started.map Started.agent).Nodup
  /-- and has ended. -/
  ended : ∀ s ∈ history.started, ∃ e, t.machine.outcome? s.agent = some e ∧ e.Ended s.executionId
  /-- If its snapshot could be written, there is exactly one entry with its identifier, -/
  entered : ∀ s ∈ history.started, Enterable engine history s →
    ∃ x, t.machine.store.ledger.filter (fun y => y.id = s.executionId) = [x]
  /-- which is its own if nobody else records anything under that identifier. -/
  own : ∀ s ∈ history.started, OwnEnterable engine history s →
    (∀ x ∈ start.store.ledger, x.id ≠ s.executionId) → ∀ e, t.machine.outcome? s.agent = some e →
    t.machine.store.ledger.filter (fun y => y.id = s.executionId) = [e]

namespace Station

open Machine (Path)

variable {engine : Engine σ} {start : Machine σ} {history : History σ} {t : Station σ}

theorem length_triggered (e : Event) (store : Store) :
    (triggered e store).length =
      (store.list Workflow).countP fun w =>
        w.status = .active ∧ w.triggerEventType = e.eventType := by
  rw [triggered, List.length_map, Store.length_findActive]

theorem Orderly.ended (h : t.Orderly engine start history) (returned : t.listener.phase = .returned)
    {s : Started} (hs : s ∈ history.started) :
    ∃ e, t.machine.outcome? s.agent = some e ∧ e.Ended s.executionId := by
  have nobody : t.awaited = [] := by
    rw [awaited, h.diligent.returned returned, returned]
    rfl
  have ended : (t.machine.outcome? s.agent).isSome = true :=
    (h.attends.missed s hs).resolve_left (by rw [nobody]; exact List.not_mem_nil)
  obtain ⟨e, outcome⟩ := Option.isSome_iff_exists.1 ended
  obtain ⟨agent, there, delivers⟩ := h.manned.delivers s hs
  rw [Machine.outcome?, there, Option.bind_some] at outcome
  exact ⟨e, by rw [Machine.outcome?, there]; exact outcome, delivers.of_result outcome⟩

theorem Orderly.listened (h : t.Orderly engine start history) (sound : start.Sound)
    (returned : t.listener.phase = .returned) : Listened engine start history t := by
  obtain ⟨unread, attentive⟩ := h.attentive
  obtain ⟨seen, published, covers⟩ := attentive.covers
  obtain ⟨rfl, -⟩ := attentive.told (by rw [returned]; rfl)
  obtain ⟨matched, launched, workflows, counted, -⟩ := h.diligent
  rw [returned] at matched launched counted
  rw [List.append_nil] at published
  have ledger := (Path.sound h.manned.path sound).ledger
  have entered : ∀ s ∈ history.started, Enterable engine history s →
      ∃ x ∈ t.machine.store.ledger, x.id = s.executionId := by
    intro s hs enterable
    obtain ⟨e, outcome, -⟩ := h.ended returned hs
    exact h.manned.entered s hs enterable e outcome
  constructor
  · exact published ▸ covers
  · exact (matched.trans (List.append_nil _)).symm
  · exact (launched.trans (List.append_nil _)).symm
  · exact workflows
  · calc t.listener.started
      _ = history.started.length := counted
      _ = (history.launched.map fun (w, data, _) => (w, data)).length := by
        rw [History.started, List.length_map, List.length_map]
      _ = (history.matched.flatMap fun (e, store) => triggered e store).length := by
        rw [launched]
        exact congrArg List.length (List.append_nil _).symm
      _ = (history.matched.map fun (e, store) => (triggered e store).length).sum :=
        List.length_flatMap
      _ = _ := by simp only [length_triggered]
  · exact h.manned.distinct
  · exact fun s hs => h.ended returned hs
  · intro s hs enterable
    obtain ⟨x, hx, id⟩ := entered s hs enterable
    exact ⟨x, id ▸ Machine.filter_ledger ledger hx⟩
  · intro s hs own free e outcome
    obtain ⟨x, hx, id⟩ :=
      entered s hs fun before after happened => (own before after happened).written
    have same := h.manned.own s own free x hx id
    cases same.symm.trans outcome
    exact id ▸ Machine.filter_ledger ledger hx

end Station

/-- What can be said of a listener at any time. -/
structure Attended (engine : Engine σ) (start : Machine σ) (history : History σ) (t : Station σ) :
    Prop where
  /-- When it has returned, it has lost and doubled nothing that it received. -/
  listened : t.listener.phase = .returned → Listened engine start history t
  /-- When the bus is closed, it can return, -/
  returns : t.bus.isOpen = false →
    ∃ more last, t.Run engine more last ∧ last.listener.phase = .returned
  /-- and whatever else goes on, it does, if it is let act and executions end; -/
  inevitable : t.bus.isOpen = false → ∀ course : Nat → Station σ, course 0 = t →
    Station.Fair engine course → ∃ i, (course i).listener.phase = .returned
  /-- if nobody else acts, it does what `Engine.listen` does. -/
  alone : ∀ k p, t.listener = ⟨k, .listening, [], 0⟩ → t.bus.positions[k]? = some (some p) →
    t.bus.isOpen = false → ∃ more bus', t.Run engine more
      ⟨bus', (engine.listen (t.bus.backlog p) t.machine).2,
        ⟨k, .returned, [], (engine.listen (t.bus.backlog p) t.machine).1⟩⟩

/-- Somebody listens to a bus, others publish events, edit definitions and let executions go on: the
listener loses and doubles nothing that it receives, and returns when the bus is closed. -/
theorem Engine.listened_of_run (engine : Engine σ) {m₀ start : Machine σ} (opened : m₀.Opened)
    (path : m₀.Path engine start) {bus : Bus} {history : History σ} {t : Station σ}
    (run : (Station.enter bus start).Run engine history t) :
    Attended engine start history t := by
  have sound : start.Sound := Machine.Path.sound path opened.sound
  have orderly : t.Orderly engine start history :=
    run.orderly sound (Station.orderly_enter engine bus start)
  refine ⟨orderly.listened sound, orderly.returns sound, ?_, ?_⟩
  · rintro shut course rfl fair
    exact fair.returns sound orderly shut
  · intro k p fresh position shut
    obtain ⟨bus, m, l⟩ := t
    cases fresh
    exact Station.exists_run_listen orderly sound position shut

theorem Engine.length_dispatch {σ : Type} (engine : Engine σ) (eventType : String) (data : Json)
    (m : Machine σ) :
    (engine.dispatch eventType data m).1.length = (m.store.findActive eventType).length := by
  have agents := congrArg List.length
    (Machine.agents_launchAll engine data (m.store.findActive eventType) m).1
  rwa [List.length_map, List.length_range'] at agents

theorem Engine.doorway_findActive_left :
    doorway.store.findActive "user.left" = [farewell] := by
  simp [Store.findActive, Store.listWorkflows, Store.newestFirst, Store.list, doorway,
    Definition.table, WorkflowFilter.admits, welcome, whisper, farewell]

/-- Somebody joins and somebody leaves while others are taking leave on their own: of the executions
under way the listener starts three, two for the first event and one for the second, and it returns
when the bus is closed. -/
theorem Engine.listened_of_run_doorway :
    let busy := (logging.launch farewell .null doorway).2
    let joined : Event := ⟨default, "user.joined", .null, default⟩
    let left : Event := ⟨default, "user.left", .null, default⟩
    doorway.Opened ∧ doorway.Path logging busy ∧ ∃ history t,
      (Station.enter ⟨16, [], [], true⟩ busy).Run logging history t ∧
        [joined, left] <+: history.published ∧
        t.listener.phase = .returned ∧ t.listener.started = 3 ∧
        Listened logging busy history t := by
  intro busy joined left
  have path : doorway.Path logging busy := .single (.launched doorway farewell .null)
  have busier : busy.Happens logging (logging.launch farewell .null busy).2 :=
    .launched busy farewell .null
  have heard : (Station.enter ⟨16, [], [], true⟩ busy).Run logging _ _ :=
    .snoc (.snoc (.snoc (.snoc .nil (.published joined rfl)) (.happened busier))
      (.published left rfl)) .closed
  obtain ⟨more, bus, alone⟩ :=
    (logging.listened_of_run doorway_opened path heard).alone 0 0 rfl rfl rfl
  have run := heard.append alone
  refine ⟨doorway_opened, path, _, _, run, ?_, rfl, ?_,
    (logging.listened_of_run doorway_opened path run).listened rfl⟩
  · rw [History.published, List.filterMap_append]
    exact List.prefix_append _ _
  · have launches (m : Machine Unit) (store : m.store = doorway.store) :
        (logging.listen [.event joined, .event left] m).1 = 3 := by
      have kept : (logging.dispatch "user.joined" .null m).2.store = doorway.store :=
        (Machine.store_launchAll logging .null _ m).trans store
      change ((logging.dispatch "user.joined" .null m).1 ++ ((logging.dispatch "user.left" .null
        (logging.dispatch "user.joined" .null m).2).1 ++ [])).length = 3
      rw [List.length_append, List.length_append, length_dispatch, length_dispatch, kept, store,
        doorway_findActive, doorway_findActive_left]
      rfl
    exact launches _ rfl

end EventFlow
