import EventFlow.Proofs.Engine.Solo
import EventFlow.Proofs.Engine.Validation
import EventFlow.Proofs.Store.Triggered

/-!
# Dispatch is exact and isolating

An event starts one execution of each active workflow that it triggers, newest workflow first, and
no other (`Dispatched`). Where handlers behave in one way, each of them comes to the execution that
its workflow would come to alone, whatever happens meanwhile (`Isolated`), and if no snapshot write
fails, there is one entry for it in the ledger (`Entered`). This holds for every machine that has
come from one where nobody was under way (`Engine.dispatched_of_path`). The event is dispatched by
`Engine.dispatch`, in `EventFlow.Engine.Trigger`.
-/

set_option autoImplicit false

open Relation (ReflTransGen)

namespace EventFlow

variable {σ β : Type}

open Execution (Ended EndAlike)

namespace Machine

variable {engine : Engine σ} {m m' m'' : Machine σ}

/-! ## Reachable machines -/

/-- A machine on which nobody is under way yet. Its store may have been read from a file: its tables
are tidy and its ledger is sound. -/
structure Opened (m : Machine σ) : Prop where
  agents : m.agents = []
  alarms : m.alarms = []
  tidy : m.store.collections.Tidy
  ledger : Ledger.Sound m.store.ledger

/-- A machine with a store that has just been opened is sound. -/
theorem Opened.sound (h : m.Opened) : m.Sound := sound_of_idle h.agents h.alarms h.ledger

/-- Whatever happens keeps the tables sorted and under their identifiers. -/
theorem Happens.tidy (step : m.Happens engine m') (h : m.store.collections.Tidy) :
    m'.store.collections.Tidy := by
  have kept (same : ∀ k, m'.store.collections.table k = m.store.collections.table k) :
      m'.store.collections.Tidy := fun k => same k ▸ h k
  cases step with
  | @goesOff a before after alarms own first =>
    obtain ⟨i, hi⟩ := exists_background own
    have acts : Acts engine (.background i) _ _ := acts_goOff hi (before ++ after) m
    exact kept acts.spares.tables
  | requested request supply =>
    refine request.tidy_perform supply ?_
    rw [Disk.collections_facing]
    exact h
  | recorded e =>
    refine kept fun k => ?_
    rw [change, Store.table_record, Disk.collections_facing]
  | launched w data => exact h
  | aside agents store => exact kept fun k => by rw [store]

/-- The tables stay tidy, however much happens. -/
theorem Path.tidy (path : m.Path engine m') (h : m.store.collections.Tidy) :
    m'.store.collections.Tidy := by
  induction path with
  | refl => exact h
  | tail _ step ih => exact step.tidy ih

/-! ## Launched executions -/

/-- The agent of a started execution is about to drive its workflow over data. -/
structure Launched (engine : Engine σ) (data : Json) (m : Machine σ) (s : Started) (w : Workflow) :
    Prop where
  workflow : s.workflowId = w.id
  agent : ∃ supply, s.executionId = (engine.prepare w data supply).1.id ∧
    m.agents[s.agent]? = some (.ready (engine.drive w (engine.prepare w data supply).1))
  alarms : ∃ time, m.alarmsOf (.background s.agent) = [⟨time, .background s.agent, .wake⟩]

/-- A launched workflow has an agent of its own that has not begun. -/
theorem launched_launch (engine : Engine σ) (w : Workflow) (data : Json) (h : m.Orderly) :
    Launched engine data (engine.launch w data m).2 (engine.launch w data m).1 w :=
  ⟨rfl, ⟨m.supply, rfl, (agent_launch engine w data h).1⟩, _, (agent_launch engine w data h).2⟩

/-- What has been launched stays so when another workflow is launched. -/
theorem Launched.launch {data : Json} {s : Started} {w : Workflow}
    (h : Launched engine data m s w) (w' : Workflow) (data' : Json) :
    Launched engine data (engine.launch w' data' m).2 s w := by
  obtain ⟨workflow, ⟨supply, id, there⟩, time, alarms⟩ := h
  have inside : s.agent < m.agents.length := (List.getElem?_eq_some_iff.1 there).1
  refine ⟨workflow, ⟨supply, id, (List.getElem?_append_left inside).trans there⟩, time,
    (alarmsOf_setAlarm_of_ne ?_ _).trans alarms⟩
  intro same
  exact absurd inside (Owner.background.inj same ▸ Nat.lt_irrefl _)

/-- What has been launched stays so when a list of workflows is launched. -/
theorem Launched.launchAll {data : Json} {s : Started} {w : Workflow}
    (h : Launched engine data m s w) (data' : Json) (ws : List Workflow) :
    Launched engine data (engine.launchAll data' ws m).2 s w := by
  induction ws generalizing m with
  | nil => exact h
  | cons w' rest ih => exact ih (h.launch w' data')

/-- Every workflow of a list is launched, in order. -/
theorem launched_launchAll (engine : Engine σ) (data : Json) (ws : List Workflow)
    (h : m.Orderly) : List.Forall₂ (Launched engine data (engine.launchAll data ws m).2)
      (engine.launchAll data ws m).1 ws := by
  induction ws generalizing m with
  | nil => exact .nil
  | cons w rest ih =>
    have step : m.Happens engine (engine.launch w data m).2 := .launched m w data
    exact .cons ((launched_launch engine w data h).launchAll data rest) (ih (step.orderly h))

/-- To launch workflows is nothing to the store. -/
theorem store_launchAll (engine : Engine σ) (data : Json) (ws : List Workflow) (m : Machine σ) :
    (engine.launchAll data ws m).2.store = m.store := by
  induction ws generalizing m with
  | nil => rfl
  | cons w rest ih => exact ih _

/-- Workflows that are launched get agents of their own, which are numbered on. -/
theorem agents_launchAll (engine : Engine σ) (data : Json) (ws : List Workflow) (m : Machine σ) :
    (engine.launchAll data ws m).1.map Started.agent = List.range' m.agents.length ws.length ∧
      ∃ new, (engine.launchAll data ws m).2.agents = m.agents ++ new ∧ new.length = ws.length := by
  induction ws generalizing m with
  | nil => exact ⟨rfl, [], (List.append_nil _).symm, rfl⟩
  | cons w rest ih =>
    obtain ⟨numbers, new, agents, length⟩ := ih (engine.launch w data m).2
    have first : (engine.launch w data m).2.agents =
      m.agents ++ [.ready (engine.drive w (engine.prepare w data m.supply).1)] := rfl
    rw [first] at numbers agents
    refine ⟨?_, _, agents.trans (List.append_assoc _ _ _), ?_⟩
    · rw [List.length_append] at numbers
      exact congrArg (m.agents.length :: ·) numbers
    · rw [List.length_append, length, Nat.add_comm]
      rfl

/-! ## Alone among others -/

/-- Something happens, but no definition is edited before an agent has begun. -/
structure Undisturbed (engine : Engine σ) (c : Collections) (i : Nat) (m m' : Machine σ) :
    Prop where
  happens : m.Happens engine m'
  unedited : ∀ p, m'.agents[i]? = some (.ready p) → ∀ k, m'.store.collections.table k = c.table k

/-- No agent is taken away. -/
theorem Happens.length_le (step : m.Happens engine m') : m.agents.length ≤ m'.agents.length := by
  cases step with
  | @goesOff a before after alarms own first =>
    obtain ⟨i, hi⟩ := exists_background own
    have acts : Acts engine (.background i) _ _ := acts_goOff hi (before ++ after) m
    exact Nat.le_of_eq acts.spares.length.symm
  | requested request supply => exact Nat.le_refl _
  | recorded e => exact Nat.le_refl _
  | launched w data =>
    change m.agents.length ≤ (m.agents ++ [_]).length
    rw [List.length_append]
    exact Nat.le_add_right _ _
  | aside agents => rw [agents]

/-- A program that goes on has begun. -/
theorem advance_ne_ready (owner : Owner) (p : Program β) (m : Machine σ) (q : Program β) :
    (advance engine owner p m).1 ≠ .ready q := by
  induction p generalizing m with
  | done result => exact fun same => by cases same
  | clock next ih => exact ih _ _
  | collections next ih => exact ih _ m
  | record e next ih => exact ih _
  | sleep ms next ih =>
    rw [advance]
    split
    · exact ih m
    · exact fun same => by cases same
  | call limit order calls next ih =>
    rw [advance]
    split
    · exact ih _ m
    · split
      · exact ih _ m
      · exact fun same => by cases same
      · exact fun same => by cases same

/-- Whoever goes on has begun. -/
theorem resume_ne_ready (owner : Owner) (expired : Bool) (agent : Agent β) (m : Machine σ)
    (q : Program β) : (resume engine owner expired agent m).1 ≠ .ready q := by
  cases agent with
  | ready p => exact advance_ne_ready owner p m q
  | asleep wakeTime p =>
    rw [resume]
    split
    · exact advance_ne_ready owner p m q
    · exact fun same => by cases same
  | calling waiting next =>
    rw [resume]
    split
    · exact advance_ne_ready owner _ _ q
    · split
      · exact advance_ne_ready owner _ _ q
      · exact fun same => by cases same
  | finished result => exact fun same => by cases same

/-- An agent that has not begun had not begun before. -/
theorem Happens.ready_before (step : m.Happens engine m') (h : m.Orderly) {i : Nat}
    (there : i < m.agents.length) {p : Program Execution}
    (ready : m'.agents[i]? = some (.ready p)) :
    m.agents[i]? = some (.ready p) := by
  rcases step.passes_or_rings h there with passes | ⟨a, others, rings⟩
  · exact passes.agent.symm.trans ready
  · have found : m.agents[i]? = some m.agents[i] := List.getElem?_eq_getElem there
    by_cases wake : a.signal = .wake
    · rw [rings.resumes wake found] at ready
      have resumed := (List.getElem?_set_self there).symm.trans ready
      exact absurd (Option.some.inj resumed) (resume_ne_ready _ _ _ _ _)
    · rcases (rings.fills wake).agent with same | ⟨slot, reply, filled⟩
      · exact same.symm.trans ready
      · rw [filled] at ready
        obtain ⟨agent, hagent, fill⟩ := Option.map_eq_some_iff.1 ready
        refine hagent.trans (congrArg some ?_)
        cases agent <;> first | exact fill | cases fill

/-- As long as nobody edits definitions, whatever happens disturbs nobody. -/
theorem Runs.undisturbed {c : Collections} {i : Nat} (runs : m.Runs engine m') (h : m.Orderly)
    (there : i < m.agents.length)
    (unedited : ∀ p, m.agents[i]? = some (.ready p) →
      ∀ k, m.store.collections.table k = c.table k) :
    ReflTransGen (Undisturbed engine c i) m m' ∧ i < m'.agents.length ∧
      ∀ p, m'.agents[i]? = some (.ready p) → ∀ k, m'.store.collections.table k = c.table k := by
  induction runs with
  | refl => exact ⟨.refl, there, unedited⟩
  | @tail middle last before step ih =>
    obtain ⟨path, inside, kept⟩ := ih
    have orderly : middle.Orderly := Path.orderly (Runs.path before) h
    have kept' : ∀ p, last.agents[i]? = some (.ready p) →
        ∀ k, last.store.collections.table k = c.table k := fun p ready k =>
      (step.2 k).trans (kept p (step.1.ready_before orderly inside ready) k)
    exact ⟨path.tail ⟨step.1, kept'⟩, Nat.lt_of_lt_of_le inside step.1.length_le, kept'⟩

section Started

variable {b : Behaviour} {data : Json} {s : Started} {w : Workflow}

/-- The execution over which a workflow is driven, as if it began at some other time. -/
def foreseenEnd (engine : Engine σ) (b : Behaviour) (c : Collections) (w : Workflow) (data : Json) :
    Execution :=
  (engine.drive w (engine.prepare w data default).1).foreseen b engine.handlers.contains c

/-- The agent of a started execution delivers, and is on course to what is foreseen. -/
structure KeepsCourse (engine : Engine σ) (b : Behaviour) (c : Collections) (data : Json)
    (s : Started) (w : Workflow) (m : Machine σ) : Prop where
  course : ∃ agent, m.agents[s.agent]? = some agent ∧
    agent.Delivers (Ended s.executionId) (m.alarmsOf (.background s.agent)) ∧
    agent.OnCourse b engine.handlers.contains c
      (fun e => EndAlike s.executionId (engine.prepare w data default).1.id e
        (foreseenEnd engine b c w data))
      (m.Stirs s.agent) (m.alarmsOf (.background s.agent)) m.time
  unedited : ∀ p, m.agents[s.agent]? = some (.ready p) →
    ∀ k, m.store.collections.table k = c.table k

/-- A launched execution delivers. -/
theorem Launched.delivers (launched : Launched engine data m s w) : ∃ agent,
    m.agents[s.agent]? = some agent ∧ agent.result? = none ∧
      agent.Delivers (Ended s.executionId) (m.alarmsOf (.background s.agent)) := by
  obtain ⟨-, ⟨supply, id, there⟩, time, alarms⟩ := launched
  refine ⟨_, there, rfl, ?_, _, alarms ▸ List.mem_singleton_self _, rfl⟩
  rw [id]
  exact engine.delivers_drive w rfl

/-- A launched execution has all of its course before it. -/
theorem Launched.keepsCourse (launched : Launched engine data m s w)
    (untied : (engine.drive w (engine.prepare w data default).1).Untied b
      engine.handlers.contains m.store.collections) :
    KeepsCourse engine b m.store.collections data s w m := by
  obtain ⟨agent, there, -, delivers⟩ := launched.delivers
  refine ⟨⟨agent, there, delivers, ?_⟩, fun _ _ _ => rfl⟩
  obtain ⟨-, ⟨supply, id, there'⟩, time, alarms⟩ := launched
  cases there.symm.trans there'
  refine ⟨fun a ha => ?_, _, rfl, fun c' same => ?_⟩
  · rw [alarms] at ha
    rw [List.mem_singleton.1 ha]
  · rw [id]
    exact engine.comes_driven w same (Execution.alike_begin _ _ _ _ _) rfl untied

/-- An execution stays on its course, whatever happens but an edit before it has begun. -/
theorem Undisturbed.keepsCourse {c : Collections} (behaves : engine.Behaves b)
    (step : Undisturbed engine c s.agent m m') (orderly : m.Orderly)
    (h : KeepsCourse engine b c data s w m) : KeepsCourse engine b c data s w m' := by
  obtain ⟨⟨agent, there, delivers, course⟩, unedited⟩ := h
  obtain ⟨agent', becomes⟩ := step.happens.becomes orderly there delivers
  obtain ⟨agent'', there'', course'⟩ := step.happens.onCourse behaves orderly there delivers course
    fun p ready => unedited p (ready ▸ there)
  cases becomes.there.symm.trans there''
  exact ⟨⟨agent', there'', becomes.delivers, course'⟩, step.unedited⟩

theorem path_of_undisturbed {c : Collections} {i : Nat}
    (path : ReflTransGen (Undisturbed engine c i) m m') : m.Path engine m' :=
  ReflTransGen.mono (fun _ _ step => step.happens) _ _ path

/-- An execution stays on its course, however much happens. -/
theorem keepsCourse_of_undisturbed {c : Collections} (behaves : engine.Behaves b)
    (path : ReflTransGen (Undisturbed engine c s.agent) m m') (orderly : m.Orderly)
    (h : KeepsCourse engine b c data s w m) : KeepsCourse engine b c data s w m' := by
  induction path with
  | refl => exact h
  | tail before step ih =>
    exact step.keepsCourse behaves (Path.orderly (path_of_undisturbed before) orderly) ih

/-- An execution that is on course has ended as foreseen. -/
theorem KeepsCourse.ended {c : Collections} (h : KeepsCourse engine b c data s w m) {e : Execution}
    (outcome : m.outcome? s.agent = some e) :
    EndAlike s.executionId (engine.prepare w data default).1.id e
      (foreseenEnd engine b c w data) := by
  obtain ⟨⟨agent, there, -, course⟩, -⟩ := h
  rw [outcome?, there, Option.bind_some] at outcome
  cases agent with
  | finished result =>
    cases outcome
    exact course
  | ready p => cases outcome
  | asleep wakeTime p => cases outcome
  | calling waiting next => cases outcome

/-- A started execution comes to an end of its own, whatever happens meanwhile, as long as no
definition is edited before it has begun: who waits for it is told its result, and it ends like the
execution that its workflow comes to alone. -/
structure Isolated (engine : Engine σ) (data : Json) (m : Machine σ) (s : Started) (w : Workflow) :
    Prop where
  ends : ∀ m', ReflTransGen (Undisturbed engine m.store.collections s.agent) m m' →
    ReflTransGen (Undisturbed engine m.store.collections s.agent) m (m'.join engine s.agent).2 ∧
      ∃ e, (m'.join engine s.agent).1 = some e ∧
        (m'.join engine s.agent).2.outcome? s.agent = some e
  alike : ∀ m' e, ReflTransGen (Undisturbed engine m.store.collections s.agent) m m' →
    m'.outcome? s.agent = some e →
    e.Ended s.executionId ∧ ∀ alone : Machine σ, alone.alarms = [] →
      (∀ k, alone.store.collections.table k = m.store.collections.table k) →
      e.Alike (engine.start w data alone).1

/-- A launched execution ends, and as it would alone. -/
theorem Launched.isolated (launched : Launched engine data m s w) (sound : m.Sound)
    (behaves : engine.Behaves b)
    (untied : (engine.drive w (engine.prepare w data default).1).Untied b
      engine.handlers.contains m.store.collections) : Isolated engine data m s w where
  ends m' path := by
    have keeps :=
      keepsCourse_of_undisturbed behaves path sound.orderly (launched.keepsCourse untied)
    have sound' := Path.sound (path_of_undisturbed path) sound
    obtain ⟨⟨agent, there, -⟩, unedited⟩ := keeps
    have inside : s.agent < m'.agents.length := (List.getElem?_eq_some_iff.1 there).1
    have runs : m'.Runs engine _ := runs_join s.agent m' sound'.orderly
    exact ⟨path.trans (Runs.undisturbed runs sound'.orderly inside unedited).1,
      outcome?_join sound' inside⟩
  alike m' e path outcome := by
    have keeps :=
      keepsCourse_of_undisturbed behaves path sound.orderly (launched.keepsCourse untied)
    have ended := keeps.ended outcome
    refine ⟨⟨ended.own, ended.terminal⟩, fun alone idle tables => ?_⟩
    have started := Engine.start_foreseen behaves w data idle tables
      (Execution.alike_begin _ _ _ _ _) untied
    exact ended.alike.trans started.alike.symm

/-! ## The entries of started executions -/

/-- Something happens. If the execution ends, then its snapshot can be written. -/
structure Written (engine : Engine σ) (s : Started) (m m' : Machine σ) : Prop where
  happens : m.Happens engine m'
  written : m.outcome? s.agent = none → ∀ e, m'.outcome? s.agent = some e →
    ∀ reason, (m.change engine.disk (·.record e)).1 ≠ .error (.snapshotFile reason)

/-- The same, and nobody else records anything under the identifier of the execution. -/
structure OwnWritten (engine : Engine σ) (s : Started) (m m' : Machine σ) : Prop where
  written : Written engine s m m'
  own : ∀ x ∈ m'.store.ledger, x.id = s.executionId →
    x ∈ m.store.ledger ∨ m'.outcome? s.agent = some x

/-- That snapshots can be written says nothing about what may happen. -/
theorem path_of_written (path : ReflTransGen (Written engine s) m m') : m.Path engine m' :=
  ReflTransGen.mono (fun _ _ step => step.happens) _ _ path

theorem written_of_own (path : ReflTransGen (OwnWritten engine s) m m') :
    ReflTransGen (Written engine s) m m' :=
  ReflTransGen.mono (fun _ _ step => step.written) _ _ path

/-- An execution whose snapshot can be written is in the ledger after it was recorded, or another
one with its identifier. -/
theorem exists_of_written {e : Execution} {id : Uuid} (ended : e.Ended id)
    (written : ∀ reason, (m.change engine.disk (·.record e)).1 ≠ .error (.snapshotFile reason)) :
    ∃ x ∈ (m.change engine.disk (·.record e)).2.store.ledger, x.id = id := by
  have records := (engine.disk.facing m.world m.store).records_record e
  change ∀ reason, ((engine.disk.facing m.world m.store).record e).1 ≠ _ at written
  change ∃ x ∈ ((engine.disk.facing m.world m.store).record e).2.ledger, x.id = id
  generalize ((engine.disk.facing m.world m.store).record e).1 = answer at records written
  generalize ((engine.disk.facing m.world m.store).record e).2 = after at records
  cases records with
  | running status => exact absurd status (ExecutionStatus.isTerminal_iff.1 ended.2)
  | taken terminal there same => exact ⟨_, there, same.trans ended.1⟩
  | unwritten terminal free fails kept => exact absurd rfl (written _)
  | appended terminal free written added =>
    refine ⟨e, ?_, ended.1⟩
    rw [Store.ledger, added]
    exact List.mem_append_right _ (List.mem_singleton_self e)

/-- An agent that ends now is entered, unless its snapshot cannot be written. -/
theorem Written.enters (step : Written engine s m m') (sound : m.Sound) {agent : Agent Execution}
    (there : m.agents[s.agent]? = some agent)
    (delivers : agent.Delivers (Ended s.executionId) (m.alarmsOf (.background s.agent)))
    (old : ∀ e, m.outcome? s.agent = some e → ∃ x ∈ m.store.ledger, x.id = s.executionId)
    {e : Execution} (outcome : m'.outcome? s.agent = some e) :
    ∃ x ∈ m'.store.ledger, x.id = s.executionId := by
  obtain ⟨agent', becomes⟩ := step.happens.becomes sound.orderly there delivers
  have now : agent'.result? = some e := by
    simpa [outcome?, becomes.there] using outcome
  cases result : agent.result? with
  | some e' =>
    obtain ⟨x, hx, id⟩ := old e' (by simp [outcome?, there, result])
    rcases step.happens.ledger sound with same | ⟨added, hadded⟩
    · exact ⟨x, same ▸ hx, id⟩
    · exact ⟨x, hadded ▸ List.mem_append_left _ hx, id⟩
  | none =>
    have unended : m.outcome? s.agent = none := by simp [outcome?, there, result]
    rw [becomes.recorded e result now]
    exact exists_of_written (becomes.delivers.of_result now) (step.written unended e outcome)

/-- An execution that has ended is in the ledger, if its snapshot could be written. -/
theorem exists_entry (launched : Launched engine data m s w) (sound : m.Sound)
    (path : ReflTransGen (Written engine s) m m') {e : Execution}
    (outcome : m'.outcome? s.agent = some e) : ∃ x ∈ m'.store.ledger, x.id = s.executionId := by
  obtain ⟨first, there, going, delivers⟩ := launched.delivers
  induction path generalizing e with
  | refl => simp [outcome?, there, going] at outcome
  | @tail middle last before step ih =>
    obtain ⟨agent, there', delivers', -⟩ :=
      Path.becomes (path_of_written before) sound.orderly there delivers
    exact step.enters (Path.sound (path_of_written before) sound) there' delivers'
      (fun e' => ih (e := e')) outcome

/-- In a sound ledger an entry is the only one with its identifier. -/
theorem filter_ledger {ledger : List Execution} (sound : Ledger.Sound ledger) {x : Execution}
    (hx : x ∈ ledger) : ledger.filter (fun y => y.id = x.id) = [x] := by
  obtain ⟨before, after, rfl⟩ := List.append_of_mem hx
  have distinct := sound.distinct
  rw [List.map_append, List.map_cons, List.nodup_middle, List.nodup_cons,
    ← List.map_append] at distinct
  have apart : ∀ y ∈ before ++ after, ¬ y.id = x.id := fun y hy same =>
    distinct.1 (List.mem_map.2 ⟨y, hy, same⟩)
  have left : before.filter (fun y => y.id = x.id) = [] := by
    simpa using fun y hy => apart y (List.mem_append_left _ hy)
  have right : after.filter (fun y => y.id = x.id) = [] := by
    simpa using fun y hy => apart y (List.mem_append_right _ hy)
  rw [List.filter_append, left, List.filter_cons_of_pos (by simp), right, List.nil_append]

/-- If no snapshot write fails, there is exactly one entry under the identifier of a started
execution when it has ended; it is its own if nobody else records under that identifier. -/
structure Entered (engine : Engine σ) (m : Machine σ) (s : Started) : Prop where
  once : ∀ m' e, ReflTransGen (Written engine s) m m' → m'.outcome? s.agent = some e →
    ∃ x, m'.store.ledger.filter (fun y => y.id = s.executionId) = [x]
  own : ∀ m' e, ReflTransGen (OwnWritten engine s) m m' → m'.outcome? s.agent = some e →
    (∀ x ∈ m.store.ledger, x.id ≠ s.executionId) →
    m'.store.ledger.filter (fun y => y.id = s.executionId) = [e]

/-- What is in the ledger under the identifier is what the agent has ended with. -/
theorem OwnWritten.outcome_of_mem (step : OwnWritten engine s m m') (sound : m.Sound)
    (old : ∀ x ∈ m.store.ledger, x.id = s.executionId → m.outcome? s.agent = some x)
    {x : Execution} (hx : x ∈ m'.store.ledger) (id : x.id = s.executionId) :
    m'.outcome? s.agent = some x :=
  (step.own x hx id).elim
    (fun before => step.written.happens.outcome?_kept sound (old x before id)) fun now => now

/-- If nobody else uses its identifier, what is in the ledger under it is what the agent has ended
with. -/
theorem outcome_of_mem (sound : m.Sound) (path : ReflTransGen (OwnWritten engine s) m m')
    (free : ∀ x ∈ m.store.ledger, x.id ≠ s.executionId) {x : Execution}
    (hx : x ∈ m'.store.ledger) (id : x.id = s.executionId) : m'.outcome? s.agent = some x := by
  induction path generalizing x with
  | refl => exact absurd id (free x hx)
  | @tail middle last before step ih =>
    exact step.outcome_of_mem (Path.sound (path_of_written (written_of_own before)) sound)
      (fun x => ih) hx id

/-- A launched execution is entered once. -/
theorem Launched.entered (launched : Launched engine data m s w) (sound : m.Sound) :
    Entered engine m s where
  once m' e path outcome := by
    obtain ⟨x, hx, id⟩ := exists_entry launched sound path outcome
    exact ⟨x, id ▸ filter_ledger (Path.sound (path_of_written path) sound).ledger hx⟩
  own m' e path outcome free := by
    have path' := written_of_own path
    obtain ⟨x, hx, id⟩ := exists_entry launched sound path' outcome
    have same := outcome_of_mem sound path free hx id
    cases same.symm.trans outcome
    exact id ▸ filter_ledger (Path.sound (path_of_written path') sound).ledger hx

end Started

end Machine

/-! ## Dispatch -/

open Machine (Opened Isolated Entered)

/-- What comes of dispatching an event: one execution of each active workflow that it triggers,
newest workflow first, and no other. -/
structure Dispatched (engine : Engine σ) (eventType : String) (data : Json) (m : Machine σ)
    (started : List Started) (m' : Machine σ) : Prop where
  /-- The workflows are those that are active and have the trigger. -/
  matching : ∀ w, w ∈ m.store.findActive eventType ↔
    w ∈ m.store.list Workflow ∧ w.status = .active ∧ w.triggerEventType = eventType
  ordered : (m.store.findActive eventType).Pairwise Workflow.Newer
  workflows : started.map Started.workflowId = (m.store.findActive eventType).map Workflow.id
  /-- Each execution has an agent of its own, and there are no other new ones. -/
  agents : started.map Started.agent = List.range' m.agents.length started.length
  grown : ∃ new, m'.agents = m.agents ++ new ∧ new.length = started.length
  store : m'.store = m.store
  /-- Each is entered once, and if handlers behave in one way and none of its calls ends at the very
  instant at which its time is up, it is isolated. -/
  executions : List.Forall₂ (fun s w => Entered engine m' s ∧ ∀ b, engine.Behaves b →
      (engine.drive w (engine.prepare w data default).1).Untied b engine.handlers.contains
        m.store.collections → Isolated engine data m' s w)
    started (m.store.findActive eventType)

/-- Dispatch is exact, and each execution that it starts is isolated from all others. -/
theorem Engine.dispatched_of_path (engine : Engine σ) {m₀ m : Machine σ} (opened : m₀.Opened)
    (path : m₀.Path engine m) (eventType : String) (data : Json) :
    Dispatched engine eventType data m (engine.dispatch eventType data m).1
      (engine.dispatch eventType data m).2 := by
  have sound := Machine.Path.sound path opened.sound
  have after : m.Path engine (engine.dispatch eventType data m).2 :=
    Machine.Runs.path (engine.runs_dispatch eventType data m)
  have sound' := Machine.Path.sound after sound
  have store : (engine.dispatch eventType data m).2.store = m.store :=
    Machine.store_launchAll engine data _ m
  have launched : List.Forall₂ (Machine.Launched engine data (engine.dispatch eventType data m).2)
      (engine.dispatch eventType data m).1 (m.store.findActive eventType) :=
    Machine.launched_launchAll engine data _ sound.orderly
  obtain ⟨agents, new, grown, length⟩ :=
    Machine.agents_launchAll engine data (m.store.findActive eventType) m
  have number : (engine.dispatch eventType data m).1.length =
      (m.store.findActive eventType).length := launched.length_eq
  refine ⟨fun w => Store.mem_findActive, ?_, ?_, ?_, ⟨new, grown, ?_⟩, store, ?_⟩
  · exact Store.newer_findActive (Machine.Path.tidy path opened.tidy) eventType
  · exact List.forall₂_eq_eq_eq ▸ List.forall₂_map_left_iff.2
      (List.forall₂_map_right_iff.2 (launched.imp fun _ _ h => h.workflow))
  · rw [number]
    exact agents
  · rw [number]
    exact length
  · refine launched.imp fun s w h =>
      ⟨h.entered sound', fun b behaves untied => h.isolated sound' behaves ?_⟩
    rw [store]
    exact untied

/-- A workflow for those who join that is newer than the welcome, and says nothing before it
greets. -/
def Engine.whisper : Workflow :=
  ⟨"whisper", "Whisper", "", .active, "user.joined", ["greet"], .emptyObject, Instant.succ default,
    default, anonymous⟩

/-- A workflow for those who leave. -/
def Engine.farewell : Workflow :=
  ⟨"farewell", "Farewell", "", .active, "user.left", ["greet"], .emptyObject, default, default,
    anonymous⟩

/-- A machine whose store has these workflows and what the welcome plan was made of. -/
def Engine.doorway : Machine Unit :=
  { idle with store := ⟨⟨
      [("farewell", farewell), ("welcome", welcome.workflow), ("whisper", whisper)],
      welcome.entries.filterMap fun entry => entry.step.map fun s => (s.id, s), welcome.conditions,
      welcome.actions, []⟩, none⟩ }

/-- The machine has just been opened: nobody is under way, and the tables are sorted. -/
theorem Engine.doorway_opened : doorway.Opened where
  agents := rfl
  alarms := rfl
  tidy k := by
    constructor
    · cases k with
      | workflow =>
        have first : "farewell" < "welcome" := String.lt_iff_toList_lt.2 (by decide)
        have last : "welcome" < "whisper" := String.lt_iff_toList_lt.2 (by decide)
        exact .cons (List.forall_mem_cons.2 ⟨first, List.forall_mem_singleton.2 (first.trans last)⟩)
          (List.pairwise_pair.2 last)
      | step => exact List.pairwise_pair.2 (String.lt_iff_toList_lt.2 (by decide))
      | condition => exact List.pairwise_singleton _ _
      | action => exact List.pairwise_singleton _ _
    · cases k <;>
        simp [Table.Keyed, doorway, welcome, whisper, farewell, Collections.table, Definition.table,
          Definition.id]
  ledger := ⟨List.nodup_nil, List.forall_mem_nil _⟩

/-- Those who join are whispered to before they are welcomed, as the whisper is newer. -/
theorem Engine.doorway_findActive :
    doorway.store.findActive "user.joined" = [whisper, welcome.workflow] := by
  have older : Instant.notAfter (Instant.succ default) default = false := by decide
  simp [older, Store.findActive, Store.listWorkflows, Store.newestFirst, Store.list, doorway,
    Definition.table, WorkflowFilter.admits, welcome, whisper, farewell, List.mergeSort,
    List.MergeSort.Internal.splitInTwo]

/-- Somebody joins while somebody else is leaving: two workflows are started, and come to what they
would come to alone. -/
theorem Engine.dispatched_of_path_doorway :
    let busy := (logging.launch farewell .null doorway).2
    let joined := logging.dispatch "user.joined" .null busy
    doorway.Opened ∧ doorway.Path logging busy ∧ busy.agents.length = 1 ∧
      joined.1.map Started.workflowId = ["whisper", "welcome"] ∧
      joined.1.map Started.agent = [1, 2] ∧
      List.Forall₂ (Isolated logging .null joined.2) joined.1 [whisper, welcome.workflow] ∧
      List.Forall₂ (fun s w => ∃ e, (joined.2.join logging s.agent).1 = some e ∧
        e.Alike (logging.start w .null doorway).1) joined.1 [whisper, welcome.workflow] := by
  intro busy joined
  have path : doorway.Path logging busy := .single (.launched doorway farewell .null)
  have dispatched := logging.dispatched_of_path doorway_opened path "user.joined" .null
  have matching : busy.store.findActive "user.joined" = [whisper, welcome.workflow] :=
    doorway_findActive
  have behaves : logging.Behaves ⟨fun _ => 0, fun _ => .ok .null⟩ := by
    intro name handler found
    obtain ⟨-, rfl⟩ : "log" = name.action.actionType ∧ _ = handler := by
      simpa [logging, Assoc.find?] using found
    exact fun _ _ => ⟨rfl, rfl⟩
  obtain ⟨-, -, workflows, agents, -, store, executions⟩ := dispatched
  rw [matching] at workflows executions
  have isolated : List.Forall₂ (Isolated logging .null joined.2) joined.1
      [whisper, welcome.workflow] := by
    obtain ⟨s, rest, ⟨-, first⟩, others, two⟩ := List.forall₂_cons_right_iff.1 executions
    obtain ⟨t, rest, ⟨-, second⟩, none_left, one⟩ := List.forall₂_cons_right_iff.1 others
    cases List.forall₂_nil_right_iff.1 none_left
    rw [show joined.1 = [s, t] from two.trans (congrArg _ one)]
    exact .cons (first _ behaves ⟨⟨fun _ => by decide, fun _ _ => trivial⟩, trivial⟩)
      (.cons (second _ behaves ⟨⟨fun _ => by decide, fun _ _ => trivial⟩, trivial⟩) .nil)
  refine ⟨doorway_opened, path, rfl, workflows, ?_, isolated, isolated.imp fun s w alone => ?_⟩
  · rw [executions.length_eq] at agents
    exact agents
  · obtain ⟨further, e, told, outcome⟩ := alone.ends joined.2 .refl
    exact ⟨e, told, (alone.alike _ e further outcome).2 doorway rfl fun k => by rw [store]; rfl⟩

end EventFlow
