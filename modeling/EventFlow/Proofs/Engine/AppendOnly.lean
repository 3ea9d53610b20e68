import EventFlow.Proofs.Engine.Dispatching
import EventFlow.Proofs.Engine.Footprint

/-!
# The ledger only grows

Nobody has begun with anything but an empty store, and then something happens, one thing after the
other: definitions come and go, executions are recorded by whoever likes to, workflows run at the
same time, snapshots cannot be written. At any moment the ledger is sound and the statistics add up;
the next thing that happens leaves the ledger as it is or puts one entry at its end; and an
execution that was once looked up is found forever (`Audited`). Every `Operation` on a machine is
made of such things (`Operation.path_perform`), and by itself puts at most one entry there
(`Operation.Adds`). Entries are made by `Store.record` (`EventFlow.Store.Ledger`) and by no other
operation.
-/

set_option autoImplicit false

namespace EventFlow

variable {σ : Type}

/-- Something that is done with a machine: a request for definitions, a recording, or a run. -/
inductive Operation where
  | request (request : Store.Request)
  | record (e : Execution)
  | launch (w : Workflow) (data : Json)
  | dispatch (eventType : String) (data : Json)
  | join (agent : Nat)
  | listen (received : List Received)
  | start (w : Workflow) (data : Json)
  | execute (id : String) (data : Json)
  | invoke (a : Action) (data : Json)

namespace Operation

/-- The machine after an operation. -/
def perform (engine : Engine σ) (m : Machine σ) : Operation → Machine σ
  | request r =>
    let ((_, supply), m) := m.change engine.disk fun s =>
      let (answer, s, supply) := r.perform s m.supply
      ((answer, supply), s)
    { m with supply }
  | record e => (m.change engine.disk (·.record e)).2
  | launch w data => (engine.launch w data m).2
  | dispatch eventType data => (engine.dispatch eventType data m).2
  | join agent => (m.join engine agent).2
  | listen received => (engine.listen received m).2
  | start w data => (engine.start w data m).2
  | execute id data => (engine.execute id data m).2
  | invoke a data => (engine.invoke a data m).2

/-- Whatever is done with a machine may happen to it. -/
theorem path_perform (engine : Engine σ) (operation : Operation) {m : Machine σ} (h : m.Orderly) :
    m.Path engine (operation.perform engine m) := by
  cases operation with
  | request r =>
    have step : m.Happens engine _ := .requested m r m.supply
    exact .head step (Machine.Runs.path (engine.runs_draws _ (step.orderly h)))
  | record e => exact .single (.recorded m e)
  | launch w data => exact .single (.launched m w data)
  | dispatch eventType data => exact Machine.Runs.path (engine.runs_dispatch eventType data m)
  | join agent => exact Machine.Runs.path (Machine.runs_join agent m h)
  | listen received => exact Machine.Runs.path (engine.runs_listen received m h)
  | start w data => exact Machine.Runs.path (engine.runs_start w data m h)
  | execute id data => exact Machine.Runs.path (engine.runs_execute id data m h)
  | invoke a data => exact Machine.Runs.path (engine.runs_invoke a data m h)

end Operation

/-- What a run has put into the ledger that ended with an execution: this execution or, if it could
not be recorded, nothing. An execution with an identifier of its own can be recorded whenever its
snapshot can be written. -/
structure Concluded (engine : Engine σ) (m : Machine σ) (e : Execution) (m' : Machine σ) :
    Prop where
  at_most_one : m'.store.ledger = m.store.ledger ∨ m'.store.ledger = m.store.ledger ++ [e]
  exactly_one : (∀ old ∈ m.store.ledger, old.id ≠ e.id) →
    (∀ world, (engine.disk.facing world m.store).writeFailure? = none) →
    m'.store.ledger = m.store.ledger ++ [e]

/-- A workflow is run to its end where nobody else is under way. -/
theorem concluded_start (engine : Engine σ) (w : Workflow) (data : Json) {m : Machine σ}
    (free : m.Free) :
    Concluded engine m (engine.start w data m).1 (engine.start w data m).2 := by
  obtain ⟨terminal, -, before, -, store, after⟩ := engine.closes_start w data free
  have same : (engine.disk.facing before.world before.store).ledger = m.store.ledger := by
    rw [Store.ledger, Disk.collections_facing, store, Store.ledger]
  have left : (engine.start w data m).2.store.ledger =
      ((engine.disk.facing before.world before.store).record (engine.start w data m).1).2.ledger :=
    congrArg (·.store.ledger) after
  constructor
  · rw [left, ← same]
    exact (Store.records_record _ _).ledger_eq
  · intro fresh written
    rw [← same] at fresh
    have written : (engine.disk.facing before.world before.store).writeFailure? = none := by
      rw [store]
      exact written before.world
    rw [left, Store.ledger_record (ExecutionStatus.isTerminal_iff.1 terminal) fresh, written, same]

namespace Operation

/-- What an operation itself puts at the end of the ledger. Requests and the beginning of runs put
nothing there, a recording the execution unless it is refused, and a run the execution that it
returns. While others are under way, they may record as well: runs are looked at where there is
nobody else, and of operations that wait for others nothing is said. -/
def Adds (engine : Engine σ) (m m' : Machine σ) : Operation → Prop
  | request _ | launch _ _ | dispatch _ _ => m'.store.ledger = m.store.ledger
  | record e =>
    ((m.change engine.disk (·.record e)).1 = .ok () ∧ m'.store.ledger = m.store.ledger ++ [e]) ∨
      (∃ error, (m.change engine.disk (·.record e)).1 = .error error) ∧
        m'.store.ledger = m.store.ledger
  | start w data => m.Free → Concluded engine m (engine.start w data m).1 m'
  | execute id data => m.Free →
    (∃ e, (engine.execute id data m).1 = .ok e ∧ Concluded engine m e m') ∨
      (∃ error, (engine.execute id data m).1 = .error error) ∧ m'.store.ledger = m.store.ledger
  | join _ | listen _ | invoke _ _ => True

theorem adds_perform (engine : Engine σ) (operation : Operation) (m : Machine σ) :
    operation.Adds engine m (operation.perform engine m) := by
  cases operation with
  | request r =>
    refine (r.executions_perform m.supply (engine.disk.facing m.world m.store)).trans ?_
    rw [Disk.collections_facing]
    rfl
  | record e =>
    -- The ledger that is added to is that of the store which faces the world.
    have recorded := (engine.disk.facing m.world m.store).records_record e
    have same : (engine.disk.facing m.world m.store).ledger = m.store.ledger := by
      rw [Store.ledger, Disk.collections_facing, Store.ledger]
    unfold Adds perform Machine.change
    dsimp only
    rw [← same]
    generalize Store.record _ e = result at recorded ⊢
    obtain ⟨answer, s'⟩ := result
    cases recorded with
    | running | taken => exact .inr ⟨⟨_, rfl⟩, rfl⟩
    | unwritten _ _ _ kept => exact .inr ⟨⟨_, rfl⟩, congrArg Collections.executions kept⟩
    | appended _ _ _ added => exact .inl ⟨rfl, congrArg Collections.executions added⟩
  | launch w data => rfl
  | dispatch eventType data =>
    exact congrArg Store.ledger (Machine.store_launchAll engine data _ m)
  | start w data => exact concluded_start engine w data
  | execute id data =>
    intro free
    change (∃ e, _ ∧ Concluded engine m e (engine.execute id data m).2) ∨
      _ ∧ (engine.execute id data m).2.store.ledger = _
    unfold Engine.execute
    cases (m.store.find? id : Option Workflow) with
    | none => exact .inr ⟨⟨_, rfl⟩, rfl⟩
    | some w =>
      dsimp only
      split
      · exact .inl ⟨_, rfl, concluded_start engine w data free⟩
      · exact .inr ⟨⟨_, rfl⟩, rfl⟩
  | join | listen | invoke => trivial

end Operation

/-- The ledger of a machine can be relied on, now and whatever happens next. -/
structure Audited (engine : Engine σ) (m : Machine σ) : Prop where
  /-- Identifiers are distinct, and every entry is over. -/
  sound : Ledger.Sound m.store.ledger
  total : m.store.statistics.totalExecutions = m.store.ledger.length
  parts : m.store.statistics.completedExecutions + m.store.statistics.stoppedExecutions +
    m.store.statistics.failedExecutions = m.store.ledger.length
  workflows : m.store.statistics.totalWorkflows = (m.store.list Workflow).length
  active : m.store.statistics.activeWorkflows ≤ m.store.statistics.totalWorkflows
  /-- The next thing that happens puts at most one entry at the end. -/
  grows : ∀ m', m.Happens engine m' →
    m'.store.ledger = m.store.ledger ∨ ∃ e, m'.store.ledger = m.store.ledger ++ [e]
  /-- The ledger before is where the ledger after begins. -/
  lasts : ∀ m', m.Path engine m' → m.store.ledger <+: m'.store.ledger
  /-- What is looked up once is found forever. -/
  lasting : ∀ m', m.Path engine m' → ∀ id e,
    m.store.getExecution id = .ok e → m'.store.getExecution id = .ok e
  /-- An execution is refused exactly if it is running, if its identifier is there already, or if
  the snapshot cannot be written. -/
  refused : ∀ e error, (m.change engine.disk (·.record e)).1 = .error error ↔
    (error = .notTerminal e.id ∧ e.status = .running) ∨
    (error = .alreadyRecorded e.id ∧ e.status ≠ .running ∧
      ∃ old ∈ m.store.ledger, old.id = e.id) ∨
    (e.status ≠ .running ∧ (∀ old ∈ m.store.ledger, old.id ≠ e.id) ∧
      ∃ reason, error = .snapshotFile reason ∧
        (engine.disk.facing m.world m.store).writeFailure? = some reason)

theorem audited_of_sound (engine : Engine σ) {m : Machine σ} (h : m.Sound) : Audited engine m := by
  obtain ⟨total, parts, workflows, active⟩ := Store.statistics_of_sound h.ledger
  refine ⟨h.ledger, total, parts, workflows, active, fun m' step => step.ledger h,
    fun m' path => Machine.Path.grows path h,
    fun m' path id e => Store.getExecution_of_grows (Machine.Path.grows path h), fun e error => ?_⟩
  have same : (engine.disk.facing m.world m.store).ledger = m.store.ledger := by
    rw [Store.ledger, Disk.collections_facing, Store.ledger]
  rw [← same]
  exact (engine.disk.facing m.world m.store).record_eq_error_iff e error

/-- The ledger of a store that was empty in the beginning can be relied on, whatever has happened
since; and whatever is done with the machine is among the things that may happen, and puts there
what it is to put there. -/
theorem audited_of_path (engine : Engine σ) {m₀ m : Machine σ} (fresh : m₀.Fresh)
    (path : m₀.Path engine m) :
    Audited engine m ∧
      ∀ operation : Operation, m.Path engine (operation.perform engine m) ∧
        Audited engine (operation.perform engine m) ∧
        operation.Adds engine m (operation.perform engine m) := by
  have sound := Machine.Path.sound path fresh.sound
  refine ⟨audited_of_sound engine sound, fun operation => ?_⟩
  have further := operation.path_perform engine sound.orderly
  exact ⟨further, audited_of_sound engine (Machine.Path.sound further sound),
    operation.adds_perform engine m⟩

/-- The nightly workflow is run on an empty store, which it is no part of, and is the first entry of
its ledger. -/
theorem audited_of_path_nightly :
    let night := Operation.perform Engine.bare Engine.idle (.start Engine.nightly .null)
    Engine.idle.Fresh ∧ Engine.idle.Path Engine.bare night ∧ Audited Engine.bare night ∧
      night.store.ledger = [(Engine.bare.start Engine.nightly .null Engine.idle).1] := by
  intro night
  have fresh : Engine.idle.Fresh := ⟨rfl, rfl, rfl⟩
  have path := (Operation.start Engine.nightly .null).path_perform Engine.bare fresh.sound.orderly
  obtain ⟨-, -, adds⟩ := (audited_of_path Engine.bare fresh .refl).2 (.start Engine.nightly .null)
  have free : Engine.idle.Free := nofun
  exact ⟨fresh, path, (audited_of_path Engine.bare fresh path).1,
    (adds free).exactly_one nofun fun _ => rfl⟩

end EventFlow
