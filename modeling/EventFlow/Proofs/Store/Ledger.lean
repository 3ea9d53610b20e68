import EventFlow.Proofs.Store.Mutation
import Mathlib.Data.List.Nodup

/-!
# The ledger

`Store.Records` says what may come of recording an execution: it is still running, it is there
already, its snapshot cannot be written, or it is appended (`records_record`). So a ledger only
grows at its end, and what it holds stays sound: identifiers are distinct and statuses terminal
(`Records.sound`). The statistics of a sound ledger add up (`statistics_of_sound`). Recording is
`Store.record`, in `EventFlow.Store.Ledger`.
-/

set_option autoImplicit false

namespace EventFlow

/-- The entries of a ledger have identifiers of their own, and all of them are over. -/
structure Ledger.Sound (ledger : List Execution) : Prop where
  distinct : (ledger.map Execution.id).Nodup
  terminal : ∀ e ∈ ledger, e.status.isTerminal = true

namespace ExecutionStatus

theorem isTerminal_iff {status : ExecutionStatus} : status.isTerminal = true ↔ status ≠ .running :=
  bne_iff_ne

end ExecutionStatus

namespace Store

variable {s s' : Store} {e : Execution} {answer : Except StoreError Unit}

/-- The recorded executions, the oldest first. -/
def ledger (s : Store) : List Execution := s.collections.executions

/-- Why the next snapshot cannot be written, if it cannot. -/
def writeFailure? (s : Store) : Option String :=
  s.backing.bind fun b => match b.outcomes 0 with
    | .written => none
    | .temporaryFailed reason => some reason
    | .renameFailed reason => some reason

/-- What may come of recording an execution: an answer, and the store after it. -/
inductive Records (s : Store) (e : Execution) : Except StoreError Unit → Store → Prop
  | running (status : e.status = .running) : Records s e (.error (.notTerminal e.id)) s
  | taken (ended : e.status ≠ .running) {old : Execution} (there : old ∈ s.ledger)
      (same : old.id = e.id) : Records s e (.error (.alreadyRecorded e.id)) s
  | unwritten {s' : Store} {reason : String} (ended : e.status ≠ .running)
      (free : ∀ old ∈ s.ledger, old.id ≠ e.id) (fails : s.writeFailure? = some reason)
      (kept : s'.collections = s.collections) : Records s e (.error (.snapshotFile reason)) s'
  | appended {s' : Store} (ended : e.status ≠ .running) (free : ∀ old ∈ s.ledger, old.id ≠ e.id)
      (written : s.writeFailure? = none)
      (added : s'.collections = { s.collections with executions := s.ledger ++ [e] }) :
      Records s e (.ok ()) s'

theorem records_record (s : Store) (e : Execution) : s.Records e (s.record e).1 (s.record e).2 := by
  unfold record
  by_cases terminal : e.status.isTerminal
  · rw [if_pos terminal]
    have ended : e.status ≠ .running := ExecutionStatus.isTerminal_iff.1 terminal
    by_cases there : s.collections.executions.any (·.id == e.id)
    · have refused : recording e s.collections = (.error (.alreadyRecorded e.id), s.collections) :=
        if_pos there
      rw [commit_of_error (careful_recording e) refused]
      obtain ⟨old, hold, same⟩ := List.any_eq_true.1 there
      exact .taken ended hold (of_decide_eq_true same)
    · have accepted : recording e s.collections =
          (.ok (), { s.collections with executions := s.ledger ++ [e] }) := if_neg there
      have free : ∀ old ∈ s.ledger, old.id ≠ e.id := fun old hold same =>
        there (List.any_eq_true.2 ⟨old, hold, decide_eq_true same⟩)
      unfold commit
      rw [accepted]
      split
      · next memory => exact .appended ended free (by simp [writeFailure?, memory]) rfl
      · next b backed =>
        unfold Backing.write
        dsimp only
        cases outcome : b.outcomes 0 with
        | written => exact .appended ended free (by simp [writeFailure?, backed, outcome]) rfl
        | temporaryFailed reason =>
          exact .unwritten ended free (by simp [writeFailure?, backed, outcome]) rfl
        | renameFailed reason =>
          exact .unwritten ended free (by simp [writeFailure?, backed, outcome]) rfl
  · rw [if_neg terminal]
    exact .running (not_not.1 fun ended => terminal (ExecutionStatus.isTerminal_iff.2 ended))

/-- An execution is refused exactly if it is running, if its identifier is there already, or if the
snapshot cannot be written, in this order. -/
theorem record_eq_error_iff (s : Store) (e : Execution) (error : StoreError) :
    (s.record e).1 = .error error ↔
      (error = .notTerminal e.id ∧ e.status = .running) ∨
      (error = .alreadyRecorded e.id ∧ e.status ≠ .running ∧ ∃ old ∈ s.ledger, old.id = e.id) ∨
      (e.status ≠ .running ∧ (∀ old ∈ s.ledger, old.id ≠ e.id) ∧
        ∃ reason, error = .snapshotFile reason ∧ s.writeFailure? = some reason) := by
  have h := s.records_record e
  generalize (s.record e).1 = answer at h ⊢
  generalize (s.record e).2 = s' at h
  cases h with
  | running status =>
    refine ⟨fun h => .inl ⟨by cases h; rfl, status⟩, ?_⟩
    rintro (⟨rfl, -⟩ | ⟨-, ended, -⟩ | ⟨ended, -⟩)
    · rfl
    · exact absurd status ended
    · exact absurd status ended
  | @taken ended old there same =>
    refine ⟨fun h => .inr (.inl ⟨by cases h; rfl, ended, old, there, same⟩), ?_⟩
    rintro (⟨-, running⟩ | ⟨rfl, -⟩ | ⟨-, free, -⟩)
    · exact absurd running ended
    · rfl
    · exact absurd same (free old there)
  | unwritten ended free fails kept =>
    refine ⟨fun h => .inr (.inr ⟨ended, free, _, by cases h; rfl, fails⟩), ?_⟩
    rintro (⟨-, running⟩ | ⟨-, -, old, there, same⟩ | ⟨-, -, reason, rfl, fails'⟩)
    · exact absurd running ended
    · exact absurd same (free old there)
    · cases fails.symm.trans fails'
      rfl
  | appended ended free written added =>
    refine ⟨nofun, ?_⟩
    rintro (⟨-, running⟩ | ⟨-, -, old, there, same⟩ | ⟨-, -, reason, -, fails⟩)
    · exact absurd running ended
    · exact absurd same (free old there)
    · cases written.symm.trans fails

/-- Recording leaves the ledger as it is, or puts the execution at its end. -/
theorem Records.ledger_eq (h : s.Records e answer s') :
    s'.ledger = s.ledger ∨ s'.ledger = s.ledger ++ [e] := by
  cases h with
  | running status => exact .inl rfl
  | taken ended there same => exact .inl rfl
  | unwritten ended free fails kept => exact .inl (congrArg Collections.executions kept)
  | appended ended free written added => exact .inr (congrArg Collections.executions added)

/-- An execution that is over and has an identifier of its own is put at the end, unless the
snapshot cannot be written. -/
theorem ledger_record (ended : e.status ≠ .running) (free : ∀ old ∈ s.ledger, old.id ≠ e.id) :
    (s.record e).2.ledger =
      match s.writeFailure? with
      | none => s.ledger ++ [e]
      | some _ => s.ledger := by
  have h := s.records_record e
  generalize (s.record e).1 = answer at h
  generalize (s.record e).2 = s' at h ⊢
  cases h with
  | running status => exact absurd status ended
  | taken _ there same => exact absurd same (free _ there)
  | unwritten _ _ fails kept =>
    rw [fails]
    exact congrArg Collections.executions kept
  | appended _ _ written added =>
    rw [written]
    exact congrArg Collections.executions added

/-- A sound ledger stays so. -/
theorem Records.sound (h : s.Records e answer s') (sound : Ledger.Sound s.ledger) :
    Ledger.Sound s'.ledger := by
  cases h with
  | running status => exact sound
  | taken ended there same => exact sound
  | unwritten ended free fails kept =>
    rw [ledger, kept]
    exact sound
  | appended ended free written added =>
    rw [ledger, added]
    refine ⟨?_, fun x hx => ?_⟩
    · rw [List.map_append, List.nodup_append]
      refine ⟨sound.distinct, List.nodup_singleton _, ?_⟩
      intro id hid other hother
      obtain ⟨old, hold, rfl⟩ := List.mem_map.1 hid
      rw [List.mem_singleton.1 hother]
      exact free old hold
    · rcases List.mem_append.1 hx with old | new
      · exact sound.terminal x old
      · rw [List.mem_singleton.1 new]
        exact ExecutionStatus.isTerminal_iff.2 ended

/-- What is answered once is answered again, as long as the ledger only grows. -/
theorem getExecution_of_grows (grows : s.ledger <+: s'.ledger) {id : Uuid}
    (h : s.getExecution id = .ok e) : s'.getExecution id = .ok e := by
  obtain ⟨later, hlater⟩ := grows
  unfold getExecution at h ⊢
  have found : s.ledger.find? (·.id == id) = some e := by
    unfold ledger
    split at h
    · next x hx =>
      cases h
      exact hx
    · cases h
  have still : s'.ledger.find? (·.id == id) = some e := by
    rw [← hlater, List.find?_append, found, Option.some_or]
  unfold ledger at still
  rw [still]

/-- The statistics of a store with a sound ledger add up. -/
theorem statistics_of_sound (sound : Ledger.Sound s.ledger) :
    s.statistics.totalExecutions = s.ledger.length ∧
      s.statistics.completedExecutions + s.statistics.stoppedExecutions +
        s.statistics.failedExecutions = s.ledger.length ∧
      s.statistics.totalWorkflows = (s.list Workflow).length ∧
      s.statistics.activeWorkflows ≤ s.statistics.totalWorkflows := by
  refine ⟨rfl, ?_, by simp [statistics, list, Table.records, Definition.table],
    List.countP_le_length⟩
  have partition (entries : List Execution) (ended : ∀ e ∈ entries, e.status.isTerminal = true) :
      entries.countP (·.status == .completed) + entries.countP (·.status == .stopped) +
        entries.countP (·.status == .failed) = entries.length := by
    induction entries with
    | nil => rfl
    | cons e rest ih =>
      obtain ⟨first, others⟩ := List.forall_mem_cons.1 ended
      have rest_partition := ih others
      simp only [List.countP_cons, List.length_cons]
      cases status : e.status with
      | running => rw [status] at first; cases first
      | completed => simp; omega
      | stopped => simp; omega
      | failed => simp; omega
  exact partition s.ledger sound.terminal

end Store

end EventFlow
