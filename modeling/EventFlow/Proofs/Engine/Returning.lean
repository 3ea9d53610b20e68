import EventFlow.Proofs.Engine.Listening
import Mathlib.Data.Prod.Lex

/-!
# The listener returns

Whatever the listener does brings it nearer to its return, and when the bus is closed, nobody else
takes it farther away (`Station.Acts.nearer`, `Station.Step.acts_or_same`). It waits for nothing but
events on an open bus and executions that have not ended (`Station.waits_of_act_eq_none`). So from
every station with a closed bus there is a run to the return (`Station.Orderly.returns`), and
whatever goes on at a station, the listener returns if it is let act and executions end
(`Station.Fair.returns`). The listener is the one of `EventFlow.Engine.Listener`, and `Station.act`
is what it does next.
-/

set_option autoImplicit false

open Relation (ReflTransGen)

namespace EventFlow

variable {σ : Type}

/-- The phases in the order in which the listener goes through them, the last first. -/
def Phase.rank : Phase → Nat
  | .matching _ => 4
  | .launching _ _ _ => 3
  | .listening => 2
  | .joining => 1
  | .returned => 0

/-- How much is left to do in a phase. -/
def Listener.pending (l : Listener) : Nat :=
  match l.phase with
  | .launching _ rest _ => rest.length
  | .joining => l.inFlight.length
  | _ => 0

namespace Station

open Machine (Path)

variable {engine : Engine σ} {start m m' : Machine σ} {history : History σ} {d : Deed σ}
  {t t' : Station σ} {events : List Event}

/-- How far the listener is from its return: the events it has not received come first, then the
phase, then what is left to do in it. -/
def distance (t : Station σ) : Nat ×ₗ Nat ×ₗ Nat :=
  toLex ((t.bus.unread t.listener.subscriber).length,
    toLex (t.listener.phase.rank, t.listener.pending))

theorem distance_lt_of_unread
    (fewer : (t'.bus.unread t'.listener.subscriber).length <
      (t.bus.unread t.listener.subscriber).length) : t'.distance < t.distance :=
  Prod.Lex.toLex_lt_toLex.2 (.inl fewer)

theorem distance_lt_of_rank
    (same : t'.bus.unread t'.listener.subscriber = t.bus.unread t.listener.subscriber)
    (lower : t'.listener.phase.rank < t.listener.phase.rank) : t'.distance < t.distance :=
  Prod.Lex.toLex_lt_toLex.2
    (.inr ⟨congrArg List.length same, Prod.Lex.toLex_lt_toLex.2 (.inl lower)⟩)

theorem distance_lt_of_pending
    (same : t'.bus.unread t'.listener.subscriber = t.bus.unread t.listener.subscriber)
    (rank : t'.listener.phase.rank = t.listener.phase.rank)
    (less : t'.listener.pending < t.listener.pending) : t'.distance < t.distance :=
  Prod.Lex.toLex_lt_toLex.2
    (.inr ⟨congrArg List.length same, Prod.Lex.toLex_lt_toLex.2 (.inr ⟨rank, less⟩)⟩)

/-- Whatever is received leaves less to receive. -/
theorem unread_receive {b after : Bus} {k : Nat} {got : Received} (owes : b.Owes k events)
    (receive : b.receive k = (some got, after)) (any : got ≠ .empty) :
    (after.unread k).length < (b.unread k).length ∨
      got = .closed ∧ after.unread k = b.unread k := by
  obtain ⟨got', rest, after', received, gets, owes'⟩ := owes.receive
  cases received.symm.trans receive
  rw [owes.unread_eq, owes'.unread_eq]
  by_cases closed : got = .closed
  · subst closed
    cases gets with
    | closed => exact .inr ⟨rfl, rfl⟩
  · exact .inl (gets.shorter any closed)

/-- Whatever the listener does brings it nearer to its return. -/
theorem Acts.nearer (acts : Acts engine t d t')
    (owes : t.bus.Owes t.listener.subscriber events) : t'.distance < t.distance := by
  cases acts with
  | hears got =>
    rcases unread_receive owes got nofun with fewer | ⟨closed, -⟩
    · exact distance_lt_of_unread fewer
    · cases closed
  | passesOver got =>
    rcases unread_receive owes got nofun with fewer | ⟨closed, -⟩
    · exact distance_lt_of_unread fewer
    · cases closed
  | stops got =>
    rcases unread_receive owes got nofun with fewer | ⟨-, same⟩
    · exact distance_lt_of_unread fewer
    · exact distance_lt_of_rank same (show 1 < 2 by omega)
  | selects => exact distance_lt_of_rank rfl (show 3 < 4 by omega)
  | launches bus m k n inFlight data w rest launched =>
    exact distance_lt_of_pending rfl rfl (show rest.length < (w :: rest).length by simp)
  | counts => exact distance_lt_of_rank rfl (show 2 < 3 by omega)
  | @joins bus m k n s inFlight ended =>
    exact distance_lt_of_pending rfl rfl (show inFlight.length < (s :: inFlight).length by simp)
  | returns => exact distance_lt_of_rank rfl (show 0 < 1 by omega)

/-- When the bus is closed, nobody else takes the listener farther away. -/
theorem Step.acts_or_same (step : t.Step engine d t') (shut : t.bus.isOpen = false)
    (owes : t.bus.Owes t.listener.subscriber events) :
    t.act engine = some (d, t') ∨ t'.listener = t.listener ∧ t'.distance = t.distance := by
  have same {bus : Bus} {m : Machine σ} (owes' : bus.Owes t.listener.subscriber events) :
      (Station.mk bus m t.listener).distance = t.distance := by
    rw [distance, distance, owes.unread_eq, owes'.unread_eq]
  cases step with
  | acts act => exact .inl act
  | published e isOpen => cases isOpen.symm.trans shut
  | closed => exact .inr ⟨rfl, same owes.close⟩
  | subscribed isOpen => cases isOpen.symm.trans shut
  | received other => exact .inr ⟨rfl, same (owes.receive_other other)⟩
  | left other => exact .inr ⟨rfl, same (owes.leave other)⟩
  | happened => exact .inr ⟨rfl, same owes⟩

theorem Acts.isOpen_eq (acts : Acts engine t d t') : t'.bus.isOpen = t.bus.isOpen := by
  have received {b after : Bus} {k : Nat} {got : Option Received}
      (receive : b.receive k = (got, after)) : after.isOpen = b.isOpen := by
    have same := b.isOpen_receive k
    rw [receive] at same
    exact same
  cases acts with
  | hears got => exact received got
  | passesOver got => exact received got
  | stops got => exact received got
  | _ => rfl

/-- A bus that is closed is never opened again. -/
theorem Step.shut (step : t.Step engine d t') (shut : t.bus.isOpen = false) :
    t'.bus.isOpen = false := by
  cases step with
  | acts act => exact (act_iff.1 act).isOpen_eq.trans shut
  | published e isOpen => cases isOpen.symm.trans shut
  | closed => rfl
  | received other => exact (Bus.isOpen_receive _ _).trans shut
  | _ => exact shut

/-- A listener that does nothing waits for an event on an open bus, or for an execution that has not
ended, or has returned. -/
theorem waits_of_act_eq_none (idle : t.act engine = none)
    (owes : t.bus.Owes t.listener.subscriber events) :
    (t.listener.phase = .listening ∧ t.bus.isOpen = true ∧ events = []) ∨
    (t.listener.phase = .joining ∧
      ∃ s rest, t.listener.inFlight = s :: rest ∧ t.machine.outcome? s.agent = none) ∨
    t.listener.phase = .returned := by
  obtain ⟨bus, m, ⟨k, phase, inFlight, n⟩⟩ := t
  cases phase with
  | listening =>
    obtain ⟨got, rest, after, receive, gets, -⟩ := owes.receive
    have receive' : bus.receive k = (some got, after) := receive
    cases gets with
    | event e => simp [act, receive'] at idle
    | lagged => simp [act, receive'] at idle
    | empty waits => exact .inl ⟨rfl, waits, rfl⟩
    | closed => simp [act, receive'] at idle
  | matching e => cases idle
  | launching data rest launched => cases rest <;> cases idle
  | joining =>
    cases inFlight with
    | nil => cases idle
    | cons s rest =>
      refine .inr (.inl ⟨rfl, s, rest, rfl, ?_⟩)
      simpa [act] using idle
  | returned => exact .inr (.inr rfl)

/-- Whatever may happen to the machine may happen at the station. -/
theorem exists_run_of_path (path : m.Path engine m') (bus : Bus) (l : Listener) :
    ∃ history, Run engine ⟨bus, m, l⟩ history ⟨bus, m', l⟩ := by
  induction path with
  | refl => exact ⟨[], .nil⟩
  | @tail middle last _ step ih =>
    obtain ⟨history, run⟩ := ih
    exact ⟨_, run.snoc (.happened step)⟩

/-- Executions that the listener waits for have agents. -/
theorem Orderly.inside (h : t.Orderly engine start history) {s : Started}
    (flying : s ∈ t.listener.inFlight) : s.agent < t.machine.agents.length := by
  have started : s ∈ history.started := h.attends.known s (List.mem_append_left _ flying)
  obtain ⟨agent, there, -⟩ := h.manned.delivers s started
  exact (List.getElem?_eq_some_iff.1 there).1

/-- When the bus is closed, the listener can always return. -/
theorem Orderly.returns (h : t.Orderly engine start history) (sound : start.Sound)
    (shut : t.bus.isOpen = false) :
    ∃ more last, t.Run engine more last ∧ last.listener.phase = .returned := by
  induction far : t.distance using WellFoundedLT.induction generalizing t history with
  | ind distance ih =>
    subst far
    obtain ⟨unread, attentive⟩ := h.attentive
    -- After an act the listener is nearer.
    have act {middle t' : Station σ} {more : History σ} {d : Deed σ}
        (run : t.Run engine more middle) (same : middle.distance = t.distance)
        (shut : middle.bus.isOpen = false)
        (act : middle.act engine = some (d, t')) :
        ∃ more last, t.Run engine more last ∧ last.listener.phase = .returned := by
      have orderly := run.orderly sound h
      obtain ⟨unread, attentive⟩ := orderly.attentive
      have nearer := (act_iff.1 act).nearer attentive.owes
      obtain ⟨later, last, rest, returned⟩ := ih t'.distance (same ▸ nearer)
        ((Step.acts act).orderly sound orderly) ((Step.acts act).shut shut) rfl
      exact ⟨_, last, (run.snoc (.acts act)).append rest, returned⟩
    cases idle : t.act engine with
    | some done => exact act .nil rfl shut idle
    | none =>
      rcases waits_of_act_eq_none idle attentive.owes with
        ⟨-, isOpen, -⟩ | ⟨joining, s, rest, inFlight, -⟩ | returned
      · cases isOpen.symm.trans shut
      · -- The machine runs until the execution has ended that is waited for.
        have now := Path.sound h.manned.path sound
        have inside := h.inside (inFlight ▸ List.mem_cons_self)
        obtain ⟨e, -, outcome⟩ :
            ∃ e, _ ∧ (t.machine.join engine s.agent).2.outcome? s.agent = some e :=
          Machine.outcome?_join now inside
        have runs : t.machine.Runs engine _ := Machine.runs_join s.agent t.machine now.orderly
        obtain ⟨more, run⟩ := exists_run_of_path (Machine.Runs.path runs) t.bus t.listener
        have joins : Station.act engine ⟨t.bus, (t.machine.join engine s.agent).2, t.listener⟩ =
            some (.aside, ⟨t.bus, (t.machine.join engine s.agent).2,
              { t.listener with inFlight := rest }⟩) := by
          simp [Station.act, joining, inFlight, outcome]
        exact act run rfl shut joins
      · exact ⟨[], t, .nil, returned⟩

/-! ## Fair courses -/

/-- Things go on at a station forever. Sooner or later the listener does what it can do, and sooner
or later the executions end that it waits for. -/
structure Fair (engine : Engine σ) (course : Nat → Station σ) : Prop where
  steps : ∀ i, ∃ d, (course i).Step engine d (course (i + 1))
  acts : ∀ i, ∃ j ≥ i, (course j).act engine = none ∨
    ∃ d, (course j).act engine = some (d, course (j + 1))
  ends : ∀ i, ∀ s ∈ (course i).listener.inFlight,
    ∃ j ≥ i, ((course j).machine.outcome? s.agent).isSome = true

section Fair

variable {course : Nat → Station σ}

/-- All that is known stays so. -/
theorem Fair.orderly (fair : Fair engine course) (sound : start.Sound)
    (h : (course 0).Orderly engine start history) (shut : (course 0).bus.isOpen = false) (i : Nat) :
    (∃ history, (course i).Orderly engine start history) ∧ (course i).bus.isOpen = false := by
  induction i with
  | zero => exact ⟨⟨history, h⟩, shut⟩
  | succ i ih =>
    obtain ⟨⟨history, orderly⟩, shut⟩ := ih
    obtain ⟨d, step⟩ := fair.steps i
    exact ⟨⟨_, step.orderly sound orderly⟩, step.shut shut⟩

theorem Fair.path (fair : Fair engine course) {i j : Nat} (later : i ≤ j) :
    (course i).machine.Path engine (course j).machine := by
  induction j, later using Nat.le_induction with
  | base => exact .refl
  | succ j _ ih =>
    obtain ⟨d, step⟩ := fair.steps j
    exact ih.trans step.moves.path

/-- As time goes by, the listener gets nearer, unless it does nothing. -/
theorem Fair.nearer_or_same (fair : Fair engine course) (sound : start.Sound)
    (h : (course 0).Orderly engine start history) (shut : (course 0).bus.isOpen = false)
    {i j : Nat} (later : i ≤ j) : (course j).distance < (course i).distance ∨
      (course j).listener = (course i).listener ∧
        (course j).distance = (course i).distance := by
  induction j, later using Nat.le_induction with
  | base => exact .inr ⟨rfl, rfl⟩
  | succ j _ ih =>
    obtain ⟨⟨before, orderly⟩, shut⟩ := fair.orderly sound h shut j
    obtain ⟨unread, attentive⟩ := orderly.attentive
    obtain ⟨d, step⟩ := fair.steps j
    rcases step.acts_or_same shut attentive.owes with act | ⟨listener, distance⟩
    · have nearer := (act_iff.1 act).nearer attentive.owes
      exact .inl (ih.elim nearer.trans fun same => same.2 ▸ nearer)
    · rw [listener, distance]
      exact ih

/-- If the listener has not returned, there comes a time from which on it can act, if it has not
acted in the meantime. -/
theorem Fair.able (fair : Fair engine course) (sound : start.Sound)
    (h : (course 0).Orderly engine start history) (shut : (course 0).bus.isOpen = false) (i : Nat)
    (going : (course i).listener.phase ≠ .returned) :
    ∃ j ≥ i, ∀ k ≥ j, (course k).listener = (course i).listener →
      (course k).act engine ≠ none := by
  -- It cannot act only while it waits for the first execution in flight.
  have waits {k : Nat} (same : (course k).listener = (course i).listener)
      (idle : (course k).act engine = none) : ∃ s rest, (course i).listener.inFlight = s :: rest ∧
        (course k).machine.outcome? s.agent = none := by
    obtain ⟨⟨before, orderly⟩, shut⟩ := fair.orderly sound h shut k
    obtain ⟨unread, attentive⟩ := orderly.attentive
    rcases waits_of_act_eq_none idle attentive.owes with ⟨-, isOpen, -⟩ | ⟨-, waits⟩ | returned
    · cases isOpen.symm.trans shut
    · exact same ▸ waits
    · exact absurd (same ▸ returned) going
  cases inFlight : (course i).listener.inFlight with
  | nil =>
    refine ⟨i, Nat.le_refl i, fun k _ same idle => ?_⟩
    obtain ⟨s, rest, flying, -⟩ := waits same idle
    cases inFlight.symm.trans flying
  | cons s rest =>
    obtain ⟨j, later, ended⟩ := fair.ends i s (inFlight ▸ List.mem_cons_self)
    refine ⟨j, later, fun k after same idle => ?_⟩
    obtain ⟨s', rest', flying, unended⟩ := waits same idle
    cases inFlight.symm.trans flying
    obtain ⟨e, outcome⟩ := Option.isSome_iff_exists.1 ended
    obtain ⟨⟨before, orderly⟩, -⟩ := fair.orderly sound h shut j
    have kept := Path.outcome?_kept (fair.path after) (Path.sound orderly.manned.path sound) outcome
    cases unended.symm.trans kept

/-- When the bus is closed, the listener returns, whatever goes on. -/
theorem Fair.returns (fair : Fair engine course) (sound : start.Sound)
    (h : (course 0).Orderly engine start history) (shut : (course 0).bus.isOpen = false) :
    ∃ i, (course i).listener.phase = .returned := by
  suffices ∀ i, ∃ j, (course j).listener.phase = .returned from this 0
  intro i
  induction far : (course i).distance using WellFoundedLT.induction generalizing i with
  | ind distance ih =>
    subst far
    by_cases returned : (course i).listener.phase = .returned
    · exact ⟨i, returned⟩
    obtain ⟨able, later, acts⟩ := fair.able sound h shut i returned
    obtain ⟨j, after, idle | ⟨d, act⟩⟩ := fair.acts able
    · rcases fair.nearer_or_same sound h shut (Nat.le_trans later after) with nearer | ⟨same, -⟩
      · exact ih _ nearer j rfl
      · exact absurd idle (acts j after same)
    · obtain ⟨⟨before, orderly⟩, -⟩ := fair.orderly sound h shut j
      obtain ⟨unread, attentive⟩ := orderly.attentive
      have nearer := (act_iff.1 act).nearer attentive.owes
      refine ih _ ?_ (j + 1) rfl
      rcases fair.nearer_or_same sound h shut (Nat.le_trans later after) with before | ⟨-, same⟩
      · exact nearer.trans before
      · exact same ▸ nearer

end Fair

end Station

end EventFlow
