import EventFlow.Event.Bus
import Mathlib.Algebra.GroupWithZero.Nat

/-!
# What a subscriber receives

A bus owes a subscriber the events that were published after its subscription and that it has not
received yet (`Bus.Owes`). Whatever others do with the bus, it goes on to owe them; what the
subscriber receives next is the first of them, or a report that some of the first are lost
(`Bus.Owes.receive`). So what a subscriber has received covers what was published (`Covers`). The
bus is the one of `EventFlow.Event.Bus`, with `Bus.publish` and `Bus.receive`.
-/

set_option autoImplicit false

namespace EventFlow

/-- The event, if one was received. -/
def Received.event? : Received → Option Event
  | .event e => some e
  | .lagged _ => none
  | .empty => none
  | .closed => none

/-- The number of events that were reported as lost. -/
def Received.lost : Received → Nat
  | .event _ => 0
  | .lagged lost => lost
  | .empty => 0
  | .closed => 0

/-- Events were received in order, but for those that were reported as lost. -/
inductive Covers : List Received → List Event → Prop
  | nil : Covers [] []
  | event {received : List Received} {events : List Event} (h : Covers received events)
      (e : Event) : Covers (received ++ [.event e]) (events ++ [e])
  | lagged {received : List Received} {events : List Event} (h : Covers received events)
      (lost : List Event) : Covers (received ++ [.lagged lost.length]) (events ++ lost)
  | closed {received : List Received} {events : List Event} (h : Covers received events) :
      Covers (received ++ [.closed]) events

namespace Covers

variable {received : List Received} {events : List Event}

/-- Nothing is received twice or out of order. -/
theorem sublist (h : Covers received events) :
    (received.filterMap Received.event?).Sublist events := by
  induction h with
  | nil => exact .refl _
  | event _ e ih =>
    rw [List.filterMap_append]
    exact ih.append (.refl [e])
  | lagged _ lost ih =>
    rw [List.filterMap_append]
    exact ih.append (List.nil_sublist lost)
  | closed _ ih =>
    rw [List.filterMap_append]
    exact (List.append_nil _).symm ▸ ih

/-- Every event is received or reported as lost. -/
theorem length_eq (h : Covers received events) :
    events.length = (received.filterMap Received.event?).length +
      (received.map Received.lost).sum := by
  induction h with
  | nil => rfl
  | event _ e ih =>
    simp [Received.event?, Received.lost, ih]
    omega
  | lagged _ lost ih =>
    simp [List.filterMap_cons, Received.event?, Received.lost, ih]
    omega
  | closed _ ih => simp [List.filterMap_cons, Received.event?, Received.lost, ih]

end Covers

/-- What a subscriber gets of the events that it has not received yet, and those that are left
then. -/
inductive Gets (isOpen : Bool) : List Event → Received → List Event → Prop
  | event (e : Event) (rest : List Event) : Gets isOpen (e :: rest) (.event e) rest
  | lagged {lost : List Event} (any : lost ≠ []) (rest : List Event) :
      Gets isOpen (lost ++ rest) (.lagged lost.length) rest
  | empty (waits : isOpen = true) : Gets isOpen [] .empty []
  | closed (shut : isOpen = false) : Gets isOpen [] .closed []

/-- As long as it gets anything, fewer events are left. -/
theorem Gets.shorter {isOpen : Bool} {unread rest : List Event} {got : Received}
    (gets : Gets isOpen unread got rest) (any : got ≠ .empty) (going : got ≠ .closed) :
    rest.length < unread.length := by
  cases gets with
  | event e => exact Nat.lt_succ_self _
  | @lagged lost missed =>
    rw [List.length_append]
    exact Nat.lt_add_of_pos_left (List.length_pos_iff.2 missed)
  | empty => exact absurd rfl any
  | closed => exact absurd rfl going

/-- Whatever a subscriber gets, all that was meant for it is covered. -/
theorem Covers.gets {isOpen : Bool} {received : List Received} {got : Received}
    {events unread rest : List Event} (h : Covers received events)
    (gets : Gets isOpen unread got rest) (any : got ≠ .empty) :
    ∃ new, unread = new ++ rest ∧ Covers (received ++ [got]) (events ++ new) := by
  cases gets with
  | event e => exact ⟨[e], rfl, h.event e⟩
  | @lagged lost => exact ⟨lost, rfl, h.lagged lost⟩
  | empty => exact absurd rfl any
  | closed => exact ⟨[], rfl, (List.append_nil events).symm ▸ h.closed⟩

namespace Bus

variable {b : Bus} {k j : Nat} {events : List Event}

/-- A subscriber is still to receive some events. -/
def Owes (b : Bus) (k : Nat) (events : List Event) : Prop :=
  ∃ p ≤ b.sent.length, b.positions[k]? = some (some p) ∧ b.sent.drop p = events

/-- The events that a subscriber has not received yet. -/
def unread (b : Bus) (k : Nat) : List Event :=
  match b.positions[k]? with
  | some (some p) => b.sent.drop p
  | _ => []

theorem Owes.unread_eq (h : b.Owes k events) : b.unread k = events := by
  obtain ⟨p, -, position, rest⟩ := h
  rw [unread, position]
  exact rest

theorem owes_subscribe (b : Bus) : b.subscribe.2.Owes b.subscribe.1 [] :=
  ⟨b.sent.length, Nat.le_refl _, List.getElem?_concat_length, List.drop_length⟩

theorem isOpen_receive (b : Bus) (k : Nat) : (b.receive k).2.isOpen = b.isOpen := by
  unfold receive
  split <;> rfl

namespace Owes

theorem publish (h : b.Owes k events) (e : Event) : (b.publish e).2.Owes k (events ++ [e]) := by
  obtain ⟨p, within, position, rfl⟩ := h
  have subscribed : b.subscribers ≠ 0 := by
    refine Nat.ne_of_gt (List.countP_pos_iff.2 ⟨some p, List.mem_of_getElem? position, rfl⟩)
  rw [Bus.publish, if_neg subscribed]
  refine ⟨p, ?_, position, List.drop_append_of_le_length within⟩
  rw [List.length_append]
  exact Nat.le_add_right_of_le within

theorem close (h : b.Owes k events) : b.close.Owes k events := h

theorem subscribe (h : b.Owes k events) : b.subscribe.2.Owes k events := by
  obtain ⟨p, within, position, rfl⟩ := h
  have inside : k < b.positions.length := (List.getElem?_eq_some_iff.1 position).1
  exact ⟨p, within, (List.getElem?_append_left inside).trans position, rfl⟩

theorem leave (h : b.Owes k events) (other : j ≠ k) : (b.leave j).Owes k events := by
  obtain ⟨p, within, position, rfl⟩ := h
  exact ⟨p, within, (List.getElem?_set_ne other).trans position, rfl⟩

theorem receive_other (h : b.Owes k events) (other : j ≠ k) :
    (b.receive j).2.Owes k events := by
  obtain ⟨p, within, position, rfl⟩ := h
  unfold Bus.receive
  split
  · exact ⟨p, within, (List.getElem?_set_ne other).trans position, rfl⟩
  · exact ⟨p, within, position, rfl⟩

end Owes

theorem gets_next (b : Bus) {p : Nat} (within : p ≤ b.sent.length) :
    Gets b.isOpen (b.sent.drop p) (b.next p).1 (b.sent.drop (b.next p).2) ∧
      (b.next p).2 ≤ b.sent.length := by
  unfold next
  by_cases late : p < b.oldest
  · rw [if_pos late]
    have oldest : b.oldest ≤ b.sent.length := Nat.sub_le _ _
    -- The events that are lost are those between the position and the oldest that is kept.
    have length : ((b.sent.drop p).take (b.oldest - p)).length = b.oldest - p := by
      rw [List.length_take, List.length_drop]
      omega
    have rest : (b.sent.drop p).drop (b.oldest - p) = b.sent.drop b.oldest := by
      rw [List.drop_drop, Nat.add_sub_cancel' (Nat.le_of_lt late)]
    refine ⟨?_, oldest⟩
    have any : (b.sent.drop p).take (b.oldest - p) ≠ [] :=
      List.ne_nil_of_length_pos (Nat.lt_of_lt_of_eq (Nat.sub_pos_of_lt late) length.symm)
    have got : Gets b.isOpen _ _ _ := .lagged any ((b.sent.drop p).drop (b.oldest - p))
    rw [List.take_append_drop, length, rest] at got
    exact got
  · rw [if_neg late]
    split
    · next e there =>
      obtain ⟨inside, rfl⟩ := List.getElem?_eq_some_iff.1 there
      rw [List.drop_eq_getElem_cons inside]
      exact ⟨.event _ _, inside⟩
    · next missing =>
      have none_left : b.sent.drop p = [] :=
        List.drop_eq_nil_of_le (List.getElem?_eq_none_iff.1 missing)
      rw [none_left]
      cases isOpen : b.isOpen with
      | true => exact ⟨.empty rfl, within⟩
      | false => exact ⟨.closed rfl, within⟩

theorem receive_of_position {p : Nat} (position : b.positions[k]? = some (some p)) :
    b.receive k =
      (some (b.next p).1, { b with positions := b.positions.set k (some (b.next p).2) }) := by
  rw [receive, position]

/-- What a subscriber still receives comes one after the other. -/
theorem backlog_eq (b : Bus) (p : Nat) : b.backlog p =
    match b.next p with
    | (.event e, later) => .event e :: b.backlog later
    | (.lagged lost, later) => .lagged lost :: b.backlog later
    | _ => [] := by
  by_cases late : p < b.oldest
  · simp [backlog, next, late, Nat.le_of_lt late]
  · have reached : max p b.oldest = p := Nat.max_eq_left (Nat.le_of_not_lt late)
    cases there : b.sent[p]? with
    | some e =>
      obtain ⟨inside, rfl⟩ := List.getElem?_eq_some_iff.1 there
      have reached' : max (p + 1) b.oldest = p + 1 := by omega
      have later : ¬ p + 1 < b.oldest := by omega
      simp only [next, if_neg late, there]
      rw [backlog, backlog, if_neg late, if_neg later, reached, reached',
        List.drop_eq_getElem_cons inside, List.map_cons]
    | none =>
      have none_left : b.sent.drop p = [] :=
        List.drop_eq_nil_of_le (List.getElem?_eq_none_iff.1 there)
      cases isOpen : b.isOpen <;> simp [backlog, next, late, there, reached, none_left, isOpen]

theorem next_ne_empty (shut : b.isOpen = false) (p : Nat) : (b.next p).1 ≠ .empty := by
  unfold next
  rw [shut]
  split
  · exact nofun
  · split <;> exact nofun

theorem next_of_backlog_eq_nil {p : Nat} (shut : b.isOpen = false) (backlog : b.backlog p = []) :
    ∃ later, b.next p = (.closed, later) := by
  have waits := b.next_ne_empty shut p
  rw [backlog_eq] at backlog
  generalize b.next p = next at backlog waits
  obtain ⟨got, later⟩ := next
  cases got with
  | event e => cases backlog
  | lagged lost => cases backlog
  | empty => exact absurd rfl waits
  | closed => exact ⟨later, rfl⟩

theorem next_of_backlog_eq_cons {p : Nat} {r : Received} {rest : List Received}
    (backlog : b.backlog p = r :: rest) :
    ∃ later, b.next p = (r, later) ∧ b.backlog later = rest ∧ r ≠ .empty ∧ r ≠ .closed := by
  rw [backlog_eq] at backlog
  generalize b.next p = next at backlog
  obtain ⟨got, later⟩ := next
  cases got with
  | event e =>
    cases backlog
    exact ⟨later, rfl, rfl, nofun, nofun⟩
  | lagged lost =>
    cases backlog
    exact ⟨later, rfl, rfl, nofun, nofun⟩
  | empty => cases backlog
  | closed => cases backlog

/-- What a subscriber receives next. -/
theorem Owes.receive (h : b.Owes k events) : ∃ got rest after, b.receive k = (some got, after) ∧
    Gets b.isOpen events got rest ∧ after.Owes k rest := by
  obtain ⟨p, within, position, rfl⟩ := h
  obtain ⟨gets, within'⟩ := b.gets_next within
  have inside : k < b.positions.length := (List.getElem?_eq_some_iff.1 position).1
  exact ⟨_, _, _, receive_of_position position, gets, _, within',
    List.getElem?_set_self inside, rfl⟩

end Bus

end EventFlow
