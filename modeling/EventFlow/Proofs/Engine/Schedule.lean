import EventFlow.Proofs.Engine.Foreground
import EventFlow.Proofs.Engine.Timeline

/-!
# Calls against the clock

Calls are asked for at a time, with a limit, and each takes its time. A `Schedule` says what comes
of them: the turn of a call that is made after others comes when these have ended, and calls that
are made all at once begin at once; the whole takes as long as the calls up to the first failure, or
as long as the longest of all. While an agent waits, every call that has been made is on schedule
(`Waiting.Timed`). So if it is answered, it is when the schedule says (`Timed.ends`), and if its
time is up before, then the schedule takes that long (`Timed.limit_le`). The alarms are set by
`Machine.makeCalls`, in `EventFlow.Engine.Agent`.
-/

set_option autoImplicit false

namespace EventFlow

variable {σ β : Type}

/-! ## Schedules -/

namespace Lasting

/-- The calls of a list that are made one after the other when no time is up: none after the first
that fails. -/
def upToFailure : List Lasting → List Lasting
  | [] => []
  | x :: rest => if x.outcome.isOk then x :: upToFailure rest else [x]

/-- How long calls take one after the other. -/
def altogether (xs : List Lasting) : Nat := (xs.map duration).sum

/-- How long the longest of some calls takes. -/
def longest : List Lasting → Nat
  | [] => 0
  | x :: rest => max x.duration (longest rest)

theorem isOk_iff {x : Lasting} : x.outcome.isOk = true ↔ x.Succeeds := by
  unfold Succeeds
  cases x.outcome <;> simp [Except.isOk, Except.toBool]

variable {xs ys : List Lasting} {k : Nat} {x : Lasting}

/-- All calls before the first failure are made, and the one that fails. -/
theorem take_prefix_upToFailure (succeed : ∀ x ∈ xs.take k, x.Succeeds) :
    xs.take (k + 1) <+: upToFailure xs := by
  induction xs generalizing k with
  | nil => exact List.nil_prefix
  | cons x rest ih =>
    rw [upToFailure, List.take_succ_cons]
    cases k with
    | zero =>
      rw [List.take_zero]
      split
      · exact List.cons_prefix_cons.2 ⟨rfl, List.nil_prefix⟩
      · exact List.prefix_rfl
    | succ k =>
      rw [List.take_succ_cons] at succeed
      obtain ⟨first, others⟩ := List.forall_mem_cons.1 succeed
      rw [if_pos (isOk_iff.2 first)]
      exact List.cons_prefix_cons.2 ⟨rfl, ih others⟩

/-- No call is made after the first failure. -/
theorem upToFailure_eq_take (succeed : ∀ x ∈ xs.take k, x.Succeeds)
    (last : (∃ x, xs[k]? = some x ∧ ¬ x.Succeeds) ∨ xs.length ≤ k + 1) :
    upToFailure xs = xs.take (k + 1) := by
  induction xs generalizing k with
  | nil => rfl
  | cons x rest ih =>
    rw [upToFailure, List.take_succ_cons]
    cases k with
    | zero =>
      rw [List.take_zero]
      rcases last with ⟨y, here, fails⟩ | short
      · cases here
        rw [if_neg (mt isOk_iff.1 fails)]
      · have : rest = [] := List.eq_nil_of_length_eq_zero (by
          rw [List.length_cons] at short
          omega)
        rw [this, upToFailure, ite_self]
    | succ k =>
      rw [List.take_succ_cons] at succeed
      obtain ⟨first, others⟩ := List.forall_mem_cons.1 succeed
      rw [if_pos (isOk_iff.2 first), ih others]
      refine last.imp_right ?_
      intro short
      rw [List.length_cons] at short
      omega

theorem altogether_take_succ (here : xs[k]? = some x) :
    altogether (xs.take (k + 1)) = altogether (xs.take k) + x.duration := by
  simp [altogether, List.take_add_one, here]

theorem altogether_le_of_prefix (h : xs <+: ys) : altogether xs ≤ altogether ys := by
  obtain ⟨rest, rfl⟩ := h
  simp [altogether]

theorem altogether_take_mono {j : Nat} (h : j ≤ k) :
    altogether (xs.take j) ≤ altogether (xs.take k) :=
  altogether_le_of_prefix (List.take_prefix_take_left h)

theorem le_longest (h : x ∈ xs) : x.duration ≤ longest xs := by
  induction xs with
  | nil => cases h
  | cons y rest ih =>
    rcases List.mem_cons.1 h with rfl | later
    · exact Nat.le_max_left _ _
    · exact Nat.le_trans (ih later) (Nat.le_max_right _ _)

theorem longest_le {n : Nat} (h : ∀ x ∈ xs, x.duration ≤ n) : longest xs ≤ n := by
  induction xs with
  | nil => exact Nat.zero_le n
  | cons x rest ih =>
    obtain ⟨first, others⟩ := List.forall_mem_cons.1 h
    exact Nat.max_le.2 ⟨first, ih others⟩

end Lasting

open Lasting (upToFailure altogether longest)

/-- Calls that are asked for at a time, for so many milliseconds at most, and how long each of them
takes and how it ends. -/
structure Schedule where
  start : Nat
  limit : Nat
  order : CallOrder
  calls : List Invocation
  lastings : List Lasting

namespace Schedule

variable (r : Schedule)

/-- The calls that are made if no time is up. -/
def made : List Lasting :=
  match r.order with
  | .inTurn => upToFailure r.lastings
  | .together => r.lastings

/-- How long all of it takes if no time is up. -/
def takes : Nat :=
  match r.order with
  | .inTurn => altogether (upToFailure r.lastings)
  | .together => longest r.lastings

/-- When the turn of a call comes. -/
def turn (slot : Nat) : Nat :=
  match r.order with
  | .inTurn => r.start + altogether (r.lastings.take slot)
  | .together => r.start

/-- When the time is up. -/
def deadline : Nat := r.start + r.limit

/-- The answer to the calls, and when it comes: the replies if the time is not up before, and else
none. -/
inductive Ends : Option (List Reply) → Nat → Prop
  | settled (inTime : r.takes ≤ r.limit) :
      Ends (some (r.made.map Lasting.reply)) (r.start + r.takes)
  | late (tooLong : r.limit ≤ r.takes) : Ends none r.deadline

/-- A call that is made when its turn comes, before the time is up. -/
def OnTime (c : TimedCall) : Prop :=
  r.calls[c.slot]? = some c.call ∧ c.time = r.turn c.slot ∧ c.time < r.deadline

/-- The schedule has the call as it is. -/
def Fits (c : TimedCall) : Prop :=
  r.calls[c.slot]? = some c.call → r.lastings[c.slot]? = some c.lasting

variable {r}

/-- Where nothing is asked for, the answer comes at once. -/
theorem ends_of_nil (none_last : r.lastings = []) : r.Ends (some []) r.start := by
  have nothing : r.takes = 0 ∧ r.made = [] := by
    unfold takes made
    rw [none_last]
    cases r.order <;> exact ⟨rfl, rfl⟩
  have ends : r.Ends (some (r.made.map Lasting.reply)) (r.start + r.takes) :=
    .settled (nothing.1 ▸ Nat.zero_le r.limit)
  rwa [nothing.1, nothing.2] at ends

/-- The whole takes no less than any call that is made takes until its end. -/
theorem turn_add_le {slot : Nat} {x : Lasting} (here : r.lastings[slot]? = some x)
    (succeed : r.order = .inTurn → ∀ y ∈ r.lastings.take slot, y.Succeeds) :
    r.turn slot + x.duration ≤ r.start + r.takes := by
  unfold turn takes
  cases order : r.order with
  | inTurn =>
    have made := Lasting.altogether_le_of_prefix (Lasting.take_prefix_upToFailure (succeed order))
    rw [Lasting.altogether_take_succ here] at made
    dsimp only
    omega
  | together =>
    have := Lasting.le_longest (List.mem_of_getElem? here)
    dsimp only
    omega

end Schedule

/-! ## Waiting -/

/-- The alarm belongs to a call of the schedule: it goes off when the turn of the call comes, or
when the call ends, with its reply. -/
def Alarm.Scheduled (r : Schedule) (a : Alarm) : Prop :=
  match a.signal with
  | .wake => False
  | .start slot call => r.calls[slot]? = some call ∧ a.time = r.turn slot
  | .finish slot reply => ∃ x, r.lastings[slot]? = some x ∧ reply = x.reply ∧
    a.time = r.turn slot + x.duration

namespace Waiting

/-- An agent waits for calls that are on schedule. All that have been made have their reply or an
alarm, and of calls that are made in turn all but the last have succeeded. -/
structure Timed (r : Schedule) (alarms : List Alarm) (now : Nat) (stirred : Prop) (w : Waiting) :
    Prop where
  deadline : w.deadline = some r.deadline
  early : now < r.deadline
  rest : w.rest = r.calls.drop w.replies.length
  whole : r.order = .together → w.replies.length = r.calls.length
  come : ∀ (slot : Nat) (reply : Reply), w.replies[slot]? = some (some reply) →
    ∃ x, r.lastings[slot]? = some x ∧ reply = x.reply ∧ r.turn slot + x.duration ≤ now
  passed : r.order = .inTurn → ∀ slot, slot + 1 < w.replies.length →
    ∃ x, r.lastings[slot]? = some x ∧ x.Succeeds ∧ w.replies[slot]? = some (some x.reply)
  toCome : ∀ slot : Nat, w.replies[slot]? = some none → ∃ a ∈ alarms, a.Concerns slot
  scheduled : ∀ a ∈ alarms, a.Scheduled r
  /-- The last reply has come just now. -/
  stirred : none ∉ w.replies → stirred ∧ ∃ slot x, slot < w.replies.length ∧
    r.lastings[slot]? = some x ∧ now = r.turn slot + x.duration

namespace Timed

variable {r : Schedule} {alarms alarms' : List Alarm} {now now' : Nat} {stirred stirred' : Prop}
  {w : Waiting}

/-- Time passes, but not for an agent that has been stirred. -/
theorem later (h : w.Timed r alarms now stirred) (after : now ≤ now') (early : now' < r.deadline)
    (still : stirred → now' = now) : w.Timed r alarms now' stirred where
  deadline := h.deadline
  early := early
  rest := h.rest
  whole := h.whole
  come slot reply hreply := by
    obtain ⟨x, here, same, ended⟩ := h.come slot reply hreply
    exact ⟨x, here, same, Nat.le_trans ended after⟩
  passed := h.passed
  toCome := h.toCome
  scheduled := h.scheduled
  stirred complete := by
    obtain ⟨stir, last⟩ := h.stirred complete
    rw [still stir]
    exact ⟨stir, last⟩

/-- A reply comes at its time, and its alarm is gone. -/
theorem fill (h : w.Timed r alarms now stirred) {slot : Nat} {x : Lasting}
    (here : r.lastings[slot]? = some x) (ends : now = r.turn slot + x.duration)
    (new : ∀ a ∈ alarms', a ∈ alarms) (kept : ∀ a ∈ alarms, a.Concerns slot ∨ a ∈ alarms')
    (stir : stirred') : (w.fill slot x.reply).Timed r alarms' now stirred' where
  deadline := h.deadline
  early := h.early
  rest := by
    rw [Waiting.fill, List.length_set]
    exact h.rest
  whole order := by
    rw [Waiting.fill, List.length_set]
    exact h.whole order
  come j reply hreply := by
    rcases came_of_set hreply with ⟨rfl, rfl⟩ | before
    · exact ⟨x, here, rfl, Nat.le_of_eq ends.symm⟩
    · exact h.come j reply before
  passed order j hj := by
    rw [Waiting.fill, List.length_set] at hj
    obtain ⟨y, hy, succeeds, came⟩ := h.passed order j hj
    refine ⟨y, hy, succeeds, ?_⟩
    change (w.replies.set slot (some x.reply))[j]? = some (some y.reply)
    by_cases same : slot = j
    · subst same
      cases here.symm.trans hy
      exact List.getElem?_set_self (by omega)
    · rw [List.getElem?_set_ne same]
      exact came
  toCome j hnone := by
    obtain ⟨apart, before⟩ := missing_of_set hnone
    obtain ⟨a, ha, concerns⟩ := h.toCome j before
    exact ⟨a, (kept a ha).resolve_left fun own => apart (own.eq concerns), concerns⟩
  scheduled a ha := h.scheduled a (new a ha)
  stirred complete := by
    refine ⟨stir, ?_⟩
    rw [Waiting.fill, List.length_set]
    rcases Nat.lt_or_ge slot w.replies.length with inside | outside
    · exact ⟨slot, x, inside, here, ends⟩
    · rw [Waiting.fill, List.set_eq_of_length_le outside] at complete
      exact (h.stirred complete).2

/-- The handler of a call is called, and an alarm is set for its end. -/
theorem run (h : w.Timed r alarms now stirred) {slot : Nat} {f : Alarm} (scheduled : f.Scheduled r)
    (concerns : f.Concerns slot) (set : f ∈ alarms') (new : ∀ a ∈ alarms', a = f ∨ a ∈ alarms)
    (kept : ∀ a ∈ alarms, a.Concerns slot ∨ a ∈ alarms') : w.Timed r alarms' now stirred where
  deadline := h.deadline
  early := h.early
  rest := h.rest
  whole := h.whole
  come := h.come
  passed := h.passed
  toCome j hnone := by
    obtain ⟨a, ha, here⟩ := h.toCome j hnone
    exact here.exists_of_kept ha concerns set kept
  scheduled a ha := by
    rcases new a ha with rfl | old
    · exact scheduled
    · exact h.scheduled a old
  stirred := h.stirred

/-- The agent has looked, and some replies are still to come. -/
theorem look (h : w.Timed r alarms now stirred) (missing : none ∈ w.replies) :
    w.Timed r alarms now stirred' :=
  { h with stirred := fun complete => absurd missing complete }

/-- What has been made in turn before the last call has succeeded. -/
theorem succeed (h : w.Timed r alarms now stirred) (order : r.order = .inTurn) {slot : Nat}
    (inside : slot < w.replies.length) : ∀ x ∈ r.lastings.take slot, x.Succeeds := by
  intro x hx
  obtain ⟨j, hj, same⟩ := List.getElem_of_mem hx
  rw [List.length_take] at hj
  obtain ⟨y, hy, succeeds, -⟩ := h.passed order j (by omega)
  have here : (r.lastings.take slot)[j]? = some y := by
    rw [List.getElem?_take_of_lt (by omega), hy]
  rw [List.getElem?_eq_getElem (by rw [List.length_take]; exact hj), same] at here
  exact Option.some.inj here ▸ succeeds

/-- All replies that have come are those of the schedule. -/
theorem replies_eq (h : w.Timed r alarms now stirred) {replies : List Reply}
    (all : all? w.replies = some replies) :
    replies = (r.lastings.take w.replies.length).map Lasting.reply := by
  have came := all?_eq_some_iff.1 all
  have length : w.replies.length = replies.length := by rw [came, List.length_map]
  have each : ∀ (slot : Nat) (reply : Reply), replies[slot]? = some reply →
      ∃ x : Lasting, r.lastings[slot]? = some x ∧ reply = x.reply := by
    intro slot reply here
    obtain ⟨x, hx, same, -⟩ := h.come slot reply (by rw [came, List.getElem?_map, here]; rfl)
    exact ⟨x, hx, same⟩
  apply List.ext_getElem?
  intro slot
  rw [length, List.getElem?_map]
  rcases Nat.lt_or_ge slot replies.length with inside | outside
  · obtain ⟨x, hx, same⟩ := each slot _ (List.getElem?_eq_getElem inside)
    rw [List.getElem?_take_of_lt inside, hx, List.getElem?_eq_getElem inside, same]
    rfl
  · rw [List.getElem?_eq_none outside,
      List.getElem?_eq_none (Nat.le_trans (List.length_take_le _ _) outside)]
    rfl

/-- When all calls that have been made in turn have their replies, the next turn comes. -/
theorem now_eq (h : w.Timed r alarms now stirred) (order : r.order = .inTurn)
    (complete : none ∉ w.replies) : now = r.turn w.replies.length := by
  obtain ⟨-, slot, x, inside, hx, ended⟩ := h.stirred complete
  obtain ⟨k, length⟩ := Nat.exists_eq_add_one_of_ne_zero (Nat.ne_zero_of_lt inside)
  have last : k < w.replies.length := by omega
  cases came : w.replies[k] with
  | none =>
    refine absurd ?_ complete
    rw [← came]
    exact List.getElem_mem last
  | some reply =>
    obtain ⟨y, hy, -, upto⟩ := h.come k reply (by rw [List.getElem?_eq_getElem last, came])
    have mono : altogether (r.lastings.take (slot + 1)) ≤ altogether (r.lastings.take (k + 1)) :=
      Lasting.altogether_take_mono (by omega)
    rw [Lasting.altogether_take_succ hx, Lasting.altogether_take_succ hy] at mono
    have next := Lasting.altogether_take_succ hy
    simp only [Schedule.turn, order] at ended upto ⊢
    rw [length]
    omega

/-- When the agent goes on with replies, it is at the time of the schedule, with the replies of the
schedule. -/
theorem ends (h : w.Timed r alarms now stirred) (length : r.lastings.length = r.calls.length)
    {replies : List Reply} (all : all? w.replies = some replies)
    (last : replies.any isFailure = true ∨ w.rest = []) : r.Ends (some replies) now := by
  have complete : none ∉ w.replies := by
    rw [all?_eq_some_iff.1 all]
    simp
  have same := h.replies_eq all
  have early := h.early
  unfold Schedule.deadline at early
  suffices r.made = r.lastings.take w.replies.length ∧ now = r.start + r.takes by
    obtain ⟨made, time⟩ := this
    rw [same, ← made, time]
    exact .settled (by omega)
  cases order : r.order with
  | together =>
    have whole : r.lastings.take w.replies.length = r.lastings := by
      rw [h.whole order, ← length, List.take_length]
    obtain ⟨-, slot, x, inside, hx, ended⟩ := h.stirred complete
    have most := Lasting.le_longest (List.mem_of_getElem? hx)
    have least : longest r.lastings ≤ now - r.start := by
      refine Lasting.longest_le ?_
      intro y hy
      obtain ⟨j, hj⟩ := List.getElem?_of_mem hy
      have came : (w.replies)[j]? = some (some y.reply) := by
        rw [all?_eq_some_iff.1 all, same, whole, List.getElem?_map, List.getElem?_map, hj]
        rfl
      obtain ⟨y', hy', -, upto⟩ := h.come j y.reply came
      cases hj.symm.trans hy'
      simp only [Schedule.turn, order] at upto
      omega
    simp only [Schedule.turn, order] at ended
    simp only [Schedule.made, Schedule.takes, order, whole, true_and]
    omega
  | inTurn =>
    obtain ⟨-, slot, x, inside, -, -⟩ := h.stirred complete
    obtain ⟨k, size⟩ := Nat.exists_eq_add_one_of_ne_zero (Nat.ne_zero_of_lt inside)
    have succeed := h.succeed order (by omega : k < w.replies.length)
    have last : (∃ x, r.lastings[k]? = some x ∧ ¬ x.Succeeds) ∨ r.lastings.length ≤ k + 1 := by
      rcases last with fails | none_left
      · obtain ⟨reply, hreply, failure⟩ := List.any_eq_true.1 fails
        rw [same, List.mem_map] at hreply
        obtain ⟨y, hy, rfl⟩ := hreply
        have unsuccessful := y.isFailure_reply.1 failure
        obtain ⟨j, hj⟩ := List.getElem?_of_mem hy
        rw [List.getElem?_take] at hj
        split at hj
        · next within =>
          -- None of the calls before the last has failed.
          rcases Nat.lt_or_ge j k with before | at_last
          · refine absurd (succeed y ?_) unsuccessful
            exact List.mem_of_getElem? ((List.getElem?_take_of_lt before).trans hj)
          · obtain rfl : j = k := by omega
            exact .inl ⟨y, hj, unsuccessful⟩
        · cases hj
      · right
        rw [h.rest, size, List.drop_eq_nil_iff, ← length] at none_left
        exact none_left
    have made := Lasting.upToFailure_eq_take succeed last
    have time := h.now_eq order complete
    simp only [Schedule.turn, order] at time
    simp only [Schedule.made, Schedule.takes, order, made, size, true_and]
    rw [size] at time
    exact time

/-- The next call in turn is made when its turn comes. -/
theorem goesOn (h : w.Timed r alarms now stirred) {replies : List Reply}
    (all : all? w.replies = some replies) (well : ¬ replies.any isFailure = true)
    {call : Invocation} {rest : List Invocation} (left : w.rest = call :: rest)
    (set : ⟨now, .front, .start w.replies.length call⟩ ∈ alarms')
    (new : ∀ a ∈ alarms', a ∈ alarms ∨ a = ⟨now, .front, .start w.replies.length call⟩) :
    Timed r alarms' now stirred' ⟨w.deadline, w.replies ++ [none], rest⟩ := by
  have came := all?_eq_some_iff.1 all
  have complete : none ∉ w.replies := by
    rw [came]
    simp
  have cut := h.rest.symm.trans left
  have here : r.calls[w.replies.length]? = some call := by
    rw [← Nat.add_zero w.replies.length, ← List.getElem?_drop, cut, List.getElem?_cons_zero]
  -- Only calls that are made in turn leave any to be made later.
  have order : r.order = .inTurn := by
    cases order : r.order with
    | inTurn => rfl
    | together =>
      rw [h.whole order, List.drop_length] at cut
      cases cut
  have time := h.now_eq order complete
  have extended (slot : Nat) (inside : slot < w.replies.length) :
      (w.replies ++ [none])[slot]? = w.replies[slot]? := List.getElem?_append_left inside
  refine ⟨h.deadline, h.early, ?_, fun together => ?_, ?_, ?_, ?_, ?_, ?_⟩
  · rw [List.length_append, List.length_singleton, ← List.drop_drop, cut, List.drop_succ_cons,
      List.drop_zero]
  · rw [order] at together
    cases together
  · intro slot reply hreply
    rcases Nat.lt_or_ge slot w.replies.length with inside | outside
    · exact h.come slot reply ((extended slot inside).symm.trans hreply)
    · rw [List.getElem?_append_right outside] at hreply
      cases at_end : slot - w.replies.length <;> rw [at_end] at hreply <;> cases hreply
  · intro _ slot inside
    rw [List.length_append, List.length_singleton] at inside
    have before : slot < w.replies.length := by omega
    rw [extended slot before]
    have within : slot < replies.length := by
      rw [came, List.length_map] at before
      exact before
    have shown : w.replies[slot]? = some (some replies[slot]) := by simp [came]
    obtain ⟨x, hx, same, -⟩ := h.come slot _ shown
    refine ⟨x, hx, ?_, same ▸ shown⟩
    by_contra fails
    refine well (List.any_eq_true.2 ⟨_, List.getElem_mem within, ?_⟩)
    rw [same]
    exact x.isFailure_reply.2 fails
  · intro slot hnone
    rcases Nat.lt_or_ge slot w.replies.length with inside | outside
    · rw [extended slot inside] at hnone
      exact absurd (List.mem_of_getElem? hnone) complete
    · have at_end : slot = w.replies.length := by
        have := (List.getElem?_eq_some_iff.1 hnone).1
        rw [List.length_append, List.length_singleton] at this
        omega
      subst at_end
      exact ⟨_, set, .inl ⟨call, rfl⟩⟩
  · intro a ha
    rcases new a ha with old | rfl
    · exact h.scheduled a old
    · exact ⟨here, time⟩
  · intro none_missing
    exact absurd (List.mem_append_right _ (List.mem_singleton_self none)) none_missing

/-- Where the time is up before the alarm of any call goes off, the calls take that long. -/
theorem limit_le (h : w.Timed r alarms now stirred) (length : r.lastings.length = r.calls.length)
    (missing : none ∈ w.replies) (late : ∀ a ∈ alarms, r.deadline ≤ a.time) :
    r.limit ≤ r.takes := by
  obtain ⟨slot, hslot⟩ := List.getElem?_of_mem missing
  obtain ⟨a, ha, concerns⟩ := h.toCome slot hslot
  have scheduled := h.scheduled a ha
  have inside : slot < w.replies.length := (List.getElem?_eq_some_iff.1 hslot).1
  have whole (x : Lasting) (here : r.lastings[slot]? = some x) :
      r.turn slot + x.duration ≤ r.start + r.takes :=
    Schedule.turn_add_le here fun order => h.succeed order inside
  have after := late a ha
  unfold Schedule.deadline at after
  unfold Alarm.Scheduled at scheduled
  rcases concerns with ⟨call, signal⟩ | ⟨reply, signal⟩
  · rw [signal] at scheduled
    obtain ⟨here, time⟩ := scheduled
    have there : slot < r.lastings.length := by
      rw [length]
      exact (List.getElem?_eq_some_iff.1 here).1
    have := whole _ (List.getElem?_eq_getElem there)
    omega
  · rw [signal] at scheduled
    obtain ⟨x, here, -, time⟩ := scheduled
    have := whole x here
    omega

end Timed

end Waiting

end EventFlow
