import EventFlow.Engine.Agent
import EventFlow.Proofs.Engine.Foresight

/-!
# Replies that come in time

While an agent waits for calls that have been made, each at its own time, `Waiting.InTime` says that
the replies which have come are those foreseen, none too early, and that for every other call an
alarm is set, at the time at which the call is made or ends. `Waiting.Foreseen` adds what the
program is going to be answered. This is kept while time passes and replies come, and when the
waiting ends, the program is answered as foreseen (`onward_poll`, `onward_start`): nothing that
others do comes between. The waiting begins with `Waiting.start` and is asked for an answer by
`Waiting.poll` (`EventFlow.Engine.Waiting`).
-/

set_option autoImplicit false

namespace EventFlow

variable {σ α : Type}

/-- A call that has been made, and when. -/
structure Made where
  call : Invocation
  time : Nat

/-- When the call ends. -/
def Made.ending (b : Behaviour) (c : Made) : Nat := c.time + b.duration c.call

/-- The alarm only wakes its owner, or belongs to one of the calls: it goes off when the call is
made, or when it ends, with the reply that is foreseen. -/
def Alarm.Fits (b : Behaviour) (known : String → Bool) (calls : List Made) (a : Alarm) : Prop :=
  match a.signal with
  | .wake => True
  | .start slot call => ∃ c, calls[slot]? = some c ∧ known c.call.action.actionType = true ∧
    call = c.call ∧ a.time = c.time
  | .finish slot reply => ∃ c, calls[slot]? = some c ∧ known c.call.action.actionType = true ∧
    reply = b.replyTo known c.call ∧ a.time = c.ending b

/-- The alarm belongs to the call in a slot. -/
def Alarm.Concerns (slot : Nat) (a : Alarm) : Prop :=
  (∃ call, a.signal = .start slot call) ∨ ∃ reply, a.signal = .finish slot reply

theorem Alarm.Concerns.not_wake {slot : Nat} {a : Alarm} (h : a.Concerns slot) :
    a.signal ≠ .wake := by
  rcases h with ⟨call, hsignal⟩ | ⟨reply, hsignal⟩ <;> rw [hsignal] <;> nofun

theorem Alarm.Concerns.eq {slot other : Nat} {a : Alarm} (h : a.Concerns slot)
    (h' : a.Concerns other) : slot = other := by
  rcases h with ⟨_, hsignal⟩ | ⟨_, hsignal⟩ <;> rcases h' with ⟨_, hother⟩ | ⟨_, hother⟩ <;>
    cases hsignal.symm.trans hother <;> rfl

/-- A call that an alarm belongs to has one when another is set that belongs to the same call as all
that are gone. -/
theorem Alarm.Concerns.exists_of_kept {alarms alarms' : List Alarm} {slot j : Nat} {a f : Alarm}
    (h : a.Concerns j) (ha : a ∈ alarms) (concerns : f.Concerns slot) (set : f ∈ alarms')
    (kept : ∀ a ∈ alarms, a.Concerns slot ∨ a ∈ alarms') : ∃ b ∈ alarms', b.Concerns j := by
  rcases kept a ha with own | still
  · exact ⟨f, set, own.eq h ▸ concerns⟩
  · exact ⟨a, still, h⟩

/-- An alarm goes off no later than the call ends that it belongs to. -/
theorem Alarm.Fits.time_le {b : Behaviour} {known : String → Bool} {calls : List Made} {a : Alarm}
    (h : a.Fits b known calls) {slot : Nat} (concerns : a.Concerns slot) {c : Made}
    (here : calls[slot]? = some c) : a.time ≤ c.ending b := by
  unfold Alarm.Fits at h
  rcases concerns with ⟨call, hsignal⟩ | ⟨reply, hsignal⟩
  · rw [hsignal] at h
    obtain ⟨d, hd, -, -, time⟩ := h
    cases here.symm.trans hd
    rw [time]
    exact Nat.le_add_right _ _
  · rw [hsignal] at h
    obtain ⟨d, hd, -, -, time⟩ := h
    cases here.symm.trans hd
    exact Nat.le_of_eq time

theorem Alarm.Fits.append {b : Behaviour} {known : String → Bool} {calls : List Made} {a : Alarm}
    (h : a.Fits b known calls) (more : List Made) : a.Fits b known (calls ++ more) := by
  have longer {slot : Nat} {c : Made} (hc : calls[slot]? = some c) :
      (calls ++ more)[slot]? = some c := by
    rw [List.getElem?_append_left (List.getElem?_eq_some_iff.1 hc).1, hc]
  unfold Alarm.Fits at h ⊢
  split
  · trivial
  · next slot call signal =>
    rw [signal] at h
    obtain ⟨c, hc, fit⟩ := h
    exact ⟨c, longer hc, fit⟩
  · next slot reply signal =>
    rw [signal] at h
    obtain ⟨c, hc, fit⟩ := h
    exact ⟨c, longer hc, fit⟩

namespace Waiting

theorem all?_eq_some_iff {replies : List (Option Reply)} {rs : List Reply} :
    all? replies = some rs ↔ replies = rs.map some := by
  refine ⟨fun h => ?_, fun h => by rw [h, all?_map_some]⟩
  induction replies generalizing rs with
  | nil =>
    cases h
    rfl
  | cons reply rest ih =>
    cases reply with
    | none => cases h
    | some reply =>
      obtain ⟨others, found, rfl⟩ := Option.map_eq_some_iff.1 h
      rw [ih found, List.map_cons]

theorem all?_eq_none_iff {replies : List (Option Reply)} :
    all? replies = none ↔ none ∈ replies := by
  induction replies with
  | nil => simp [all?]
  | cons reply rest ih => cases reply <;> simp [all?, ih]

theorem poll_of_last {known : String → Bool} {deadline : Option Nat}
    {replies : List (Option Reply)} {rs : List Reply} (all : all? replies = some rs) :
    poll known ⟨deadline, replies, []⟩ = .settled rs := by
  simp only [poll, all]
  split <;> rfl

/-- After a reply has come, it is in its slot, and all others are as before. -/
theorem came_of_set {replies : List (Option Reply)} {slot j : Nat} {reply other : Reply}
    (h : (replies.set slot (some reply))[j]? = some (some other)) :
    (slot = j ∧ other = reply) ∨ replies[j]? = some (some other) := by
  by_cases same : slot = j
  · subst same
    rw [List.getElem?_set_self'] at h
    obtain ⟨_, _, hset⟩ := Option.map_eq_some_iff.1 h
    cases hset
    exact .inl ⟨rfl, rfl⟩
  · rw [List.getElem?_set_ne same] at h
    exact .inr h

theorem missing_of_set {replies : List (Option Reply)} {slot j : Nat} {reply : Reply}
    (h : (replies.set slot (some reply))[j]? = some none) :
    slot ≠ j ∧ replies[j]? = some none := by
  by_cases same : slot = j
  · subst same
    rw [List.getElem?_set_self'] at h
    obtain ⟨_, _, hset⟩ := Option.map_eq_some_iff.1 h
    cases hset
  · rw [List.getElem?_set_ne same] at h
    exact ⟨same, h⟩

/-- The replies to calls, and the alarms that are set for them, at a time. -/
structure InTime (b : Behaviour) (known : String → Bool) (alarms : List Alarm) (now : Nat)
    (calls : List Made) (replies : List (Option Reply)) : Prop where
  length : replies.length = calls.length
  fits : ∀ a ∈ alarms, a.Fits b known calls
  come : ∀ (slot : Nat) (c : Made) (reply : Reply), calls[slot]? = some c →
    replies[slot]? = some (some reply) → reply = b.replyTo known c.call ∧
      (known c.call.action.actionType = true → c.ending b ≤ now)
  toCome : ∀ (slot : Nat) (c : Made), calls[slot]? = some c → replies[slot]? = some none →
    known c.call.action.actionType = true ∧ ∃ a ∈ alarms, a.Concerns slot

namespace InTime

variable {b : Behaviour} {known : String → Bool} {alarms alarms' : List Alarm} {now now' : Nat}
  {calls : List Made} {replies : List (Option Reply)}

theorem later (h : InTime b known alarms now calls replies) (after : now ≤ now') :
    InTime b known alarms now' calls replies where
  length := h.length
  fits := h.fits
  come slot c reply hc hreply :=
    ⟨(h.come slot c reply hc hreply).1, fun handled =>
      Nat.le_trans ((h.come slot c reply hc hreply).2 handled) after⟩
  toCome := h.toCome

/-- A reply comes at its time, and its alarm is gone. -/
theorem fill (h : InTime b known alarms now calls replies) {slot : Nat} {c : Made}
    (here : calls[slot]? = some c) (ending : c.ending b ≤ now)
    (fits : ∀ a ∈ alarms', a.Fits b known calls)
    (kept : ∀ a ∈ alarms, a.signal ≠ .wake → a.Concerns slot ∨ a ∈ alarms') :
    InTime b known alarms' now calls (replies.set slot (some (b.replyTo known c.call))) where
  length := List.length_set.trans h.length
  fits := fits
  come j d reply hd hreply := by
    rcases came_of_set hreply with ⟨rfl, rfl⟩ | before
    · cases here.symm.trans hd
      exact ⟨rfl, fun _ => ending⟩
    · exact h.come j d reply hd before
  toCome j d hd hreply := by
    obtain ⟨apart, before⟩ := missing_of_set hreply
    obtain ⟨handled, a, ha, concerns⟩ := h.toCome j d hd before
    exact ⟨handled, a, (kept a ha concerns.not_wake).resolve_left
      fun here => apart (here.eq concerns), concerns⟩

/-- A handler is called, and its call will end at its time. -/
theorem run (h : InTime b known alarms now calls replies)
    (fits : ∀ a ∈ alarms', a.Fits b known calls) {slot : Nat}
    (running : ∃ a ∈ alarms', a.Concerns slot)
    (kept : ∀ a ∈ alarms, a.signal ≠ .wake → a.Concerns slot ∨ a ∈ alarms') :
    InTime b known alarms' now calls replies where
  length := h.length
  fits := fits
  come := h.come
  toCome j d hd hreply := by
    obtain ⟨handled, a, ha, concerns⟩ := h.toCome j d hd hreply
    refine ⟨handled, ?_⟩
    rcases kept a ha concerns.not_wake with here | still
    · rw [← concerns.eq here] at running
      exact running
    · exact ⟨a, still, concerns⟩

/-- When all replies have come, they are those foreseen, and every call has ended. -/
theorem settled (h : InTime b known alarms now calls replies) {rs : List Reply}
    (all : Waiting.all? replies = some rs) :
    rs = calls.map (fun c => b.replyTo known c.call) ∧
      ∀ c ∈ calls, known c.call.action.actionType = true → c.ending b ≤ now := by
  obtain rfl := all?_eq_some_iff.1 all
  have length : rs.length = calls.length := (List.length_map _).symm.trans h.length
  have here {slot : Nat} {c : Made} (hc : calls[slot]? = some c) :
      ∃ reply, rs[slot]? = some reply ∧ (rs.map some)[slot]? = some (some reply) := by
    have inside : slot < rs.length := length ▸ (List.getElem?_eq_some_iff.1 hc).1
    exact ⟨rs[slot], List.getElem?_eq_getElem inside, by simp [inside]⟩
  refine ⟨List.ext_getElem? fun slot => ?_, fun c hc handled => ?_⟩
  · rw [List.getElem?_map]
    cases hc : calls[slot]? with
    | none =>
      have outside := List.getElem?_eq_none_iff.1 hc
      exact List.getElem?_eq_none_iff.2 (length ▸ outside)
    | some c =>
      obtain ⟨reply, hreply, come⟩ := here hc
      rw [hreply, Option.map_some, (h.come slot c reply hc come).1]
  · obtain ⟨slot, hslot⟩ := List.getElem?_of_mem hc
    obtain ⟨reply, -, come⟩ := here hslot
    exact (h.come slot c reply hslot come).2 handled

/-- As long as a reply is to come, its call has not ended. -/
theorem open_of_none (h : InTime b known alarms now calls replies)
    (due : ∀ a ∈ alarms, now ≤ a.time) (missing : none ∈ replies) :
    ∃ c ∈ calls, known c.call.action.actionType = true ∧ now ≤ c.ending b := by
  obtain ⟨slot, hslot⟩ := List.getElem?_of_mem missing
  have inside : slot < calls.length := h.length ▸ (List.getElem?_eq_some_iff.1 hslot).1
  have hc := List.getElem?_eq_getElem inside
  obtain ⟨handled, a, ha, concerns⟩ := h.toCome slot _ hc hslot
  exact ⟨_, List.getElem_mem inside, handled,
    Nat.le_trans (due a ha) ((h.fits a ha).time_le concerns hc)⟩

end InTime

end Waiting

/-! ## What a program is going to be answered -/

namespace Behaviour

variable {b : Behaviour} {known : String → Bool} {deadline : Option Nat} {now : Nat}

/-- A call that has ended before the time was up was not late, unless it was tied. -/
theorem isLate_of_ended {c : Made}
    (ended : known c.call.action.actionType = true → c.ending b ≤ now)
    (early : ∀ time, deadline = some time → now ≤ time)
    (untied : b.UntiedCall known (deadline.map (· - c.time)) c.call) :
    b.isLate known (deadline.map (· - c.time)) c.call = false := by
  cases handled : known c.call.action.actionType with
  | false => exact isLate_of_unknown handled
  | true =>
    refine Bool.eq_false_iff.2 fun late => ?_
    obtain ⟨left, hleft, le⟩ := (isLate_iff handled).1 late
    obtain ⟨time, rfl, rfl⟩ := Option.map_eq_some_iff.1 hleft
    have before := early time rfl
    have ending := ended handled
    unfold Made.ending at ending
    refine untied handled ?_
    rw [hleft]
    congr 1
    omega

/-- A call that ends when the time is up, or later, is late. -/
theorem isLate_of_le {c : Made} {time : Nat} (handled : known c.call.action.actionType = true)
    (le : time ≤ c.ending b) : b.isLate known (some (time - c.time)) c.call = true :=
  (isLate_iff handled).2 ⟨_, rfl, Nat.sub_le_iff_le_add'.2 le⟩

variable (b known)

/-- `Leads b known deadline calls rest answer`: these calls have been made and those will follow, so
that a program which waits until a deadline gets this answer. -/
inductive Leads (deadline : Option Nat) :
    List Made → List Invocation → Option (List Reply) → Prop
  | together (time : Nat) (calls : List Invocation)
      (untied : ∀ call ∈ calls, b.UntiedCall known (deadline.map (· - time)) call) :
      Leads deadline (calls.map fun call => ⟨call, time⟩) []
        (b.together known (deadline.map (· - time)) calls)
  | inTurn {past : List Made} {c : Made} (rest : List Invocation)
      (passed : ∀ d ∈ past,
        d.ending b ≤ c.time ∧ Waiting.isFailure (b.replyTo known d.call) = false)
      (handled : known c.call.action.actionType = true)
      (early : ∀ time, deadline = some time → c.time < time)
      (untied : b.UntiedInTurn known (deadline.map (· - c.time)) (c.call :: rest)) :
      Leads deadline (past ++ [c]) rest
        ((b.inTurn known (deadline.map (· - c.time)) (c.call :: rest)).map
          (past.map (fun d => b.replyTo known d.call) ++ ·))

variable {b known}

/-- If a call ends when the time is up, or later, the answer is that it was late. -/
theorem Leads.answer_of_late {time : Nat} {calls : List Made} {rest : List Invocation}
    {answer : Option (List Reply)} (h : b.Leads known (some time) calls rest answer) {c : Made}
    (hc : c ∈ calls) (handled : known c.call.action.actionType = true) (late : time ≤ c.ending b) :
    answer = none := by
  cases h with
  | together begun requests untied =>
    obtain ⟨call, hcall, rfl⟩ := List.mem_map.1 hc
    have someLate : requests.any (b.isLate known (some (time - begun))) = true :=
      List.any_eq_true.2 ⟨call, hcall, isLate_of_le handled late⟩
    exact if_pos someLate
  | @inTurn past d rest passed _ early untied =>
    rcases List.mem_append.1 hc with old | last
    · have := (passed c old).1
      have := early time rfl
      omega
    · rw [List.mem_singleton.1 last] at handled late
      have isLate : b.isLate known (some (time - d.time)) d.call = true :=
        isLate_of_le handled late
      simp [Behaviour.inTurn, isLate]

end Behaviour

namespace Waiting

/-- An agent waits and is going to get this answer. When all replies have come, something stirs it
before more time passes: `stirs time` says that it looks at the replies no later than at a time. -/
structure Foreseen (b : Behaviour) (known : String → Bool) (stirs : Nat → Prop)
    (alarms : List Alarm) (now : Nat) (calls : List Made) (answer : Option (List Reply))
    (w : Waiting) : Prop where
  inTime : InTime b known alarms now calls w.replies
  leads : b.Leads known w.deadline calls w.rest answer
  early : ∀ time, w.deadline = some time → now ≤ time
  stirred : none ∉ w.replies → ∃ c ∈ calls, stirs (c.ending b)

/-- Alarms are set for calls that are made now; of the others, only those that wake may come and
go. -/
structure Sets (alarms : List Alarm) (made : List (Nat × Invocation)) (now : Nat)
    (alarms' : List Alarm) : Prop where
  kept : ∀ a ∈ alarms, a.signal ≠ .wake → a ∈ alarms'
  new : ∀ a ∈ alarms', a.signal = .wake ∨ a ∈ alarms ∨
    ∃ slot call, (slot, call) ∈ made ∧ a.signal = .start slot call ∧ a.time = now
  set : ∀ slot call, (slot, call) ∈ made → ∃ a ∈ alarms', a.signal = .start slot call

/-- No call is made: alarms that wake may be taken away. -/
theorem Sets.nothing {alarms alarms' : List Alarm} {now : Nat}
    (kept : ∀ a ∈ alarms, a.signal ≠ .wake → a ∈ alarms') (old : ∀ a ∈ alarms', a ∈ alarms) :
    Sets alarms [] now alarms' where
  kept := kept
  new a ha := .inr (.inl (old a ha))
  set _ _ made := absurd made List.not_mem_nil

/-- What comes of waiting is the foreseen answer, or more waiting for it. -/
def Onward (b : Behaviour) (known : String → Bool) (alarms : List Alarm) (now : Nat)
    (deadline : Option Nat) (answer : Option (List Reply)) : Outcome → Prop
  | .settled replies => answer = some replies
  | .pending w made => w.deadline = deadline ∧
    ((∃ time, deadline = some time ∧ time ≤ now) → answer = none) ∧
    ((∀ time, deadline = some time → now < time) → ∀ stirs alarms', Sets alarms made now alarms' →
      ∃ calls, w.Foreseen b known stirs alarms' now calls answer)

section Onward

variable {b : Behaviour} {known : String → Bool} {stirs : Nat → Prop}
  {alarms : List Alarm} {now : Nat} {calls : List Made} {answer : Option (List Reply)} {w : Waiting}

theorem InTime.sets {alarms' : List Alarm} {replies : List (Option Reply)}
    (h : InTime b known alarms now calls replies) (sets : Sets alarms [] now alarms') :
    InTime b known alarms' now calls replies where
  length := h.length
  come := h.come
  fits a ha := by
    rcases sets.new a ha with wake | old | ⟨slot, call, made, -⟩
    · rw [Alarm.Fits, wake]
      trivial
    · exact h.fits a old
    · cases made
  toCome slot c hc hreply := by
    obtain ⟨handled, a, ha, concerns⟩ := h.toCome slot c hc hreply
    exact ⟨handled, a, sets.kept a ha concerns.not_wake, concerns⟩

/-- One more call is made. -/
theorem InTime.append {alarms' : List Alarm} {replies : List (Option Reply)} {call : Invocation}
    (h : InTime b known alarms now calls replies) (handled : known call.action.actionType = true)
    (sets : Sets alarms [(replies.length, call)] now alarms') :
    InTime b known alarms' now (calls ++ [⟨call, now⟩]) (replies ++ [none]) where
  length := by simp [h.length]
  fits a ha := by
    rcases sets.new a ha with wake | old | ⟨slot, other, made, signal, time⟩
    · rw [Alarm.Fits, wake]
      trivial
    · exact (h.fits a old).append _
    · cases List.mem_singleton.1 made
      rw [Alarm.Fits, signal]
      exact ⟨⟨call, now⟩, by simp [h.length], handled, rfl, time⟩
  come slot c reply hc hreply := by
    rcases Nat.lt_or_ge slot calls.length with inside | outside
    · rw [List.getElem?_append_left inside] at hc
      rw [List.getElem?_append_left (h.length ▸ inside)] at hreply
      exact h.come slot c reply hc hreply
    · rw [List.getElem?_append_right (h.length ▸ outside)] at hreply
      cases List.mem_singleton.1 (List.mem_of_getElem? hreply)
  toCome slot c hc hreply := by
    rcases Nat.lt_or_ge slot calls.length with inside | outside
    · rw [List.getElem?_append_left inside] at hc
      rw [List.getElem?_append_left (h.length ▸ inside)] at hreply
      obtain ⟨known, a, ha, concerns⟩ := h.toCome slot c hc hreply
      exact ⟨known, a, sets.kept a ha concerns.not_wake, concerns⟩
    · rw [List.getElem?_append_right outside] at hc
      cases List.mem_singleton.1 (List.mem_of_getElem? hc)
      have last : slot = replies.length := by
        have := (List.getElem?_eq_some_iff.1 hreply).1
        rw [List.length_append, List.length_singleton] at this
        have := h.length
        omega
      subst last
      obtain ⟨a, ha, signal⟩ := sets.set _ _ (List.mem_singleton_self _)
      exact ⟨handled, a, ha, .inl ⟨call, signal⟩⟩

/-- Where calls in turn go on after some that have succeeded. -/
theorem onward_passed {past : List Made} (rest : List Invocation) {deadline : Option Nat}
    (inTime : InTime b known alarms now past ((past.map fun d => b.replyTo known d.call).map some))
    (passed : ∀ d ∈ past, d.ending b ≤ now ∧ isFailure (b.replyTo known d.call) = false)
    (untied : b.UntiedInTurn known (deadline.map (· - now)) rest) :
    Onward b known alarms now deadline
      ((b.inTurn known (deadline.map (· - now)) rest).map
        (past.map (fun d => b.replyTo known d.call) ++ ·))
      (poll known ⟨deadline, (past.map fun d => b.replyTo known d.call).map some, rest⟩) := by
  have noFailure : ¬ (past.map fun d => b.replyTo known d.call).any isFailure = true := by
    rw [List.any_map, List.any_eq_true]
    rintro ⟨d, hd, fails⟩
    exact absurd ((passed d hd).2.symm.trans fails) nofun
  simp only [poll, all?_map_some, if_neg noFailure]
  cases rest with
  | nil => simp [Onward, Behaviour.inTurn]
  | cons call rest =>
    dsimp only
    split
    · next handled =>
      refine ⟨rfl, ?_, fun early stirs alarms' sets => ⟨past ++ [⟨call, now⟩], ?_, ?_, ?_, ?_⟩⟩
      · rintro ⟨time, rfl, late⟩
        have late : b.isLate known (some (time - now)) call = true :=
          (Behaviour.isLate_iff handled).2 ⟨_, rfl, by omega⟩
        simp [Behaviour.inTurn, late]
      · exact inTime.append handled sets
      · exact .inTurn rest passed handled early untied
      · exact fun time htime => Nat.le_of_lt (early time htime)
      · simp
    · next unhandled =>
      have unknown : known call.action.actionType = false := Bool.eq_false_iff.2 unhandled
      simp [Onward, Behaviour.inTurn, Behaviour.isLate_of_unknown unknown,
        Behaviour.replyTo_of_unknown unknown, isFailure, refusal, Except.isOk, Except.toBool]

/-- The calls that are made together are those whose type has a handler. -/
theorem mem_made {requests : List Invocation} {slot : Nat} {call : Invocation} :
    (slot, call) ∈ ((requests.zipIdx.filter fun c => known c.1.action.actionType).map fun c =>
        (c.2, c.1)) ↔
      requests[slot]? = some call ∧ known call.action.actionType = true := by
  simp [List.mem_map, List.mem_filter, List.mem_zipIdx_iff_getElem?]

/-- The replies that calls made together have before any of them ends. -/
def refusals (known : String → Bool) (requests : List Invocation) : List (Option Reply) :=
  requests.map fun call => if known call.action.actionType then none else some (refusal call)

theorem getElem?_refusals {requests : List Invocation} {slot : Nat} {call : Invocation}
    (here : requests[slot]? = some call) : (refusals known requests)[slot]? =
      some (if known call.action.actionType then none else some (refusal call)) := by
  rw [refusals, List.getElem?_map, here, Option.map_some]

theorem none_mem_refusals {requests : List Invocation} :
    none ∈ refusals known requests ↔
      ∃ call ∈ requests, known call.action.actionType = true := by
  simp [refusals]

/-- All replies have come where no call is made: they are the refusals. -/
theorem of_all?_refusals {requests : List Invocation} {replies : List Reply}
    (all : all? (refusals known requests) = some replies) :
    (∀ call ∈ requests, known call.action.actionType = false) ∧
      replies = requests.map (b.replyTo known) := by
  have unknown : ∀ call ∈ requests, known call.action.actionType = false := fun call hcall =>
    Bool.eq_false_iff.2 fun handled => by
      have missing := none_mem_refusals.2 ⟨call, hcall, handled⟩
      cases all.symm.trans (all?_eq_none_iff.2 missing)
  refine ⟨unknown, ?_⟩
  refine (List.map_inj_right fun _ _ => Option.some.inj).1
    ((all?_eq_some_iff.1 all).symm.trans ?_)
  rw [List.map_map]
  refine List.map_congr_left fun call hcall => ?_
  rw [if_neg (by simp [unknown call hcall]), Function.comp_apply,
    Behaviour.replyTo_of_unknown (unknown call hcall)]

/-- Calls are made together. -/
theorem InTime.together {alarms' : List Alarm} {requests : List Invocation}
    (quiet : ∀ a ∈ alarms, a.signal = .wake)
    (sets : Sets alarms ((requests.zipIdx.filter fun c => known c.1.action.actionType).map fun c =>
      (c.2, c.1)) now alarms') :
    InTime b known alarms' now (requests.map fun call => ⟨call, now⟩)
      (refusals known requests) where
  length := by simp [refusals]
  fits a ha := by
    have wakes (wake : a.signal = .wake) :
        a.Fits b known (requests.map fun call => ⟨call, now⟩) := by
      rw [Alarm.Fits, wake]
      trivial
    rcases sets.new a ha with wake | old | ⟨slot, call, made, signal, time⟩
    · exact wakes wake
    · exact wakes (quiet a old)
    · obtain ⟨here, handled⟩ := mem_made.1 made
      rw [Alarm.Fits, signal]
      exact ⟨⟨call, now⟩, by rw [List.getElem?_map, here]; rfl, handled, rfl, time⟩
  come slot c reply hc hreply := by
    rw [List.getElem?_map] at hc
    obtain ⟨call, here, rfl⟩ := Option.map_eq_some_iff.1 hc
    rw [getElem?_refusals here] at hreply
    split at hreply
    · cases hreply
    · next unhandled =>
      cases hreply
      exact ⟨(Behaviour.replyTo_of_unknown (Bool.eq_false_iff.2 unhandled)).symm,
        fun handled => absurd handled unhandled⟩
  toCome slot c hc hreply := by
    rw [List.getElem?_map] at hc
    obtain ⟨call, here, rfl⟩ := Option.map_eq_some_iff.1 hc
    rw [getElem?_refusals here] at hreply
    split at hreply
    · next handled =>
      obtain ⟨a, ha, signal⟩ := sets.set _ _ (mem_made.2 ⟨here, handled⟩)
      exact ⟨handled, a, ha, .inl ⟨call, signal⟩⟩
    · cases hreply

/-- Calls that are asked for are answered as foreseen. -/
theorem onward_start {order : CallOrder} {requests : List Invocation} {limit : Option Nat}
    (untied : b.Untied known limit order requests) (quiet : ∀ a ∈ alarms, a.signal = .wake) :
    Onward b known alarms now (limit.map (now + ·)) (b.answer known limit order requests)
      (start known (limit.map (now + ·)) order requests) := by
  have left : (limit.map (now + ·)).map (· - now) = limit := by cases limit <;> simp
  cases order with
  | inTurn =>
    have unasked : InTime b known alarms now [] [] :=
      ⟨rfl, fun a ha => by rw [Alarm.Fits, quiet a ha]; trivial, nofun, nofun⟩
    have onward : Onward b known alarms now (limit.map (now + ·)) _ _ :=
      onward_passed requests unasked nofun (by rw [left]; exact untied)
    rw [left] at onward
    simpa [Behaviour.answer, start] using onward
  | together =>
    simp only [start, Behaviour.answer, ← refusals.eq_1]
    split
    · next replies all =>
      obtain ⟨unknown, same⟩ := of_all?_refusals (b := b) all
      have onTime : ¬ requests.any (b.isLate known limit) = true := by
        rw [List.any_eq_true]
        rintro ⟨call, hcall, late⟩
        cases (Behaviour.isLate_of_unknown (unknown call hcall)).symm.trans late
      rw [Onward, Behaviour.together, if_neg onTime, same]
    · next missing =>
      obtain ⟨call, hcall, handled⟩ := none_mem_refusals.1 (all?_eq_none_iff.1 missing)
      refine ⟨rfl, ?_, fun early stirs alarms' sets =>
        ⟨requests.map fun call => ⟨call, now⟩, .together quiet sets, ?_, ?_, ?_⟩⟩
      · rintro ⟨time, htime, late⟩
        obtain ⟨ms, rfl, rfl⟩ := Option.map_eq_some_iff.1 htime
        have isLate : requests.any (b.isLate known (some ms)) = true :=
          List.any_eq_true.2 ⟨call, hcall,
            (Behaviour.isLate_iff handled).2 ⟨ms, rfl, by omega⟩⟩
        rw [Behaviour.together, if_pos isLate]
      · have leads : b.Leads known (limit.map (now + ·)) _ _ _ :=
          .together now requests (by rw [left]; exact untied)
        rw [left] at leads
        exact leads
      · exact fun time htime => Nat.le_of_lt (early time htime)
      · exact fun complete => absurd (all?_eq_none_iff.1 missing) complete

/-- The last of some calls in turn has ended: it has failed, or it goes on with the next. -/
theorem onward_last {past : List Made} {c : Made} (rest : List Invocation) {deadline : Option Nat}
    (inTime : InTime b known alarms now (past ++ [c])
      (((past ++ [c]).map fun d => b.replyTo known d.call).map some))
    (passed : ∀ d ∈ past, d.ending b ≤ now ∧ isFailure (b.replyTo known d.call) = false)
    (ending : c.ending b = now)
    (onTime : b.isLate known (deadline.map (· - c.time)) c.call = false)
    (untied : b.UntiedInTurn known (deadline.map (· - c.time)) (c.call :: rest)) :
    Onward b known alarms now deadline
      ((b.inTurn known (deadline.map (· - c.time)) (c.call :: rest)).map
        (past.map (fun d => b.replyTo known d.call) ++ ·))
      (poll known
        ⟨deadline, ((past ++ [c]).map fun d => b.replyTo known d.call).map some, rest⟩) := by
  cases fails : isFailure (b.replyTo known c.call) with
  | true =>
    have failure : ((past ++ [c]).map fun d => b.replyTo known d.call).any isFailure = true := by
      simp [fails]
    simp only [poll, all?_map_some, if_pos failure]
    simp [Onward, Behaviour.inTurn, onTime, fails]
  | false =>
    have left : (deadline.map (· - c.time)).map (· - b.duration c.call) =
        deadline.map (· - now) := by
      rw [Option.map_map, ← ending]
      congr 1
      funext time
      exact Nat.sub_sub _ _ _
    have passed' : ∀ d ∈ past ++ [c],
        d.ending b ≤ now ∧ isFailure (b.replyTo known d.call) = false := by
      intro d hd
      rcases List.mem_append.1 hd with old | last
      · exact passed d old
      · rw [List.mem_singleton.1 last]
        exact ⟨Nat.le_of_eq ending, fails⟩
    have onward := onward_passed rest inTime passed' (left ▸ untied.2 onTime fails)
    simpa [Behaviour.inTurn, onTime, fails, left, Option.map_map, Function.comp_def] using onward

/-- As long as a reply is to come, the agent goes on waiting. -/
theorem onward_waiting (h : w.Foreseen b known stirs alarms now calls answer)
    (due : ∀ a ∈ alarms, now ≤ a.time) (missing : none ∈ w.replies) :
    Onward b known alarms now w.deadline answer (w.poll known) := by
  rw [poll_of_none (all?_eq_none_iff.2 missing)]
  refine ⟨rfl, ?_, fun _ stirs alarms' sets => ⟨calls, h.inTime.sets sets, h.leads, h.early,
    fun complete => absurd missing complete⟩⟩
  rintro ⟨time, deadline, late⟩
  obtain ⟨c, hc, handled, ending⟩ := h.inTime.open_of_none due missing
  have leads := h.leads
  rw [deadline] at leads
  exact leads.answer_of_late hc handled (Nat.le_trans late ending)

/-- What comes of waiting is what is foreseen. -/
theorem onward_poll (h : w.Foreseen b known (now ≤ ·) alarms now calls answer)
    (due : ∀ a ∈ alarms, now ≤ a.time) :
    Onward b known alarms now w.deadline answer (w.poll known) := by
  cases all : all? w.replies with
  | none => exact onward_waiting h due (all?_eq_none_iff.1 all)
  | some rs =>
    obtain ⟨deadline, replies, rest⟩ := w
    obtain ⟨inTime, leads, early, stirred⟩ := h
    obtain ⟨rfl, ended⟩ := inTime.settled all
    obtain rfl := all?_eq_some_iff.1 all
    -- No call was late: all have ended by now.
    have onTime {c : Made} (hc : c ∈ calls)
        (untied : b.UntiedCall known (deadline.map (· - c.time)) c.call) :
        b.isLate known (deadline.map (· - c.time)) c.call = false :=
      Behaviour.isLate_of_ended (ended c hc) early untied
    cases leads with
    | together time requests untied =>
      have noneLate : ¬ requests.any (b.isLate known (deadline.map (· - time))) = true := by
        rw [List.any_eq_true]
        rintro ⟨call, hcall, late⟩
        have := onTime (List.mem_map_of_mem hcall) (untied call hcall)
        cases this.symm.trans late
      rw [poll_of_last all, Onward, Behaviour.together, if_neg noneLate, List.map_map]
      rfl
    | @inTurn past c rest passed handled before untied =>
      have last : c ∈ past ++ [c] := List.mem_append_right past (List.mem_singleton_self c)
      have started : c.time ≤ c.ending b := Nat.le_add_right _ _
      -- It ended just now: the agent was stirred before more time passed.
      have ending : c.ending b = now := by
        obtain ⟨d, hd, stirs⟩ := stirred (by simp)
        refine Nat.le_antisymm (ended c last handled) (Nat.le_trans stirs ?_)
        rcases List.mem_append.1 hd with old | same
        · exact Nat.le_trans (passed d old).1 started
        · exact Nat.le_of_eq (congrArg (Made.ending b) (List.mem_singleton.1 same))
      exact onward_last rest inTime
        (fun d hd => ⟨Nat.le_trans (passed d hd).1 (ending ▸ started), (passed d hd).2⟩)
        ending (onTime last untied.1) untied

end Onward

namespace Foreseen

variable {b : Behaviour} {known : String → Bool} {stirs stirs' : Nat → Prop}
  {alarms alarms' : List Alarm} {now now' : Nat} {calls : List Made}
  {answer : Option (List Reply)} {w : Waiting}

theorem later (h : w.Foreseen b known stirs alarms now calls answer) (after : now ≤ now')
    (early : ∀ time, w.deadline = some time → now' ≤ time) :
    w.Foreseen b known stirs alarms now' calls answer :=
  ⟨h.inTime.later after, h.leads, early, h.stirred⟩

/-- Alarms that wake come and go. -/
theorem sets (h : w.Foreseen b known stirs alarms now calls answer)
    (sets : Sets alarms [] now alarms') (stirring : ∀ time, stirs time → stirs' time) :
    w.Foreseen b known stirs' alarms' now calls answer where
  inTime := h.inTime.sets sets
  leads := h.leads
  early := h.early
  stirred complete :=
    have ⟨c, hc, stir⟩ := h.stirred complete
    ⟨c, hc, stirring _ stir⟩

/-- A reply comes at its time, and stirs the agent. -/
theorem fill (h : w.Foreseen b known stirs alarms now calls answer) {slot : Nat} {c : Made}
    (here : calls[slot]? = some c) (ending : c.ending b = now)
    (new : ∀ a ∈ alarms', a.signal = .wake ∨ a ∈ alarms)
    (kept : ∀ a ∈ alarms, a.signal ≠ .wake → a.Concerns slot ∨ a ∈ alarms')
    (stir : stirs' now) :
    (w.fill slot (b.replyTo known c.call)).Foreseen b known stirs' alarms' now calls answer where
  inTime := h.inTime.fill here (Nat.le_of_eq ending) (fun a ha => by
    rcases new a ha with wake | old
    · rw [Alarm.Fits, wake]
      trivial
    · exact h.inTime.fits a old) kept
  leads := h.leads
  early := h.early
  stirred _ := ⟨c, List.mem_of_getElem? here, ending ▸ stir⟩

/-- A handler is called, and an alarm is set for the end of its call. -/
theorem run (h : w.Foreseen b known stirs alarms now calls answer) {slot : Nat} {c : Made}
    (here : calls[slot]? = some c) (handled : known c.call.action.actionType = true) {f : Alarm}
    (signal : f.signal = .finish slot (b.replyTo known c.call)) (time : f.time = c.ending b)
    (new : ∀ a ∈ alarms', a = f ∨ a ∈ alarms) (set : f ∈ alarms')
    (kept : ∀ a ∈ alarms, a.signal ≠ .wake → a.Concerns slot ∨ a ∈ alarms')
    (stirring : ∀ time, stirs time → stirs' time) :
    w.Foreseen b known stirs' alarms' now calls answer where
  inTime := h.inTime.run (fun a ha => by
    rcases new a ha with rfl | old
    · rw [Alarm.Fits, signal]
      exact ⟨c, here, handled, rfl, time⟩
    · exact h.inTime.fits a old) ⟨f, set, .inr ⟨_, signal⟩⟩ kept
  leads := h.leads
  early := h.early
  stirred complete :=
    have ⟨c, hc, stir⟩ := h.stirred complete
    ⟨c, hc, stirring _ stir⟩

end Foreseen

end Waiting

end EventFlow
