import EventFlow.Engine.Agent
import EventFlow.Engine.Waiting
import EventFlow.Proofs.Engine.Trace

/-!
# Calls that are under way

Between the request of a program and its answer, `Underway` says how far the calls have come: which
handlers have been called, what the replies say so far, and which starts and ends of calls are still
to come. Each event keeps it (`Underway.of_begin`, `Underway.of_finish`), and whenever the waiting
ends, what has been called and replied is an answer in the sense of `Answers` (`follows_of_poll`,
`Underway.answers_late`). The waiting is that of `EventFlow.Engine.Waiting`, from `Waiting.start` to
the answer of `Waiting.poll`.
-/

set_option autoImplicit false

namespace EventFlow

/-- The signals that calls which are made now are still to give. -/
def starts (made : List (Nat × Invocation)) : List Signal := made.map fun c => .start c.1 c.2

/-! ## Calls made together -/

/-- How far one of several calls that are made together has come. -/
inductive Slot where
  /-- Its type has no handler. -/
  | refused (call : Invocation)
  | queued (call : Invocation)
  | running (s : Served)
  | ended (s : Served)

namespace Slot

/-- The call. -/
def call : Slot → Invocation
  | refused call => call
  | queued call => call
  | running s => s.call
  | ended s => s.call

/-- The reply, if it has come. -/
def reply? : Slot → Option Reply
  | refused call => some (Waiting.refusal call)
  | ended s => some s.reply
  | _ => none

/-- The handler that has been called. -/
def served? : Slot → Option Served
  | running s => some s
  | ended s => some s
  | _ => none

/-- What is still to come for the call in a slot. -/
def signal? (slot : Nat) : Slot → Option Signal
  | queued call => some (.start slot call)
  | running s => some (.finish slot s.reply)
  | _ => none

/-- The call is refused if its type has no handler, and only then. -/
def Fits (known : String → Bool) : Slot → Prop
  | refused call => known call.action.actionType = false
  | slot => known slot.call.action.actionType = true

/-- What is still to come for slots that are numbered from a number on. -/
def signals : Nat → List Slot → List Signal
  | _, [] => []
  | number, slot :: rest => (slot.signal? number).toList ++ signals (number + 1) rest

theorem signals_append (number : Nat) (first second : List Slot) :
    signals number (first ++ second) =
      signals number first ++ signals (number + first.length) second := by
  induction first generalizing number with
  | nil => simp [signals]
  | cons slot rest ih =>
    have : number + 1 + rest.length = number + (rest.length + 1) := by omega
    simp [signals, ih, this]

/-- A signal that is still to come belongs to one of the slots. -/
theorem exists_of_mem_signals {number : Nat} {slots : List Slot} {signal : Signal}
    (h : signal ∈ signals number slots) :
    ∃ before slot after, slots = before ++ slot :: after ∧
      slot.signal? (number + before.length) = some signal := by
  induction slots generalizing number with
  | nil => cases h
  | cons slot rest ih =>
    rcases List.mem_append.1 h with hhead | hrest
    · exact ⟨[], slot, rest, rfl, Option.mem_toList.1 hhead⟩
    · obtain ⟨before, other, after, rfl, hsignal⟩ := ih hrest
      refine ⟨slot :: before, other, after, rfl, ?_⟩
      rw [← hsignal, List.length_cons]
      congr 1
      omega

theorem signals_perm (slot : Slot) (before after : List Slot) :
    (signals 0 (before ++ slot :: after)).Perm ((slot.signal? before.length).toList ++
      (signals 0 before ++ signals (before.length + 1) after)) := by
  rw [signals_append, Nat.zero_add, signals]
  exact List.perm_append_comm_assoc _ _ _

/-- A signal comes, and its slot moves on: all other signals stay. -/
theorem signals_replace {slot : Slot} {before after : List Slot} {signal : Signal}
    {others : List Signal} (hsignal : slot.signal? before.length = some signal)
    (h : (signal :: others).Perm (signals 0 (before ++ slot :: after))) (slot' : Slot) :
    ((slot'.signal? before.length).toList ++ others).Perm
      (signals 0 (before ++ slot' :: after)) := by
  have hslot := h.trans (signals_perm slot before after)
  rw [hsignal] at hslot
  have hothers := hslot.cons_inv
  exact (hothers.append_left _).trans (signals_perm slot' before after).symm

theorem fits_replace {known : String → Bool} {slot : Slot} {before after : List Slot} (slot' : Slot)
    (h : ∀ other ∈ before ++ slot :: after, other.Fits known) (fit : slot'.Fits known) :
    ∀ other ∈ before ++ slot' :: after, other.Fits known := by
  simp only [List.mem_append, List.mem_cons] at h ⊢
  rintro other (hbefore | rfl | hafter)
  · exact h other (.inl hbefore)
  · exact fit
  · exact h other (.inr (.inr hafter))

/-- The slot of a call that is asked for. -/
def asked (known : String → Bool) (call : Invocation) : Slot :=
  if known call.action.actionType then .queued call else .refused call

theorem call_asked (known : String → Bool) (call : Invocation) :
    (asked known call).call = call := by
  unfold asked
  split <;> rfl

theorem reply?_asked (known : String → Bool) (call : Invocation) :
    (asked known call).reply? =
      if known call.action.actionType then none else some (Waiting.refusal call) := by
  unfold asked
  split <;> rfl

theorem served?_asked (known : String → Bool) (call : Invocation) :
    (asked known call).served? = none := by
  unfold asked
  split <;> rfl

theorem fits_asked (known : String → Bool) (call : Invocation) : (asked known call).Fits known := by
  unfold asked
  split
  · next h => exact h
  · next h => simpa [Fits] using h

theorem signals_asked (known : String → Bool) (number : Nat) (calls : List Invocation) :
    signals number (calls.map (asked known)) =
      starts (((calls.zipIdx number).filter fun c => known c.1.action.actionType).map fun c =>
        (c.2, c.1)) := by
  induction calls generalizing number with
  | nil => rfl
  | cons call rest ih =>
    rw [List.map_cons, signals, ih, List.zipIdx_cons]
    cases h : known call.action.actionType <;> simp [asked, h, signal?, starts]

/-- Slots of which none has anything to come have all their replies. -/
theorem together_of_all? {known : String → Bool} {slots : List Slot}
    {replies : List Reply} (fits : ∀ slot ∈ slots, slot.Fits known)
    (h : Waiting.all? (slots.map reply?) = some replies) :
    Together known (slots.map call) (slots.filterMap served?) replies := by
  induction slots generalizing replies with
  | nil =>
    cases h
    exact .nil
  | cons slot rest ih =>
    have fit := fits slot List.mem_cons_self
    have others : ∀ other ∈ rest, other.Fits known := fun other hother =>
      fits other (List.mem_cons_of_mem slot hother)
    cases slot with
    | refused call =>
      obtain ⟨found, hfound, rfl⟩ := Option.map_eq_some_iff.1 h
      exact .unknown fit (ih others hfound)
    | ended s =>
      obtain ⟨found, hfound, rfl⟩ := Option.map_eq_some_iff.1 h
      exact .known fit (ih others hfound)
    | queued call => cases h
    | running s => cases h

/-- The calls that have been made are among all the calls. -/
theorem exists_others (slots : List Slot) :
    ∃ others, ((slots.filterMap served?).map Served.call ++ others).Perm (slots.map call) := by
  induction slots with
  | nil => exact ⟨[], .nil⟩
  | cons slot rest ih =>
    obtain ⟨others, ih⟩ := ih
    cases slot with
    | refused call => exact ⟨call :: others, List.perm_middle.trans (ih.cons call)⟩
    | queued call => exact ⟨call :: others, List.perm_middle.trans (ih.cons call)⟩
    | running s => exact ⟨others, ih.cons s.call⟩
    | ended s => exact ⟨others, ih.cons s.call⟩

end Slot

/-! ## Calls made in turn -/

/-- The handlers that have been called all had one and have succeeded. -/
def Passed (known : String → Bool) (past : List Served) : Prop :=
  ∀ s ∈ past, known s.call.action.actionType = true ∧ s.Succeeds

theorem InTurn.of_passed {known : String → Bool} {past : List Served} {calls : List Invocation}
    {served : List Served} {replies : List Reply} (passed : Passed known past)
    (h : InTurn known calls served replies) :
    InTurn known (past.map Served.call ++ calls) (past ++ served)
      (past.map Served.reply ++ replies) := by
  induction past with
  | nil => exact h
  | cons s rest ih =>
    obtain ⟨hknown, succeeds⟩ := passed s List.mem_cons_self
    exact .next hknown succeeds
      (ih fun other hother => passed other (List.mem_cons_of_mem s hother))

namespace Waiting

theorem all?_map_some (replies : List Reply) : all? (replies.map some) = some replies := by
  induction replies with
  | nil => rfl
  | cons reply rest ih => simp [all?, ih]

theorem all?_append_none (replies : List Reply) : all? (replies.map some ++ [none]) = none := by
  induction replies with
  | nil => rfl
  | cons reply rest ih => simp [all?, ih]

theorem poll_of_none {known : String → Bool} {w : Waiting} (h : all? w.replies = none) :
    w.poll known = .pending w [] := by
  simp only [poll, h]

end Waiting

/-! ## The invariant -/

/-- `Underway known order calls served waiting signals`: the calls have been asked for, the handlers
that have been called are these, the program waits like this, and these signals are still to
come. -/
inductive Underway (known : String → Bool) :
    CallOrder → List Invocation → List Served → Waiting → List Signal → Prop
  | queued {past : List Served} {call : Invocation} (rest : List Invocation) (deadline : Option Nat)
      (passed : Passed known past) (h : known call.action.actionType = true) :
      Underway known .inTurn (past.map Served.call ++ call :: rest) past
        ⟨deadline, (past.map Served.reply).map some ++ [none], rest⟩ [.start past.length call]
  | running {past : List Served} {s : Served} (rest : List Invocation) (deadline : Option Nat)
      (passed : Passed known past) (h : known s.call.action.actionType = true) :
      Underway known .inTurn (past.map Served.call ++ s.call :: rest) (past ++ [s])
        ⟨deadline, (past.map Served.reply).map some ++ [none], rest⟩ [.finish past.length s.reply]
  | ended {past : List Served} {s : Served} (rest : List Invocation) (deadline : Option Nat)
      (passed : Passed known past) (h : known s.call.action.actionType = true) :
      Underway known .inTurn (past.map Served.call ++ s.call :: rest) (past ++ [s])
        ⟨deadline, (past.map Served.reply).map some ++ [some s.reply], rest⟩ []
  | together {slots : List Slot} {served : List Served} {signals : List Signal}
      (deadline : Option Nat) (fits : ∀ slot ∈ slots, slot.Fits known)
      (made : served.Perm (slots.filterMap Slot.served?))
      (toCome : signals.Perm (Slot.signals 0 slots)) :
      Underway known .together (slots.map Slot.call) served
        ⟨deadline, slots.map Slot.reply?, []⟩ signals

namespace Underway

variable {known : String → Bool} {order : CallOrder} {calls : List Invocation}
  {served : List Served} {w : Waiting} {signals : List Signal}

/-- The order in which signals come does not matter. -/
theorem of_perm {signals' : List Signal} (h : Underway known order calls served w signals)
    (perm : signals'.Perm signals) : Underway known order calls served w signals' := by
  cases h with
  | queued rest deadline passed h =>
    obtain rfl := List.perm_singleton.1 perm
    exact .queued rest deadline passed h
  | running rest deadline passed h =>
    obtain rfl := List.perm_singleton.1 perm
    exact .running rest deadline passed h
  | ended rest deadline passed h =>
    obtain rfl := perm.eq_nil
    exact .ended rest deadline passed h
  | together deadline fits made toCome => exact .together deadline fits made (perm.trans toCome)

/-- Only calls whose type has a handler are still to be started. -/
theorem known_of_start {slot : Nat} {call : Invocation}
    (h : Underway known order calls served w (.start slot call :: signals)) :
    known call.action.actionType = true := by
  cases h with
  | queued rest deadline passed h => exact h
  | together deadline fits made toCome =>
    obtain ⟨before, slot, after, rfl, hsignal⟩ :=
      Slot.exists_of_mem_signals (toCome.subset List.mem_cons_self)
    have fit := fits slot (by simp)
    cases slot <;> cases hsignal
    exact fit

/-- A handler is called, and will end. -/
theorem of_begin {slot : Nat} {s : Served}
    (h : Underway known order calls served w (.start slot s.call :: signals)) :
    Underway known order calls (served ++ [s]) w (.finish slot s.reply :: signals) := by
  cases h with
  | queued rest deadline passed h => exact .running rest deadline passed h
  | together deadline fits made toCome =>
    obtain ⟨before, found, after, rfl, hsignal⟩ :=
      Slot.exists_of_mem_signals (toCome.subset List.mem_cons_self)
    rw [Nat.zero_add] at hsignal
    have toCome' := Slot.signals_replace hsignal toCome (.running s)
    cases found <;> cases hsignal
    have fit : (Slot.queued s.call).Fits known := fits _ (by simp)
    have fits' := Slot.fits_replace (.running s) fits fit
    have made' : (served ++ [s]).Perm
        ((before ++ Slot.running s :: after).filterMap Slot.served?) := by
      simp only [List.filterMap_append, List.filterMap_cons, Slot.served?] at made ⊢
      exact (List.perm_append_singleton s served).trans
        ((made.cons s).trans List.perm_middle.symm)
    have started := Underway.together deadline fits' made' toCome'
    simpa [Slot.call, Slot.reply?, Slot.signal?] using started

/-- A call ends. -/
theorem of_finish {slot : Nat} {reply : Reply}
    (h : Underway known order calls served w (.finish slot reply :: signals)) :
    Underway known order calls served (w.fill slot reply) signals := by
  cases h with
  | @running past s rest deadline passed h =>
    have filled : Waiting.fill past.length s.reply
        ⟨deadline, (past.map Served.reply).map some ++ [none], rest⟩ =
          ⟨deadline, (past.map Served.reply).map some ++ [some s.reply], rest⟩ := by
      simp [Waiting.fill]
    rw [filled]
    exact .ended rest deadline passed h
  | together deadline fits made toCome =>
    obtain ⟨before, found, after, rfl, hsignal⟩ :=
      Slot.exists_of_mem_signals (toCome.subset List.mem_cons_self)
    rw [Nat.zero_add] at hsignal
    cases found with
    | running s =>
      have toCome' := Slot.signals_replace hsignal toCome (.ended s)
      cases hsignal
      have fit : (Slot.running s).Fits known := fits _ (by simp)
      have fits' := Slot.fits_replace (.ended s) fits fit
      have made' : served.Perm ((before ++ Slot.ended s :: after).filterMap Slot.served?) := by
        simpa [Slot.served?] using made
      have ended := Underway.together deadline fits' made' toCome'
      simpa [Slot.call, Slot.reply?, Slot.signal?, Waiting.fill] using ended
    | _ => cases hsignal

/-- When the time is up, the calls have been answered with nothing. -/
theorem answers_late (h : Underway known order calls served w signals) :
    Answers known order calls served none := by
  cases h with
  | queued rest deadline passed h =>
    refine .inTurnLate (List.prefix_append _ _) fun s hs => (passed s ?_).2
    exact List.dropLast_subset _ hs
  | running rest deadline passed h =>
    refine .inTurnLate ?_ fun s hs => (passed s ?_).2
    · simp
    · simpa using hs
  | ended rest deadline passed h =>
    refine .inTurnLate ?_ fun s hs => (passed s ?_).2
    · simp
    · simpa using hs
  | @together slots _ _ deadline fits made toCome =>
    obtain ⟨others, hothers⟩ := Slot.exists_others slots
    exact .togetherLate (((made.map Served.call).append_right others).trans hothers)

end Underway

/-! ## What comes of waiting -/

/-- `Follows known order calls served signals outcome`: the calls have been answered, or are under
way with those that are made now. -/
def Follows (known : String → Bool) (order : CallOrder) (calls : List Invocation)
    (served : List Served) (signals : List Signal) : Waiting.Outcome → Prop
  | .settled replies => Answers known order calls served (some replies)
  | .pending w made => Underway known order calls served w (starts made ++ signals)

section Follows

variable {known : String → Bool} {order : CallOrder} {calls : List Invocation}
  {served : List Served} {w : Waiting} {signals : List Signal}

/-- Where calls in turn go on after some that have succeeded. -/
theorem follows_of_passed {past : List Served} (rest : List Invocation) (deadline : Option Nat)
    (passed : Passed known past) :
    Follows known .inTurn (past.map Served.call ++ rest) past []
      (Waiting.poll known ⟨deadline, (past.map Served.reply).map some, rest⟩) := by
  have noFailure : ¬ (past.map Served.reply).any Waiting.isFailure = true := by
    rw [List.any_map, List.any_eq_true]
    rintro ⟨s, hs, hfails⟩
    exact (Served.isFailure_reply s).1 hfails (passed s hs).2
  simp only [Waiting.poll, Waiting.all?_map_some, if_neg noFailure]
  cases rest with
  | nil => simpa [Follows] using Answers.inTurn (InTurn.of_passed passed .nil)
  | cons call rest =>
    dsimp only
    split
    · next hknown => simpa [Follows, starts] using Underway.queued rest deadline passed hknown
    · next hunknown =>
      have refused := InTurn.unknown rest (by simpa using hunknown)
      simpa [Follows] using Answers.inTurn (InTurn.of_passed passed refused)

/-- Calls in turn end with the first that fails. -/
theorem poll_of_fails {past : List Served} {s : Served} (rest : List Invocation)
    (deadline : Option Nat) (fails : ¬ s.Succeeds) :
    Waiting.poll known ⟨deadline, (past.map Served.reply).map some ++ [some s.reply], rest⟩ =
      .settled (past.map Served.reply ++ [s.reply]) := by
  have replies : (past.map Served.reply).map some ++ [some s.reply] =
      (past.map Served.reply ++ [s.reply]).map some := by simp
  have failure : (past.map Served.reply ++ [s.reply]).any Waiting.isFailure = true := by
    rw [List.any_append, List.any_cons, (Served.isFailure_reply s).2 fails]
    simp
  rw [replies]
  simp only [Waiting.poll, Waiting.all?_map_some, if_pos failure]

/-- Calls under way are answered when their waiting settles, and stay under way until then. -/
theorem follows_of_poll (h : Underway known order calls served w signals) :
    Follows known order calls served signals (w.poll known) := by
  cases h with
  | queued rest deadline passed h =>
    rw [Waiting.poll_of_none (Waiting.all?_append_none _)]
    exact .queued rest deadline passed h
  | running rest deadline passed h =>
    rw [Waiting.poll_of_none (Waiting.all?_append_none _)]
    exact .running rest deadline passed h
  | @ended past s rest deadline passed h =>
    by_cases succeeds : s.Succeeds
    · have passed' : Passed known (past ++ [s]) := by
        simpa [Passed, or_imp, forall_and, h, succeeds] using passed
      simpa using follows_of_passed rest deadline passed'
    · rw [poll_of_fails rest deadline succeeds]
      exact .inTurn (InTurn.of_passed passed (.failed rest h succeeds))
  | @together slots _ _ deadline fits made toCome =>
    cases hall : Waiting.all? (slots.map Slot.reply?) with
    | none =>
      rw [Waiting.poll_of_none hall]
      exact .together deadline fits made toCome
    | some replies =>
      have settled :
          Waiting.poll known ⟨deadline, slots.map Slot.reply?, []⟩ = .settled replies := by
        simp only [Waiting.poll, hall]
        split <;> rfl
      rw [settled]
      exact .together (Slot.together_of_all? fits hall) made

/-- Calls that are asked for are answered at once, or under way from then on. -/
theorem follows_of_start (known : String → Bool) (order : CallOrder) (calls : List Invocation)
    (deadline : Option Nat) :
    Follows known order calls [] [] (Waiting.start known deadline order calls) := by
  cases order with
  | inTurn =>
    have none_passed : Passed known [] := by simp [Passed]
    exact follows_of_passed calls deadline none_passed
  | together =>
    let slots := calls.map (Slot.asked known)
    have fits : ∀ slot ∈ slots, slot.Fits known := by simp [slots, Slot.fits_asked]
    have same : slots.map Slot.call = calls := by
      simp [slots, Function.comp_def, Slot.call_asked]
    have unserved : slots.filterMap Slot.served? = [] := by
      simp [slots, List.filterMap_map, Slot.served?_asked]
    have replies : slots.map Slot.reply? = calls.map fun call =>
        if known call.action.actionType then none else some (Waiting.refusal call) := by
      simp [slots, Slot.reply?_asked]
    simp only [Waiting.start, ← replies]
    split
    · next found hfound =>
      have answered := Slot.together_of_all? fits hfound
      rw [same, unserved] at answered
      exact .together answered (.refl [])
    · have underway := Underway.together deadline fits (by rw [unserved]) (.refl _)
      rw [same, Slot.signals_asked] at underway
      simpa [Follows] using underway

end Follows

end EventFlow
