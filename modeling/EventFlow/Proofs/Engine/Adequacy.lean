import EventFlow.Engine.Machine
import EventFlow.Proofs.Engine.Underway

/-!
# The machine performs programs

What `Program.Performs` says a program may do is what it does on a machine. `Stands` ties an agent
to the program that it has begun with: what it has done so far, together with whatever its next
program may do, is something that the first program may do. Every step of a scene keeps this
(`Front.next`), so a machine that runs a program in front comes to a result that the program may
have, and calls exactly the handlers that the program then has called (`performs_of_await`). The
machine's steps are those of `Scene.next`, and `Machine.await` runs a program in front
(`EventFlow.Engine.Machine`).
-/

set_option autoImplicit false

namespace EventFlow

open Program (Performs)

variable {σ α β : Type}

/-! ## Signals of an owner -/

/-- What an alarm says to an owner, unless it only wakes it. -/
def Alarm.signalTo? (owner : Owner) (a : Alarm) : Option Signal :=
  if a.owner = owner then
    match a.signal with
    | .wake => none
    | signal => some signal
  else none

/-- An alarm that is put into its place is one more. -/
theorem Alarm.insert_perm (a : Alarm) (alarms : List Alarm) :
    (a.insert alarms).Perm (a :: alarms) := by
  induction alarms with
  | nil => exact .refl _
  | cons b rest ih =>
    rw [Alarm.insert]
    split
    · exact .refl _
    · exact (ih.cons b).trans (.swap a b rest)

namespace Machine

/-- The starts and ends of calls that are still to come for an owner. -/
def signals (owner : Owner) (m : Machine σ) : List Signal :=
  m.alarms.filterMap (Alarm.signalTo? owner)

/-- An alarm that is set is one more signal for its owner. -/
theorem signals_setAlarm (owner : Owner) (a : Alarm) (m : Machine σ) :
    ((m.setAlarm a).signals owner).Perm ((a.signalTo? owner).toList ++ m.signals owner) := by
  have h := (a.insert_perm m.alarms).filterMap (Alarm.signalTo? owner)
  rw [List.filterMap_cons] at h
  unfold signals setAlarm
  cases hsignal : a.signalTo? owner <;> simpa [hsignal] using h

/-- A limit that is waited for gives no signal of a call. -/
theorem signals_setTimer (owner other : Owner) (time : Nat) (m : Machine σ) :
    ((m.setTimer owner time).signals other).Perm (m.signals other) := by
  unfold setTimer
  split
  · exact .refl _
  · next i =>
    have h := signals_setAlarm other ⟨time, .background i, .wake⟩ m
    have : (⟨time, .background i, .wake⟩ : Alarm).signalTo? other = none := by
      simp [Alarm.signalTo?]
    simpa [this] using h

/-- Calls that are made are signals to begin them. -/
theorem signals_makeCalls (owner : Owner) (made : List (Nat × Invocation)) (m : Machine σ) :
    ((m.makeCalls owner made).signals owner).Perm (starts made ++ m.signals owner) := by
  induction made generalizing m with
  | nil => exact .refl _
  | cons c rest ih =>
    obtain ⟨slot, call⟩ := c
    have h := signals_setAlarm owner ⟨m.time, owner, .start slot call⟩ m
    have own : (⟨m.time, owner, .start slot call⟩ : Alarm).signalTo? owner =
        some (.start slot call) := by simp [Alarm.signalTo?]
    rw [own] at h
    refine (ih _).trans ((h.append_left _).trans ?_)
    exact List.perm_middle

/-- Calls are no signals to others. -/
theorem signals_makeCalls_of_ne {owner other : Owner} (apart : owner ≠ other)
    (made : List (Nat × Invocation)) (m : Machine σ) :
    ((m.makeCalls owner made).signals other).Perm (m.signals other) := by
  induction made generalizing m with
  | nil => exact .refl _
  | cons c rest ih =>
    obtain ⟨slot, call⟩ := c
    have h := signals_setAlarm other ⟨m.time, owner, .start slot call⟩ m
    have none_own : (⟨m.time, owner, .start slot call⟩ : Alarm).signalTo? other = none := by
      simp [Alarm.signalTo?, apart]
    rw [none_own] at h
    exact (ih _).trans h

/-- Who cancels everything has no signals left. -/
theorem signals_cancel (owner : Owner) (m : Machine σ) : (m.cancel owner).signals owner = [] := by
  simp only [signals, cancel, List.filterMap_eq_nil_iff, List.mem_filter, decide_eq_true_eq]
  intro a ⟨_, apart⟩
  rw [Alarm.signalTo?, if_neg apart]

/-- To cancel takes no signals from others. -/
theorem signals_cancel_of_ne {owner other : Owner} (apart : owner ≠ other) (m : Machine σ) :
    (m.cancel owner).signals other = m.signals other := by
  simp only [signals, cancel, List.filterMap_filter]
  congr 1
  funext a
  by_cases own : a.owner = owner
  · simp [Alarm.signalTo?, own, apart]
  · simp [own]

/-- What an agent does leaves the signals of all others as they are. -/
theorem signals_advance_of_ne (engine : Engine σ) {owner other : Owner} (apart : owner ≠ other)
    (p : Program α) (m : Machine σ) :
    ((advance engine owner p m).2.signals other).Perm (m.signals other) := by
  induction p generalizing m with
  | done result => exact .refl _
  | clock next ih => exact ih _ _
  | collections next ih => exact ih _ m
  | record e next ih => exact ih _
  | sleep ms next ih =>
    rw [advance]
    split
    · exact ih m
    · exact signals_setTimer owner other _ m
  | call limit order calls next ih =>
    rw [advance]
    split
    · exact ih _ m
    · split
      · exact ih _ m
      · next made ms _ =>
        exact (signals_setTimer owner other _ _).trans (signals_makeCalls_of_ne apart _ m)
      · exact signals_makeCalls_of_ne apart _ m

/-- Who goes on leaves the signals of others. -/
theorem signals_resume_of_ne (engine : Engine σ) {owner other : Owner} (apart : owner ≠ other)
    (expired : Bool) (agent : Agent α) (m : Machine σ) :
    ((resume engine owner expired agent m).2.signals other).Perm (m.signals other) := by
  cases agent with
  | ready p => exact signals_advance_of_ne engine apart p m
  | asleep wakeTime p =>
    rw [resume]
    split
    · exact signals_advance_of_ne engine apart p m
    · exact .refl _
  | calling waiting next =>
    have cancelled := signals_cancel_of_ne apart m
    rw [resume]
    split
    · exact (signals_advance_of_ne engine apart _ _).trans (.of_eq cancelled)
    · split
      · exact (signals_advance_of_ne engine apart _ _).trans (.of_eq cancelled)
      · exact signals_makeCalls_of_ne apart _ m
  | finished result => exact .refl _

end Machine

/-! ## What an agent has done -/

/-- What a program has done leads to another: whatever the other may do, the first may do after
that. -/
def Program.Leads (known : String → Bool) (p : Program α) (effects : List Effect)
    (p' : Program α) : Prop :=
  ∀ later a, Performs known p' later a → Performs known p (effects ++ later) a

/-- A program leads to itself. -/
theorem Program.Leads.refl (known : String → Bool) (p : Program α) : Leads known p [] p :=
  fun _ _ h => h

/-- A program that has come to another goes on with an effect of it. -/
theorem Program.Leads.after {known : String → Bool} {p middle last : Program α}
    {effects : List Effect} {effect : Effect} (h : Leads known p effects middle)
    (goesOn : ∀ later a, Performs known last later a → Performs known middle (effect :: later) a) :
    Leads known p (effects ++ [effect]) last := by
  intro later a hlast
  rw [List.append_assoc]
  exact h _ _ (goesOn later a hlast)

/-- `Stands known p served agent signals`: an agent that has begun with a program has had these
handlers called, and these signals are still to come for it. -/
inductive Stands (known : String → Bool) (p : Program α) :
    List Served → Agent α → List Signal → Prop
  | ready {effects : List Effect} {p' : Program α} (leads : p.Leads known effects p') :
      Stands known p (Effect.calls effects) (.ready p') []
  | asleep {effects : List Effect} {p' : Program α} (wakeTime : Nat)
      (leads : p.Leads known effects p') :
      Stands known p (Effect.calls effects) (.asleep wakeTime p') []
  | calling {effects : List Effect} {limit : Option Nat} {order : CallOrder}
      {calls : List Invocation} {next : Option (List Reply) → Program α} {served : List Served}
      {w : Waiting} {signals : List Signal}
      (leads : p.Leads known effects (.call limit order calls next))
      (underway : Underway known order calls served w signals) :
      Stands known p (Effect.calls effects ++ served) (.calling w next) signals
  | finished {effects : List Effect} {a : α} (performs : Performs known p effects a) :
      Stands known p (Effect.calls effects) (.finished a) []

/-- How an agent stands does not depend on the order of its signals. -/
theorem Stands.of_perm {known : String → Bool} {p : Program α} {served : List Served}
    {agent : Agent α} {signals signals' : List Signal} (h : Stands known p served agent signals)
    (perm : signals'.Perm signals) : Stands known p served agent signals' := by
  cases h with
  | ready leads =>
    obtain rfl := perm.eq_nil
    exact .ready leads
  | asleep wakeTime leads =>
    obtain rfl := perm.eq_nil
    exact .asleep wakeTime leads
  | calling leads underway => exact .calling leads (underway.of_perm perm)
  | finished performs =>
    obtain rfl := perm.eq_nil
    exact .finished performs

/-- Only calls whose type has a handler are still to be started. -/
theorem Stands.known_of_start {known : String → Bool} {p : Program α} {served : List Served}
    {agent : Agent α} {slot : Nat} {call : Invocation} {signals : List Signal}
    (h : Stands known p served agent (.start slot call :: signals)) :
    known call.action.actionType = true := by
  cases h with
  | calling leads underway => exact underway.known_of_start

/-- A handler is called for an agent, and will end. -/
theorem Stands.of_begin {known : String → Bool} {p : Program α} {served : List Served}
    {agent : Agent α} {slot : Nat} {s : Served} {signals : List Signal}
    (h : Stands known p served agent (.start slot s.call :: signals)) :
    Stands known p (served ++ [s]) agent (.finish slot s.reply :: signals) := by
  cases h with
  | calling leads underway =>
    rw [List.append_assoc]
    exact .calling leads underway.of_begin

/-- A reply comes to an agent. -/
theorem Stands.of_finish {known : String → Bool} {p : Program α} {served : List Served}
    {agent : Agent α} {slot : Nat} {reply : Reply} {signals : List Signal}
    (h : Stands known p served agent (.finish slot reply :: signals)) :
    Stands known p served (agent.fill slot reply) signals := by
  cases h with
  | calling leads underway => exact .calling leads underway.of_finish

namespace Machine

variable {engine : Engine σ} {owner : Owner} {p : Program α}

/-- An answer to calls leads on. -/
theorem leads_of_answers {known : String → Bool} {effects : List Effect} {limit : Option Nat}
    {order : CallOrder} {calls : List Invocation} {next : Option (List Reply) → Program α}
    {served : List Served} {answer : Option (List Reply)}
    (leads : p.Leads known effects (.call limit order calls next))
    (answered : Answers known order calls served answer) :
    p.Leads known (effects ++ [.called served]) (next answer) :=
  leads.after fun _ _ h => .call answered h

/-- Where a program comes to when it goes on until it has to wait. -/
theorem stands_advance {effects : List Effect} {p' : Program α} {m : Machine σ}
    (leads : p.Leads engine.handlers.contains effects p') (quiet : m.signals owner = []) :
    Stands engine.handlers.contains p (Effect.calls effects) (advance engine owner p' m).1
      ((advance engine owner p' m).2.signals owner) := by
  -- An agent that goes on is not waiting for calls, so no signal may be left over for it (`quiet`).
  induction p' generalizing effects m with
  | done result =>
    have performs := leads [] result (.done result)
    rw [List.append_nil] at performs
    rw [advance, quiet]
    exact .finished performs
  | clock next ih =>
    have quiet' : ({ m with supply := m.supply.now.2 } : Machine σ).signals owner = [] := quiet
    have leads' := leads.after fun _ _ => .clock m.supply.now.1
    simpa [advance] using ih m.supply.now.1 leads' quiet'
  | collections next ih =>
    have leads' := leads.after fun _ _ => .collections m.store.collections
    simpa [advance] using ih m.store.collections leads' quiet
  | record e next ih =>
    have quiet' : (m.change engine.disk (·.record e)).2.signals owner = [] := quiet
    have leads' := leads.after fun _ _ => .record e
    simpa [advance] using ih leads' quiet'
  | sleep ms next ih =>
    have leads' := leads.after fun _ _ => .sleep ms
    rw [advance]
    split
    · simpa using ih leads' quiet
    · have still := signals_setTimer owner owner (m.time + Sleep.lasting ms) m
      rw [quiet] at still
      simpa using (Stands.asleep (m.time + Sleep.lasting ms) leads').of_perm still
  | call limit order calls next ih =>
    have follows := follows_of_start engine.handlers.contains order calls
      (limit.map (m.time + ·))
    rw [advance]
    cases hstart : Waiting.start engine.handlers.contains (limit.map (m.time + ·)) order calls with
    | settled replies =>
      rw [hstart] at follows
      simpa using ih _ (leads_of_answers leads follows) quiet
    | pending w made =>
      rw [hstart] at follows
      have called := signals_makeCalls owner made m
      rw [quiet] at called
      have stands := Stands.calling leads follows
      rw [List.append_nil] at stands
      dsimp only
      split
      · simpa using ih _ (leads_of_answers leads follows.answers_late) quiet
      · next ms _ =>
        exact stands.of_perm ((signals_setTimer owner owner (m.time + ms) _).trans called)
      · exact stands.of_perm called

/-- An agent that goes on still stands at its program. -/
theorem stands_resume {served : List Served} {agent : Agent α} {m : Machine σ} (expired : Bool)
    (h : Stands engine.handlers.contains p served agent (m.signals owner)) :
    Stands engine.handlers.contains p served (resume engine owner expired agent m).1
      ((resume engine owner expired agent m).2.signals owner) := by
  generalize hsignals : m.signals owner = signals at h
  cases h with
  | ready leads => exact stands_advance leads hsignals
  | asleep wakeTime leads =>
    rw [resume]
    split
    · exact stands_advance leads hsignals
    · rw [hsignals]
      exact .asleep wakeTime leads
  | @calling effects limit order calls next served w _ leads underway =>
    have follows := follows_of_poll underway
    rw [resume]
    cases hpoll : w.poll engine.handlers.contains with
    | settled replies =>
      rw [hpoll] at follows
      simpa using stands_advance (leads_of_answers leads follows) (signals_cancel owner m)
    | pending w' made =>
      rw [hpoll] at follows
      dsimp only
      split
      · simpa using stands_advance (leads_of_answers leads underway.answers_late)
          (signals_cancel owner m)
      · have called := signals_makeCalls owner made m
        rw [hsignals] at called
        exact (Stands.calling leads follows).of_perm called
  | finished performs =>
    rw [resume, hsignals]
    exact .finished performs

end Machine

/-! ## What happens in a scene -/

/-- The handlers that are called for the agent in front when an alarm goes off. -/
def Alarm.served (engine : Engine σ) (m : Machine σ) (a : Alarm) : List Served :=
  match a.owner, a.signal with
  | .front, .start _ call =>
    match Assoc.find? call.action.actionType engine.handlers with
    | some handler => [⟨call, (handler call m.supply m.world).reply⟩]
    | none => []
  | _, _ => []

namespace Scene

/-- The handlers that the next thing that happens calls for the agent in front. -/
def served (engine : Engine σ) (s : Scene σ β) : List Served :=
  if (s.woken && s.isRoundOver) || s.isDue then []
  else match s.machine.alarms with
    | [] => []
    | a :: _ => a.served engine s.machine

/-- `Front engine p served s`: the agent in front of a scene has begun with a program, and these
handlers have been called for it. -/
def Front (engine : Engine σ) (p : Program β) (served : List Served) (s : Scene σ β) : Prop :=
  Stands engine.handlers.contains p served s.front (s.machine.signals .front)

variable {engine : Engine σ} {p : Program β} {served : List Served} {s : Scene σ β}

/-- To wake somebody changes nothing about how the agent in front stands. -/
theorem Front.wake (h : s.Front engine p served) (owner : Owner) :
    (s.wake owner).Front engine p served := by
  cases owner with
  | front => exact h
  | background i =>
    unfold Scene.wake
    dsimp only
    split
    · exact h
    · exact h.of_perm (Machine.signals_setAlarm .front ⟨s.machine.time, .background i, .wake⟩ _)

/-- A reply to an agent of the background is nothing to the one in front. -/
theorem Front.deliver_background (h : s.Front engine p served) (i slot : Nat) (reply : Reply) :
    (s.deliver (.background i) slot reply).Front engine p served := by
  have filled : ({ s with machine := { s.machine with
      agents := s.machine.agents.modify i (·.fill slot reply) } } : Scene σ β).Front engine p
        served := h
  exact filled.wake (.background i)

/-- A reply comes to the agent in front. -/
theorem front_deliver {slot : Nat} {reply : Reply}
    (h : Stands engine.handlers.contains p served s.front
      (.finish slot reply :: s.machine.signals .front)) :
    (s.deliver .front slot reply).Front engine p served := by
  have filled : ({ s with front := s.front.fill slot reply } : Scene σ β).Front engine p served :=
    h.of_finish
  exact filled.wake .front

/-- A call of an agent of the background is nothing to the one in front. -/
theorem Front.begin_background (h : s.Front engine p served) (i slot : Nat) (call : Invocation) :
    (s.begin engine (.background i) slot call).Front engine p served := by
  unfold Scene.begin
  split
  · exact h.deliver_background i slot _
  · next handler _ =>
    have started : ({ s with machine := { s.machine with
        world := (handler call s.machine.supply s.machine.world).world,
        supply := (handler call s.machine.supply s.machine.world).supply } } : Scene σ β).Front
          engine p served := h
    dsimp only
    split
    · exact started.deliver_background i slot _
    · exact Stands.of_perm started (Machine.signals_setAlarm .front ⟨_, .background i, _⟩ _)

/-- A call of the agent in front is started: its handler is called. -/
theorem front_begin {time slot : Nat} {call : Invocation}
    (h : Stands engine.handlers.contains p served s.front
      (.start slot call :: s.machine.signals .front)) :
    (s.begin engine .front slot call).Front engine p
      (served ++ (⟨time, .front, .start slot call⟩ : Alarm).served engine s.machine) := by
  have known : (Assoc.find? call.action.actionType engine.handlers).isSome = true :=
    h.known_of_start
  cases hhandler : Assoc.find? call.action.actionType engine.handlers with
  | none =>
    rw [hhandler] at known
    cases known
  | some handler =>
    let m : Machine σ := { s.machine with
      world := (handler call s.machine.supply s.machine.world).world,
      supply := (handler call s.machine.supply s.machine.world).supply }
    have itself : (⟨time, .front, .start slot call⟩ : Alarm).served engine s.machine =
        [⟨call, (handler call s.machine.supply s.machine.world).reply⟩] := by
      simp [Alarm.served, hhandler]
    rw [itself]
    simp only [Scene.begin, hhandler]
    split
    · exact front_deliver (s := { s with machine := m }) h.of_begin
    · exact h.of_begin.of_perm (Machine.signals_setAlarm .front ⟨_, .front, _⟩ m)

/-- An agent of the background that goes on is nothing to the one in front. -/
theorem Front.resumeBackground (h : s.Front engine p served) (i : Nat) :
    (s.resumeBackground engine i).Front engine p served := by
  unfold Scene.resumeBackground
  split
  · exact h
  · next agent _ =>
    have apart : Owner.background i ≠ .front := by simp
    exact Stands.of_perm h (Machine.signals_resume_of_ne engine apart false agent s.machine)

/-- An alarm goes off. -/
theorem front_goOff {a : Alarm}
    (h : Stands engine.handlers.contains p served s.front
      ((a.signalTo? .front).toList ++ s.machine.signals .front)) :
    (s.goOff engine a).Front engine p (served ++ a.served engine s.machine) := by
  obtain ⟨time, owner, signal⟩ := a
  cases owner with
  | front =>
    cases signal with
    | wake => simpa [Front, goOff, Alarm.served, Alarm.signalTo?] using h
    | start slot call => exact front_begin h
    | finish slot reply => simpa [goOff, Alarm.served] using front_deliver h
  | background i =>
    have nothing : (⟨time, .background i, signal⟩ : Alarm).served engine s.machine = [] := by
      simp [Alarm.served]
    have h' : s.Front engine p served := by simpa [Front, Alarm.signalTo?] using h
    rw [nothing, List.append_nil]
    cases signal with
    | wake => exact h'.resumeBackground i
    | start slot call => exact h'.begin_background i slot call
    | finish slot reply => exact h'.deliver_background i slot reply

/-- After the next alarm the agent in front stands as its program says, with one call more served if
the alarm ended one. -/
theorem Front.tick {a : Alarm} {rest : List Alarm} (h : s.Front engine p served)
    (halarms : s.machine.alarms = a :: rest) :
    ((s.tick engine).getD s).Front engine p (served ++ a.served engine s.machine) := by
  have signals : s.machine.signals .front =
      (a.signalTo? .front).toList ++ rest.filterMap (Alarm.signalTo? .front) := by
    rw [Machine.signals, halarms, List.filterMap_cons]
    cases a.signalTo? .front <;> rfl
  let t : Scene σ β := Scene.atTime a.time { s with
    machine := { s.machine with alarms := rest },
    turns := if s.isRoundOver then 1 else s.turns + 1 }
  have ticks : s.tick engine = some (t.goOff engine a) := by
    unfold Scene.tick
    rw [halarms]
  rw [Front, signals] at h
  rw [ticks]
  exact front_goOff (s := t) h

/-- Whatever happens next, the agent in front still stands at its program. -/
theorem Front.next (h : s.Front engine p served) :
    (s.next engine).Front engine p (served ++ s.served engine) := by
  unfold Scene.next Scene.served
  by_cases looks : (s.woken && s.isRoundOver) = true
  · rw [if_pos looks, if_pos (by simp [looks]), List.append_nil]
    exact Machine.stands_resume false h
  · rw [if_neg looks]
    by_cases due : s.isDue = true
    · rw [if_pos due, if_pos (by simp [due]), List.append_nil]
      exact Machine.stands_resume (m := (s.atTime _).machine) true h
    · rw [if_neg due, if_neg (by simp [looks, due])]
      cases halarms : s.machine.alarms with
      | nil => simpa [Scene.tick, halarms] using h
      | cons a rest => exact h.tick halarms

/-- The handlers that are called for the agent in front until it has ended. -/
def calls (engine : Engine σ) (s : Scene σ β) : List Served :=
  match _h : s.front.result? with
  | some _ => []
  | none => s.served engine ++ calls engine (s.next engine)
termination_by before_wellFounded.wrap s
decreasing_by exact next_before engine ‹_›

/-- When the agent in front has ended, it has done what its program may do. -/
theorem Front.run (h : s.Front engine p served) :
    ∃ effects, Performs engine.handlers.contains p effects (s.run engine).1 ∧
      Effect.calls effects = served ++ s.calls engine := by
  induction s using Scene.run.induct engine generalizing served with
  | case1 s result hresult =>
    have ended : s.front = .finished result := by
      cases hfront : s.front <;> simp_all [Agent.result?]
    have run : s.run engine = (result, s.machine) := by
      rw [Scene.run]
      split <;> simp_all
    have none_called : s.calls engine = [] := by
      rw [calls]
      split <;> simp_all
    -- The signals are no variable, and an agent that has ended only stands with none of them.
    rw [Front, ended] at h
    generalize s.machine.signals .front = signals at h
    cases h with
    | finished performs => exact ⟨_, by rwa [run], by rw [none_called, List.append_nil]⟩
  | case2 s hresult ih =>
    have run : s.run engine = (s.next engine).run engine := by
      rw [Scene.run]
      split <;> simp_all
    have first_called : s.calls engine = s.served engine ++ (s.next engine).calls engine := by
      rw [calls]
      split <;> simp_all
    obtain ⟨effects, performs, hcalls⟩ := ih h.next
    refine ⟨effects, by rwa [run], ?_⟩
    rw [hcalls, first_called, List.append_assoc]

end Scene

/-- The handlers that are called for a program that a machine runs in front. -/
def Machine.calls (engine : Engine σ) (p : Program β) (m : Machine σ) : List Served :=
  let (front, m) := advance engine .front p (m.cancel .front)
  Scene.calls engine ⟨m, front, false, 0⟩

/-- A machine that runs a program in front comes to a result that the program may have, and calls
the handlers that the program then has called. -/
theorem performs_of_await (engine : Engine σ) (p : Program β) (m : Machine σ) :
    ∃ effects, Performs engine.handlers.contains p effects (Machine.await engine p m).1 ∧
      Effect.calls effects = Machine.calls engine p m := by
  have stands := Machine.stands_advance (.refl engine.handlers.contains p)
    (Machine.signals_cancel .front m)
  exact Scene.Front.run (s := ⟨_, _, false, 0⟩) stands

end EventFlow
