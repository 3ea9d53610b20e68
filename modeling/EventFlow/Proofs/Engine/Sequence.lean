import EventFlow.Proofs.Engine.Interleaving

/-!
# One program after another

An agent that performs two programs, one after the other, does first what the first does alone, and
then what the second does alone from there (`Machine.await_bind`): every step of a scene is the same
step whatever its agent in front has to do later (`Scene.next_followed`), and an agent that has
ended leaves no alarm behind (`Scene.Rested`). The runs are those of `Machine.await`, in
`EventFlow.Engine.Machine`.
-/

set_option autoImplicit false

namespace EventFlow

variable {σ α β : Type} {engine : Engine σ}

namespace Agent

/-- The agent with another program after its own. -/
def followed (f : α → Program β) : Agent α → Agent β
  | ready p => .ready (p.bind f)
  | asleep wakeTime p => .asleep wakeTime (p.bind f)
  | calling waiting next => .calling waiting fun answer => (next answer).bind f
  | finished result => .ready (f result)

/-- Whether the agent waits for calls. -/
def isCalling : Agent α → Bool
  | calling _ _ => true
  | _ => false

/-- A reply does not end a call by itself; that is seen when the agent goes on. -/
theorem isCalling_fill (slot : Nat) (reply : Reply) (agent : Agent α) :
    (agent.fill slot reply).isCalling = agent.isCalling := by
  cases agent <;> rfl

/-- An agent with something left to do behind its program waits for the same time. -/
@[simp] theorem due_followed (f : α → Program β) (agent : Agent α) :
    (agent.followed f).due = agent.due := by
  cases agent <;> rfl

@[simp] theorem fill_followed (f : α → Program β) (slot : Nat) (reply : Reply) (agent : Agent α) :
    (agent.followed f).fill slot reply = (agent.fill slot reply).followed f := by
  cases agent <;> rfl

@[simp] theorem result?_followed (f : α → Program β) (agent : Agent α) :
    (agent.followed f).result? = none := by
  cases agent <;> rfl

end Agent

/-! ## Going on -/

namespace Machine

/-- An agent that has ended goes on with another program, and one that has not will. -/
def goOn (engine : Engine σ) (owner : Owner) (f : α → Program β) :
    Agent α × Machine σ → Agent β × Machine σ
  | (.finished result, m) => advance engine owner (f result) m
  | (agent, m) => (agent.followed f, m)

/-- A program with something behind it goes as far as it goes alone, and then on. -/
theorem advance_bind (owner : Owner) (f : α → Program β) (p : Program α) (m : Machine σ) :
    advance engine owner (p.bind f) m = goOn engine owner f (advance engine owner p m) := by
  induction p generalizing m with
  | done result => rfl
  | clock next ih => exact ih _ _
  | collections next ih => exact ih _ m
  | record e next ih => exact ih _
  | sleep ms next ih =>
    rw [Program.bind, advance, advance]
    split
    · exact ih m
    · rfl
  | call limit order calls next ih =>
    rw [Program.bind, advance, advance]
    cases Waiting.start engine.handlers.contains (limit.map (m.time + ·)) order calls with
    | settled replies => exact ih _ m
    | pending waiting made =>
      rcases limit with _ | _ | ms
      · rfl
      · exact ih _ m
      · rfl

/-- An agent with something behind its program is resumed as if there were nothing, and goes on from
there. -/
theorem resume_followed (owner : Owner) (f : α → Program β) (expired : Bool) {agent : Agent α}
    (going : agent.result? = none) (m : Machine σ) :
    resume engine owner expired (agent.followed f) m =
      goOn engine owner f (resume engine owner expired agent m) := by
  cases agent with
  | ready p => exact advance_bind owner f p m
  | asleep wakeTime p =>
    rw [Agent.followed, resume, resume]
    split
    · exact advance_bind owner f p m
    · rfl
  | calling waiting next =>
    rw [Agent.followed, resume, resume]
    cases waiting.poll engine.handlers.contains with
    | settled replies => exact advance_bind owner f _ _
    | pending waiting made =>
      dsimp only
      split
      · exact advance_bind owner f _ _
      · rfl
  | finished result => cases going

end Machine

/-! ## Scenes -/

namespace Scene

variable {s : Scene σ α}

/-- The scene with another program after that of the agent in front. -/
def followed (f : α → Program β) (s : Scene σ α) : Scene σ β :=
  ⟨s.machine, s.front.followed f, s.woken, s.turns⟩

/-- The scene in which the agent in front goes on with another program if it has ended. -/
def goOn (engine : Engine σ) (f : α → Program β) (s : Scene σ α) : Scene σ β :=
  let (front, m) := Machine.goOn engine .front f (s.front, s.machine)
  ⟨m, front, s.woken, s.turns⟩

/-- As long as the first program is under way, the scene is that of the first with the second behind
it. -/
theorem goOn_of_going (f : α → Program β) (going : s.front.result? = none) :
    s.goOn engine f = s.followed f := by
  unfold goOn followed
  cases front : s.front with
  | finished result =>
    rw [front] at going
    cases going
  | _ => rfl

/-- What the scene does is the same with something behind the agent in front: to wake somebody is
one case. -/
theorem wake_followed (f : α → Program β) (owner : Owner) (s : Scene σ α) :
    (s.followed f).wake owner = (s.wake owner).followed f := by
  cases owner with
  | front => rfl
  | background i =>
    by_cases awake : s.machine.alarms.any (Alarm.wakes (.background i) s.machine.time) = true
    · rw [show s.wake (.background i) = s from if_pos awake]
      exact if_pos awake
    · rw [show s.wake (.background i) = { s with
        machine := s.machine.setAlarm ⟨s.machine.time, .background i, .wake⟩ } from if_neg awake]
      exact if_neg awake

/-- A reply is delivered alike with something behind the agent in front. -/
theorem deliver_followed (f : α → Program β) (owner : Owner) (slot : Nat) (reply : Reply)
    (s : Scene σ α) :
    (s.followed f).deliver owner slot reply = (s.deliver owner slot reply).followed f := by
  unfold deliver
  dsimp only
  rw [← wake_followed]
  cases owner with
  | front => simp [followed]
  | background i => rfl

/-- A handler is called alike with something behind the agent in front. -/
theorem begin_followed (f : α → Program β) (owner : Owner) (slot : Nat) (call : Invocation)
    (s : Scene σ α) :
    (s.followed f).begin engine owner slot call = (s.begin engine owner slot call).followed f := by
  unfold begin
  cases Assoc.find? call.action.actionType engine.handlers with
  | none => exact deliver_followed f owner slot _ s
  | some handler =>
    dsimp only [followed]
    split
    · exact deliver_followed f owner slot _
        { s with machine := { s.machine with
          world := (handler call s.machine.supply s.machine.world).world,
          supply := (handler call s.machine.supply s.machine.world).supply } }
    · rfl

/-- An alarm goes off alike with something behind the agent in front. -/
theorem goOff_followed (f : α → Program β) (a : Alarm) (s : Scene σ α) :
    (s.followed f).goOff engine a = (s.goOff engine a).followed f := by
  obtain ⟨time, owner, signal⟩ := a
  cases signal with
  | wake =>
    cases owner with
    | front => rfl
    | background i =>
      simp only [goOff, resumeBackground, followed]
      split <;> rfl
  | start slot call => exact begin_followed f owner slot call s
  | finish slot reply => exact deliver_followed f owner slot reply s

/-- To wake somebody does not touch the agent in front. -/
theorem front_of_wake (owner : Owner) (s : Scene σ α) : (s.wake owner).front = s.front := by
  cases owner with
  | front => rfl
  | background i =>
    simp only [wake]
    split <;> rfl

/-- A reply touches the agent in front by filling a slot, if at all. -/
theorem front_of_deliver (owner : Owner) (slot : Nat) (reply : Reply) (s : Scene σ α) :
    (s.deliver owner slot reply).front = s.front ∨
      (s.deliver owner slot reply).front = s.front.fill slot reply := by
  unfold deliver
  dsimp only
  rw [front_of_wake]
  cases owner with
  | front => exact .inr rfl
  | background i => exact .inl rfl

/-- A handler that is called touches the agent in front by filling a slot, if at all. -/
theorem front_of_begin (owner : Owner) (slot : Nat) (call : Invocation) (s : Scene σ α) :
    (s.begin engine owner slot call).front = s.front ∨
      ∃ reply, (s.begin engine owner slot call).front = s.front.fill slot reply := by
  unfold begin
  split
  · exact (front_of_deliver owner slot _ s).imp_right fun filled => ⟨_, filled⟩
  · dsimp only
    split
    · exact (front_of_deliver owner slot _ { s with machine := _ }).imp_right
        fun filled => ⟨_, filled⟩
    · exact .inl rfl

/-- An alarm that goes off brings at most a reply to the agent in front. -/
theorem front_of_goOff (a : Alarm) (s : Scene σ α) :
    (s.goOff engine a).front = s.front ∨
      ∃ slot reply, (s.goOff engine a).front = s.front.fill slot reply := by
  obtain ⟨time, owner, signal⟩ := a
  cases signal with
  | wake =>
    cases owner with
    | front => exact .inl rfl
    | background i =>
      simp only [goOff, resumeBackground]
      split <;> exact .inl rfl
  | start slot call =>
    exact (front_of_begin owner slot call s).imp_right fun filled => ⟨slot, filled⟩
  | finish slot reply =>
    exact (front_of_deliver owner slot reply s).imp_right fun filled => ⟨slot, reply, filled⟩

/-- The next alarm is the same with something behind the agent in front. -/
theorem tick_followed (f : α → Program β) (s : Scene σ α) :
    (s.followed f).tick engine = (s.tick engine).map (followed f) := by
  unfold tick
  cases alarms : s.machine.alarms with
  | nil =>
    rw [show (s.followed f).machine.alarms = [] from alarms]
    rfl
  | cons a rest =>
    rw [show (s.followed f).machine.alarms = a :: rest from alarms]
    exact congrArg some (goOff_followed f a
      (atTime a.time { s with
        machine := { s.machine with alarms := rest }
        turns := if s.isRoundOver then 1 else s.turns + 1 }))

/-- The next alarm touches the agent in front by filling a slot, if at all. -/
theorem front_of_tick {t : Scene σ α} (ticks : s.tick engine = some t) :
    t.front = s.front ∨ ∃ slot reply, t.front = s.front.fill slot reply := by
  unfold tick at ticks
  split at ticks
  · cases ticks
  · cases ticks
    exact front_of_goOff _ _

/-- No alarm ends the agent in front: only it can do that. -/
theorem result?_tick {t : Scene σ α} (ticks : s.tick engine = some t) :
    t.front.result? = s.front.result? := by
  rcases front_of_tick ticks with same | ⟨slot, reply, filled⟩
  · rw [same]
  · rw [filled, Agent.result?_fill]

theorem isDue_followed (f : α → Program β) (s : Scene σ α) : (s.followed f).isDue = s.isDue := by
  simp only [isDue, followed, Agent.due_followed]

/-- When the agent in front goes on it comes to the end of the first program, or is under way in it.
-/
theorem resumeFront_followed (f : α → Program β) (expired : Bool) (going : s.front.result? = none) :
    (s.followed f).resumeFront engine expired = (s.resumeFront engine expired).goOn engine f := by
  simp only [resumeFront, followed, Machine.resume_followed .front f expired going, goOn]

/-- What happens next does not depend on what the agent in front will do when it has ended. -/
theorem next_followed (f : α → Program β) (going : s.front.result? = none) :
    (s.followed f).next engine = (s.next engine).goOn engine f := by
  unfold next
  rw [isDue_followed, tick_followed]
  by_cases looks : (s.woken && s.isRoundOver) = true
  · rw [if_pos looks, if_pos (show ((s.followed f).woken && (s.followed f).isRoundOver) = true
      from looks)]
    exact resumeFront_followed f false going
  · rw [if_neg looks, if_neg (show ¬ ((s.followed f).woken && (s.followed f).isRoundOver) = true
      from looks)]
    by_cases due : s.isDue = true
    · have same : (s.followed f).expire engine =
          ((s.atTime (s.front.due.getD 0)).followed f).resumeFront engine true := by
        rw [expire, followed, Agent.due_followed]
        rfl
      rw [if_pos due, if_pos due, same]
      exact resumeFront_followed f true going
    · rw [if_neg due, if_neg due]
      cases ticks : s.tick engine with
      | none => exact (goOn_of_going f going).symm
      | some t => exact (goOn_of_going f ((result?_tick ticks).trans going)).symm

/-! ## At rest -/

/-- The agent in front has set no alarm unless it waits for calls, and when it has ended nothing has
happened since. -/
structure Rested (s : Scene σ α) : Prop where
  unset : s.front.isCalling = false → s.machine.alarmsOf .front = []
  ended : s.front.result?.isSome = true → s.woken = false ∧ s.turns = 0

end Scene

namespace Machine

/-- A program that goes on sets no alarm of the agent in front unless it has to wait for calls. -/
theorem unset_advance (p : Program α) {m : Machine σ} (unset : m.alarmsOf .front = [])
    (free : (advance engine .front p m).1.isCalling = false) :
    (advance engine .front p m).2.alarmsOf .front = [] := by
  induction p generalizing m with
  | done result => exact unset
  | clock next ih => exact ih _ unset free
  | collections next ih => exact ih _ unset free
  | record e next ih => exact ih unset free
  | sleep ms next ih =>
    rw [advance] at free ⊢
    split
    · next now =>
      rw [if_pos now] at free
      exact ih unset free
    · exact unset
  | call limit order calls next ih =>
    rw [advance] at free ⊢
    cases starts : Waiting.start engine.handlers.contains (limit.map (m.time + ·)) order calls with
    | settled replies =>
      rw [starts] at free
      exact ih _ unset free
    | pending waiting made =>
      rw [starts] at free
      rcases limit with _ | _ | ms
      · cases free
      · exact ih _ unset free
      · cases free

/-- Where the agent in front has set no alarm there is nothing to cancel. -/
theorem cancel_of_unset {m : Machine σ} (unset : m.alarmsOf .front = []) : m.cancel .front = m := by
  have kept : m.alarms.filter (fun a => decide (a.owner ≠ .front)) = m.alarms := by
    refine List.filter_eq_self.2 fun a ha => decide_eq_true fun own => ?_
    have mine : a ∈ m.alarmsOf .front := mem_alarmsOf.2 ⟨ha, own⟩
    rw [unset] at mine
    cases mine
  rw [cancel, kept]

/-- An agent in front that does not wait for calls has no alarms left. -/
theorem unset_resume (expired : Bool) {agent : Agent α} {m : Machine σ}
    (unset : agent.isCalling = false → m.alarmsOf .front = [])
    (free : (resume engine .front expired agent m).1.isCalling = false) :
    (resume engine .front expired agent m).2.alarmsOf .front = [] := by
  cases agent with
  | ready p => exact unset_advance p (unset rfl) free
  | asleep wakeTime p =>
    rw [resume] at free ⊢
    split
    · next now =>
      rw [if_pos now] at free
      exact unset_advance p (unset rfl) free
    · exact unset rfl
  | calling waiting next =>
    rw [resume] at free ⊢
    cases polls : waiting.poll engine.handlers.contains with
    | settled replies =>
      rw [polls] at free
      exact unset_advance _ (alarmsOf_cancel .front m) free
    | pending waiting' made =>
      rw [polls] at free
      dsimp only at free ⊢
      split
      · next now =>
        rw [if_pos now] at free
        exact unset_advance _ (alarmsOf_cancel .front m) free
      · next later =>
        rw [if_neg later] at free
        cases free
  | finished result => exact unset rfl

end Machine

namespace Scene

variable {s : Scene σ α}

/-- A scene that has just begun is at rest. -/
theorem rested_start (p : Program α) (m : Machine σ) :
    Rested ⟨(Machine.advance engine .front p (m.cancel .front)).2,
      (Machine.advance engine .front p (m.cancel .front)).1, false, 0⟩ where
  unset := Machine.unset_advance p (Machine.alarmsOf_cancel .front m)
  ended _ := ⟨rfl, rfl⟩

/-- The agent in front leaves the scene at rest when it goes on. -/
theorem rested_resumeFront (expired : Bool)
    (unset : s.front.isCalling = false → s.machine.alarmsOf .front = []) :
    (s.resumeFront engine expired).Rested where
  unset := Machine.unset_resume expired unset
  ended _ := ⟨rfl, rfl⟩

/-- No alarm that goes off sets one for an agent in front that does not wait for calls. -/
theorem unset_tick {t : Scene σ α} (h : s.Rested) (ticks : s.tick engine = some t)
    (free : t.front.isCalling = false) : t.machine.alarmsOf .front = [] := by
  have before : s.front.isCalling = false := by
    rcases front_of_tick ticks with same | ⟨slot, reply, filled⟩
    · rwa [same] at free
    · rwa [filled, Agent.isCalling_fill] at free
  have unset := h.unset before
  unfold tick at ticks
  split at ticks
  · cases ticks
  · next a rest alarms =>
    cases ticks
    have left : Machine.alarmsOf .front { s.machine with alarms := rest } = [] := by
      rw [Machine.alarmsOf, alarms, List.filter_cons] at unset
      split at unset
      · cases unset
      · exact unset
    cases own : a.owner with
    | front =>
      have mine : a ∈ s.machine.alarmsOf .front :=
        Machine.mem_alarmsOf.2 ⟨alarms ▸ List.mem_cons_self, own⟩
      rw [unset] at mine
      cases mine
    | background i =>
      rw [machine_goOff_background own]
      exact ((Machine.acts_onMachine_goOff own _).spares.alarms .front Owner.noConfusion).trans left

/-- A scene stays at rest, whatever comes next. -/
theorem Rested.next (h : s.Rested) (going : s.front.result? = none) : (s.next engine).Rested := by
  unfold Scene.next
  split
  · exact rested_resumeFront false h.unset
  · split
    · exact rested_resumeFront true h.unset
    · cases ticks : s.tick engine with
      | none => exact h
      | some t =>
        have still : t.front.result? = none := (result?_tick ticks).trans going
        refine ⟨?_, fun ended => ?_⟩
        · exact unset_tick h ticks
        · rw [Option.getD_some, still] at ended
          cases ended

/-- A scene whose agent in front has ended is over. -/
theorem run_of_finished {result : α} (front : s.front = .finished result) :
    s.run engine = (result, s.machine) := by
  rw [run]
  split
  · next other ended =>
    rw [front] at ended
    cases ended
    rfl
  · next going =>
    rw [front] at going
    cases going

/-- A scene whose agent in front is under way is over when the next one is. -/
theorem run_of_going (going : s.front.result? = none) :
    s.run engine = (s.next engine).run engine := by
  rw [run]
  split
  · next ended => cases going.symm.trans ended
  · rfl

/-- Running a scene whose agent has another program after its own is running the scene, and then the
other program. -/
theorem run_goOn (f : α → Program β) (h : s.Rested) :
    (s.goOn engine f).run engine = (s.run engine).2.await engine (f (s.run engine).1) := by
  induction s using Scene.run.induct engine with
  | case1 s result ended =>
    have front : s.front = .finished result := by
      cases front : s.front <;> simp_all [Agent.result?]
    obtain ⟨woken, turns⟩ := h.ended (by rw [ended]; rfl)
    have unset := h.unset (by rw [front]; rfl)
    rw [run_of_finished front, Machine.await, Machine.cancel_of_unset unset, goOn, front, woken,
      turns]
    rfl
  | case2 s going ih =>
    rw [run_of_going going, goOn_of_going f going, run_of_going (Agent.result?_followed f s.front),
      next_followed f going]
    exact ih (h.next going)

end Scene

namespace Machine

/-- Two programs that a machine runs in front one after the other are one that is followed by the
other. -/
theorem await_bind (engine : Engine σ) (p : Program α) (f : α → Program β) (m : Machine σ) :
    m.await engine (p >>= f) =
      (m.await engine p).2.await engine (f (m.await engine p).1) := by
  change Scene.run engine ⟨(advance engine .front (p.bind f) (m.cancel .front)).2,
    (advance engine .front (p.bind f) (m.cancel .front)).1, false, 0⟩ = _
  rw [advance_bind]
  exact Scene.run_goOn f (Scene.rested_start p m)

/-- A program that does not have to wait has its result at once. -/
theorem await_of_advance {p : Program α} {m m' : Machine σ} {result : α}
    (ends : advance engine .front p (m.cancel .front) = (.finished result, m')) :
    m.await engine p = (result, m') := by
  rw [await, ends]
  exact Scene.run_of_finished rfl

end Machine

end EventFlow
