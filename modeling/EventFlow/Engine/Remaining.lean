import EventFlow.Engine.Agent

/-!
# What is left to do

An agent that goes on only ever moves down in the tree of its program. `Remaining` is the part of
the tree below an agent, and `Remaining.Below` is well founded: this is why every machine comes to
rest. The main statement is `advance_remaining`: where a program stops, less is left to do.
-/

set_option autoImplicit false

namespace EventFlow

variable {ρ σ : Type}

/-- What is left of a program that is under way. -/
inductive Remaining (ρ : Type) where
  | after (p : Program ρ)
  | onReplies (next : Option (List Reply) → Program ρ)
  | nothing

/-- What an agent has left to do. -/
def Agent.remaining : Agent ρ → Remaining ρ
  | .ready p => .after p
  | .asleep _ p => .after p
  | .calling _ next => .onReplies next
  | .finished _ => .nothing

/-- What may be left when a program stops to wait, or ends. -/
inductive Program.Leaves : Program ρ → Remaining ρ → Prop
  | done (result : ρ) : Leaves (.done result) .nothing
  | clock {next : Instant → Program ρ} {r : Remaining ρ} (time : Instant)
      (h : Leaves (next time) r) : Leaves (.clock next) r
  | collections {next : Collections → Program ρ} {r : Remaining ρ} (c : Collections)
      (h : Leaves (next c) r) : Leaves (.collections next) r
  | record {e : Execution} {next : Program ρ} {r : Remaining ρ} (h : Leaves next r) :
      Leaves (.record e next) r
  | slept {ms : Nat} {next : Program ρ} {r : Remaining ρ} (h : Leaves next r) :
      Leaves (.sleep ms next) r
  | sleeping (ms : Nat) (next : Program ρ) : Leaves (.sleep ms next) (.after next)
  | called {limit : Option Nat} {order : CallOrder} {calls : List Invocation}
      {next : Option (List Reply) → Program ρ} {r : Remaining ρ} (replies : Option (List Reply))
      (h : Leaves (next replies) r) : Leaves (.call limit order calls next) r
  | calling (limit : Option Nat) (order : CallOrder) (calls : List Invocation)
      (next : Option (List Reply) → Program ρ) :
      Leaves (.call limit order calls next) (.onReplies next)

namespace Remaining

/-- `Below a b`: whoever has `b` left may have `a` left after going on. -/
inductive Below : Remaining ρ → Remaining ρ → Prop
  | after {p : Program ρ} {r : Remaining ρ} (h : p.Leaves r) : Below r (.after p)
  | onReplies {next : Option (List Reply) → Program ρ} {r : Remaining ρ}
      (replies : Option (List Reply)) (h : (next replies).Leaves r) : Below r (.onReplies next)

theorem acc_of_leaves (p : Program ρ) : ∀ r, p.Leaves r → Acc Below r := by
  induction p with
  | done result =>
    intro r h
    cases h
    exact ⟨_, fun _ h => nomatch h⟩
  | clock next ih =>
    intro r h
    cases h with | clock time h => exact ih time r h
  | collections next ih =>
    intro r h
    cases h with | collections c h => exact ih c r h
  | record e next ih =>
    intro r h
    cases h with | record h => exact ih r h
  | sleep ms next ih =>
    intro r h
    cases h with
    | slept h => exact ih r h
    | sleeping =>
      refine ⟨_, fun s hs => ?_⟩
      cases hs with | after h => exact ih s h
  | call limit order calls next ih =>
    intro r h
    cases h with
    | called replies h => exact ih replies r h
    | calling =>
      refine ⟨_, fun s hs => ?_⟩
      cases hs with | onReplies replies h => exact ih replies s h

theorem below_wellFounded : WellFounded (Below (ρ := ρ)) := by
  refine ⟨fun r => ⟨_, fun s hs => ?_⟩⟩
  cases hs with
  | after h => exact acc_of_leaves _ s h
  | onReplies replies h => exact acc_of_leaves _ s h

/-- One entry of a list has less left to do, the others are the same. -/
inductive OneBelow : List (Remaining ρ) → List (Remaining ρ) → Prop
  | head {a b : Remaining ρ} (rest : List (Remaining ρ)) (h : Below a b) :
      OneBelow (a :: rest) (b :: rest)
  | tail (a : Remaining ρ) {rest rest' : List (Remaining ρ)} (h : OneBelow rest rest') :
      OneBelow (a :: rest) (a :: rest')

theorem acc_cons {a : Remaining ρ} (ha : Acc Below a) :
    ∀ {rest : List (Remaining ρ)}, Acc OneBelow rest → Acc OneBelow (a :: rest) := by
  induction ha with
  | intro a _ below =>
    intro rest hrest
    induction hrest with
    | intro rest hrest lower =>
      refine ⟨_, fun other h => ?_⟩
      cases h with
      | head _ h => exact below _ h ⟨_, hrest⟩
      | tail _ h => exact lower _ h

theorem oneBelow_wellFounded : WellFounded (OneBelow (ρ := ρ)) := by
  refine ⟨fun list => ?_⟩
  induction list with
  | nil => exact ⟨_, fun _ h => nomatch h⟩
  | cons a rest ih => exact acc_cons (below_wellFounded.apply a) ih

theorem oneBelow_set {list : List (Remaining ρ)} {i : Nat} {a b : Remaining ρ}
    (hi : list[i]? = some b) (h : Below a b) : OneBelow (list.set i a) list := by
  induction list generalizing i with
  | nil => simp at hi
  | cons c rest ih =>
    cases i with
    | zero =>
      simp only [List.getElem?_cons_zero, Option.some.injEq] at hi
      subst hi
      exact .head rest h
    | succ i => exact .tail c (ih (by simpa using hi))

end Remaining

/-- All numbers of a list together. -/
def total (numbers : List Nat) : Nat := numbers.foldr (fun n m => n + m) 0

@[simp] theorem total_cons (n : Nat) (numbers : List Nat) :
    total (n :: numbers) = n + total numbers := rfl

namespace Agent

@[simp] theorem remaining_fill (slot : Nat) (reply : Reply) (a : Agent ρ) :
    (a.fill slot reply).remaining = a.remaining := by
  cases a <;> rfl

@[simp] theorem unmade_fill (slot : Nat) (reply : Reply) (a : Agent ρ) :
    (a.fill slot reply).unmade = a.unmade := by
  cases a <;> rfl

end Agent

namespace Alarm

/-- How much may still come of an alarm. -/
def weight (a : Alarm) : Nat :=
  match a.signal with
  | .wake => 1
  | .finish _ _ => 2
  | .start _ _ => 3

/-- How much may still come of alarms. -/
def weights (alarms : List Alarm) : Nat := total (alarms.map weight)

@[simp] theorem weights_insert (a : Alarm) (alarms : List Alarm) :
    weights (a.insert alarms) = a.weight + weights alarms := by
  induction alarms with
  | nil => rfl
  | cons b rest ih =>
    unfold insert
    split
    · rfl
    · have hb : ∀ l, weights (b :: l) = b.weight + weights l := fun _ => rfl
      rw [hb, hb, ih]
      omega

end Alarm

namespace Machine

@[simp] theorem agents_change {α : Type} (disk : Disk σ) (f : Store → α × Store)
    (m : Machine σ) : (m.change disk f).2.agents = m.agents := rfl

@[simp] theorem agents_setAlarm (a : Alarm) (m : Machine σ) : (m.setAlarm a).agents = m.agents :=
  rfl

@[simp] theorem agents_makeCalls (owner : Owner) (made : List (Nat × Invocation))
    (m : Machine σ) : (m.makeCalls owner made).agents = m.agents := by
  induction made generalizing m with
  | nil => rfl
  | cons call rest ih => simp [makeCalls, ih]

@[simp] theorem agents_setTimer (owner : Owner) (time : Nat) (m : Machine σ) :
    (m.setTimer owner time).agents = m.agents := by
  cases owner <;> rfl

@[simp] theorem agents_cancel (owner : Owner) (m : Machine σ) :
    (m.cancel owner).agents = m.agents := rfl

@[simp] theorem weights_makeCalls (owner : Owner) (made : List (Nat × Invocation))
    (m : Machine σ) :
    Alarm.weights (m.makeCalls owner made).alarms = 3 * made.length + Alarm.weights m.alarms := by
  induction made generalizing m with
  | nil => simp [makeCalls]
  | cons call rest ih =>
    simp only [makeCalls, ih, setAlarm, Alarm.weights_insert, Alarm.weight, List.length_cons]
    omega

/-- Where a program stops, less is left to do, and the agents in the background are as before. -/
theorem advance_remaining (engine : Engine σ) (owner : Owner) (p : Program ρ) (m : Machine σ) :
    p.Leaves (advance engine owner p m).1.remaining ∧
      (advance engine owner p m).2.agents = m.agents := by
  induction p generalizing m with
  | done result => exact ⟨.done result, rfl⟩
  | clock next ih =>
    have h := ih m.supply.now.1 { m with supply := m.supply.now.2 }
    exact ⟨.clock _ h.1, h.2⟩
  | collections next ih =>
    have h := ih m.store.collections m
    exact ⟨.collections _ h.1, h.2⟩
  | record e next ih =>
    have h := ih (m.change engine.disk (·.record e)).2
    exact ⟨.record h.1, h.2⟩
  | sleep ms next ih =>
    unfold advance
    split
    · exact ⟨.slept (ih m).1, (ih m).2⟩
    · exact ⟨.sleeping ms next, by simp⟩
  | call limit order calls next ih =>
    unfold advance
    split
    · exact ⟨.called _ (ih _ m).1, (ih _ m).2⟩
    · split
      · exact ⟨.called _ (ih _ m).1, (ih _ m).2⟩
      · exact ⟨.calling _ _ _ next, by simp⟩
      · exact ⟨.calling _ _ _ next, by simp⟩

/-- An agent that goes on has less left to do; otherwise it has the same left to do, and what it
makes of its calls comes off those it still had to make. -/
theorem resume_remaining (engine : Engine σ) (owner : Owner) (expired : Bool) (a : Agent ρ)
    (m : Machine σ) :
    (resume engine owner expired a m).2.agents = m.agents ∧
      (Remaining.Below (resume engine owner expired a m).1.remaining a.remaining ∨
        ((resume engine owner expired a m).1.remaining = a.remaining ∧
          Alarm.weights (resume engine owner expired a m).2.alarms +
              4 * (resume engine owner expired a m).1.unmade ≤
            Alarm.weights m.alarms + 4 * a.unmade)) := by
  cases a with
  | ready p =>
    have h := advance_remaining engine owner p m
    exact ⟨h.2, .inl (.after h.1)⟩
  | asleep wakeTime p =>
    simp only [resume]
    split
    · have h := advance_remaining engine owner p m
      exact ⟨h.2, .inl (.after h.1)⟩
    · exact ⟨rfl, .inr ⟨rfl, Nat.le_refl _⟩⟩
  | calling waiting next =>
    simp only [resume]
    split
    · next replies _ =>
      have h := advance_remaining engine owner (next (some replies)) (m.cancel owner)
      exact ⟨h.2, .inl (.onReplies _ h.1)⟩
    · next waiting' made hpoll =>
      split
      · have h := advance_remaining engine owner (next none) (m.cancel owner)
        exact ⟨h.2, .inl (.onReplies _ h.1)⟩
      · refine ⟨by simp, .inr ⟨rfl, ?_⟩⟩
        have h := Waiting.length_rest_of_poll hpoll
        simp only [weights_makeCalls, Agent.unmade]
        omega
  | finished result => exact ⟨rfl, .inr ⟨rfl, Nat.le_refl _⟩⟩

/-- An agent whose time has come goes on. -/
theorem resume_expired (engine : Engine σ) (owner : Owner) (a : Agent ρ) (m : Machine σ)
    (h : a.result? = none) :
    Remaining.Below (resume engine owner true a m).1.remaining a.remaining := by
  cases a with
  | ready p => exact .after (advance_remaining engine owner p m).1
  | asleep wakeTime p => exact .after (advance_remaining engine owner p m).1
  | calling waiting next =>
    simp only [resume]
    split
    · exact .onReplies _ (advance_remaining engine owner _ _).1
    · exact .onReplies _ (advance_remaining engine owner _ _).1
  | finished result => simp [Agent.result?] at h

end Machine

end EventFlow
