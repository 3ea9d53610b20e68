import EventFlow.Proofs.Engine.History
import EventFlow.Proofs.Engine.Sequence
import EventFlow.Proofs.Engine.Timeouts

/-!
# Between attempts

The delay after an attempt is what doubling comes to, up to the cap; that numbers of 64 bits are
multiplied does not show (`EngineSettings.retryDelay_eq`). A step that is attempted again sleeps
once between an attempt and the next, and not after the last (`Engine.Retried`, `Engine.Spaced`), as
long as the delay, but no longer than anything sleeps (`Engine.backs_off`). The delay is
`EngineSettings.retryDelay` (`EventFlow.Engine.Settings`), and the attempts are those of
`Engine.runAgain` (`EventFlow.Engine.Run`).
-/

set_option autoImplicit false

namespace EventFlow

/-! ## Delays -/

namespace EngineSettings

variable (s : EngineSettings) {a : Nat}

theorem factor_eq : factor a = if a ≤ 64 then 2 ^ (a - 1) else longest := by
  rw [factor, Nat.one_shiftLeft]

/-- No word is above the longest. -/
theorem toNat_le_longest (word : UInt64) : word.toNat ≤ longest :=
  Nat.le_sub_one_of_lt word.toNat_lt

/-- The delay is the base, doubled with each attempt after the first, or the cap if that is less. -/
theorem retryDelay_eq (a : Nat) :
    s.retryDelay a = min (s.retryBaseDelayMs.toNat * 2 ^ (a - 1)) s.retryMaxDelayMs.toNat := by
  have cap := toNat_le_longest s.retryMaxDelayMs
  rw [retryDelay, factor_eq]
  split
  · omega
  · next late =>
    -- The factor is too large for 64 bits, and so is the product, unless the base is zero.
    rcases Nat.eq_zero_or_pos s.retryBaseDelayMs.toNat with zero | positive
    · rw [zero, Nat.zero_mul, Nat.zero_mul, Nat.zero_min, Nat.zero_min]
    · have large : longest ≤ s.retryBaseDelayMs.toNat * 2 ^ (a - 1) := by
        calc longest ≤ 2 ^ 64 := by decide
          _ ≤ 2 ^ (a - 1) := Nat.pow_le_pow_right (by decide) (by omega)
          _ ≤ s.retryBaseDelayMs.toNat * 2 ^ (a - 1) := Nat.le_mul_of_pos_left _ positive
      have product : longest ≤ s.retryBaseDelayMs.toNat * longest :=
        Nat.le_mul_of_pos_left _ positive
      omega

/-- No delay is longer than the longest that is set. -/
theorem retryDelay_le : s.retryDelay a ≤ s.retryMaxDelayMs.toNat := Nat.min_le_right _ _

/-- Delays do not become shorter. -/
theorem retryDelay_mono {b : Nat} (later : a ≤ b) : s.retryDelay a ≤ s.retryDelay b := by
  rw [s.retryDelay_eq, s.retryDelay_eq]
  have doubled : s.retryBaseDelayMs.toNat * 2 ^ (a - 1) ≤ s.retryBaseDelayMs.toNat * 2 ^ (b - 1) :=
    Nat.mul_le_mul_left _ (Nat.pow_le_pow_right (by decide) (by omega))
  omega

end EngineSettings

/-! ## Attempts and pauses -/

namespace Engine

variable {σ : Type}

/-- An attempt at a step: when it began and ended, and what it came to. -/
structure Attempt where
  start : Nat
  stop : Nat
  outcome : Except StepError Json

/-- Whether an attempt fails. -/
def Attempt.fails (t : Attempt) : Bool :=
  match t.outcome with
  | .ok _ => false
  | .error _ => true

/-- A pause between attempts: how many milliseconds it was to be, and when it began and ended. -/
structure Pause where
  asked : Nat
  start : Nat
  stop : Nat

/-- `Retried engine p data place total number m e attempts pauses end`: from an attempt on, of
`total` that there may be, a step is attempted on a machine, with pauses between the attempts. A
failure is noted after the attempt that it ends. -/
inductive Retried (engine : Engine σ) (p : Plan) (data : Json) (place : Place) (total : Nat) :
    Nat → Machine σ → Execution → List Attempt → List Pause → (Flow × Execution) × Machine σ → Prop
  | succeeds {number : Nat} {m m' : Machine σ} {e : Execution} {output : Json}
      (tried : m.await engine (engine.attempt p place.step data) = (.ok output, m')) :
      Retried engine p data place total number m e [⟨m.time, m'.time, .ok output⟩] []
        (m'.await engine (succeed place.step output e))
  | givesUp {m m' m'' : Machine σ} {e e' : Execution} {error : StepError}
      (tried : m.await engine (engine.attempt p place.step data) = (.error error, m'))
      (noted : m'.await engine (noteError place (attemptText total total error) e) = (e', m'')) :
      Retried engine p data place total total m e [⟨m.time, m'.time, .error error⟩] []
        (m''.await engine (pure (.halt .failed, e')))
  | again {number : Nat} {m m' m'' next : Machine σ} {e e' : Execution} {error : StepError}
      {attempts : List Attempt} {pauses : List Pause} {done : (Flow × Execution) × Machine σ}
      (more : number < total)
      (tried : m.await engine (engine.attempt p place.step data) = (.error error, m'))
      (noted : m'.await engine (noteError place (attemptText number total error) e) = (e', m''))
      (slept : m''.await engine (Program.pause (engine.settings.retryDelay number)) = ((), next))
      (later : Retried engine p data place total (number + 1) next e' attempts pauses done) :
      Retried engine p data place total number m e (⟨m.time, m'.time, .error error⟩ :: attempts)
        (⟨engine.settings.retryDelay number, m''.time, next.time⟩ :: pauses) done

variable {engine : Engine σ} {p : Plan} {data : Json} {place : Place} {total : Nat}

/-- An attempt that succeeds is the last. -/
theorem await_runAgain_of_ok {m m' : Machine σ} {output : Json}
    (tried : m.await engine (engine.attempt p place.step data) = (.ok output, m')) (left : Nat)
    (e : Execution) : m.await engine (engine.runAgain p data place total (left + 1) e) =
      m'.await engine (succeed place.step output e) := by
  rw [runAgain, Machine.await_bind, tried]

/-- An attempt that fails is noted, and followed by a pause and another attempt as long as there are
any left. -/
theorem await_runAgain_of_error {m m' m'' : Machine σ} {e e' : Execution} {error : StepError}
    {left number : Nat} (counted : total - left = number)
    (tried : m.await engine (engine.attempt p place.step data) = (.error error, m'))
    (noted : m'.await engine (noteError place (attemptText number total error) e) = (e', m'')) :
    m.await engine (engine.runAgain p data place total (left + 1) e) =
      m''.await engine (if left = 0 then pure (.halt .failed, e')
        else do
          Program.pause (engine.settings.retryDelay number)
          engine.runAgain p data place total left e') := by
  unfold attemptText at noted
  rw [runAgain, Machine.await_bind, tried, counted]
  dsimp only at noted ⊢
  rw [Machine.await_bind, noted]

/-- A step that may be attempted so many times more is attempted in this way. -/
theorem retried_of_await (engine : Engine σ) (p : Plan) (data : Json) (place : Place) {left : Nat}
    (h : left < total) (m : Machine σ) (e : Execution) :
    ∃ attempts pauses, Retried engine p data place total (total - left) m e attempts pauses
      (m.await engine (engine.runAgain p data place total (left + 1) e)) := by
  induction left generalizing m e with
  | zero =>
    rw [Nat.sub_zero]
    rcases tried : m.await engine (engine.attempt p place.step data) with ⟨error | output, m'⟩
    · rcases noted : m'.await engine (noteError place (attemptText total total error) e) with
        ⟨e', m''⟩
      rw [await_runAgain_of_error (Nat.sub_zero total) tried noted, if_pos rfl]
      exact ⟨_, _, .givesUp tried noted⟩
    · rw [await_runAgain_of_ok tried]
      exact ⟨_, _, .succeeds tried⟩
  | succ left ih =>
    rcases tried : m.await engine (engine.attempt p place.step data) with ⟨error | output, m'⟩
    · rcases noted : m'.await engine
        (noteError place (attemptText (total - (left + 1)) total error) e) with ⟨e', m''⟩
      rcases slept : m''.await engine
        (Program.pause (engine.settings.retryDelay (total - (left + 1)))) with ⟨nothing, next⟩
      obtain ⟨attempts, pauses, later⟩ := ih (Nat.lt_of_succ_lt h) next e'
      have number : total - left = total - (left + 1) + 1 := by omega
      rw [number] at later
      rw [await_runAgain_of_error rfl tried noted, if_neg (Nat.succ_ne_zero left),
        Machine.await_bind, slept]
      exact ⟨_, _, .again (by omega) tried noted slept later⟩
    · rw [await_runAgain_of_ok tried]
      exact ⟨_, _, .succeeds tried⟩

/-! ## Times -/

section Times

variable {m m' : Machine σ} {e e' : Execution}

theorem time_of_advance {α : Type} {p : Program α} {result : α} (m' : Machine σ)
    (ends : Machine.advance engine .front p (m.cancel .front) = (.finished result, m')) :
    (m.await engine p).2.time = m'.time := by
  rw [Machine.await_of_advance ends]

/-- To be done takes no time. -/
theorem time_pure {α : Type} (a : α) (m : Machine σ) :
    (m.await engine (pure a : Program α)).2.time = m.time :=
  time_of_advance (m.cancel .front) rfl

/-- To note an error takes no time. -/
theorem time_of_noteError {text : String}
    (noted : m.await engine (noteError place text e) = (e', m')) : m'.time = m.time := by
  have same : (m.await engine (noteError place text e)).2.time = m.time :=
    time_of_advance { m.cancel .front with supply := m.supply.now.2 } rfl
  rwa [noted] at same

/-- To note a result takes no time. -/
theorem time_succeed (s : Step) (output : Json) (e : Execution) (m : Machine σ) :
    (m.await engine (succeed s output e)).2.time = m.time := by
  unfold succeed
  split
  · exact time_pure _ m
  · exact time_of_advance { m.cancel .front with supply := m.supply.now.2 } rfl

/-- A pause takes as long as it is to last, at most thirty years. -/
theorem time_of_pause {ms : Nat} {nothing : Unit} (orderly : m.Orderly)
    (slept : m.await engine (Program.pause ms) = (nothing, m')) :
    m'.time = m.time + Sleep.lasting ms := by
  have paused : (m.await engine (Program.pause ms)).2.time = _ :=
    (Machine.await_sleep orderly ms ()).2
  rwa [slept] at paused

/-- A machine is orderly after every program. -/
theorem orderly_of_await {α : Type} {p : Program α} {result : α} (orderly : m.Orderly)
    (ends : m.await engine p = (result, m')) : m'.Orderly := by
  have ran : m.Runs engine (m.await engine p).2 := Machine.runs_await p m orderly
  rw [ends] at ran
  exact ran.path.orderly orderly

end Times

/-- How attempts and pauses follow each other, from an attempt on, of `total` that there may be. The
first attempt begins at a time, and with the last all is over. As many pauses as attempts fail,
unless no attempt is left, and the attempts that fail are the first. -/
structure Spaced (s : EngineSettings) (total number start : Nat) (attempts : List Attempt)
    (pauses : List Pause) (stop : Nat) : Prop where
  begins : attempts[0]?.map Attempt.start = some start
  ends : attempts[pauses.length]?.map Attempt.stop = some stop
  length : attempts.length = pauses.length + 1
  count : pauses.length = min (attempts.countP Attempt.fails) (total - number)
  failing : ∀ i (t : Attempt), attempts[i]? = some t →
    (t.fails = true ↔ i < attempts.countP Attempt.fails)
  asked : ∀ i (x : Pause), pauses[i]? = some x →
    x.asked = s.retryDelay (number + i) ∧ x.stop = x.start + Sleep.lasting x.asked
  between : ∀ i (x : Pause), pauses[i]? = some x →
    attempts[i]?.map Attempt.stop = some x.start ∧ attempts[i + 1]?.map Attempt.start = some x.stop

/-- One attempt is spaced, if it succeeds or is the last. -/
theorem spaced_singleton {s : EngineSettings} {number : Nat} (t : Attempt)
    (last : t.fails = true → total = number) :
    Spaced s total number t.start [t] [] t.stop where
  begins := rfl
  ends := rfl
  length := rfl
  count := by
    cases fails : t.fails with
    | false => simp [fails]
    | true => rw [last fails, Nat.sub_self, Nat.min_zero, List.length_nil]
  failing i u here := by
    cases i with
    | zero =>
      cases here
      cases fails : t.fails <;> simp [fails]
    | succ i => cases here
  asked _ _ here := nomatch here
  between _ _ here := nomatch here

/-- An attempt that fails may come before others, after the delay of its number. -/
theorem Spaced.cons {s : EngineSettings} {number start stop : Nat} {attempts : List Attempt}
    {pauses : List Pause} (more : number < total) {t : Attempt} (fails : t.fails = true)
    (later : Spaced s total (number + 1) start attempts pauses stop)
    (rests : start = t.stop + Sleep.lasting (s.retryDelay number)) :
    Spaced s total number t.start (t :: attempts)
      (⟨s.retryDelay number, t.stop, start⟩ :: pauses) stop where
  begins := rfl
  ends := later.ends
  length := by rw [List.length_cons, List.length_cons, later.length]
  count := by
    have count := later.count
    rw [List.length_cons, List.countP_cons_of_pos fails]
    omega
  failing i u here := by
    rw [List.countP_cons_of_pos fails]
    cases i with
    | zero =>
      cases here
      exact iff_of_true fails (Nat.succ_pos _)
    | succ i => exact (later.failing i u here).trans Nat.succ_lt_succ_iff.symm
  asked i x here := by
    cases i with
    | zero =>
      cases here
      exact ⟨rfl, rests⟩
    | succ i =>
      rw [← Nat.add_assoc, Nat.add_right_comm]
      exact later.asked i x here
  between i x here := by
    cases i with
    | zero =>
      cases here
      exact ⟨rfl, later.begins⟩
    | succ i => exact later.between i x here

/-- The pauses of a step that is attempted again last as long as the delays, but no longer than
anything sleeps. -/
theorem Retried.spaced {number : Nat} {m : Machine σ} {e : Execution} {attempts : List Attempt}
    {pauses : List Pause} {done : (Flow × Execution) × Machine σ}
    (h : Retried engine p data place total number m e attempts pauses done) (orderly : m.Orderly) :
    Spaced engine.settings total number m.time attempts pauses done.2.time := by
  induction h with
  | succeeds tried =>
    rw [time_succeed]
    exact spaced_singleton ⟨_, _, .ok _⟩ nofun
  | givesUp tried noted =>
    rw [time_pure, time_of_noteError noted]
    exact spaced_singleton ⟨_, _, .error _⟩ fun _ => rfl
  | again more tried noted slept later ih =>
    have ready := orderly_of_await (orderly_of_await orderly tried) noted
    have lasted := time_of_pause ready slept
    rw [time_of_noteError noted] at lasted ⊢
    exact .cons (t := ⟨_, _, .error _⟩) more rfl (ih (orderly_of_await ready slept)) lasted

/-- An engine that is to wait 31 years between attempts. -/
def patient : Engine Unit :=
  { bare with settings := ⟨1000000000000, 1000000000000, 1000, anonymous⟩ }

/-- A step that is attempted twice, in vain: there is no such action. -/
def inVain : Place :=
  ⟨0, ⟨"in vain", "nightly", "In vain", "", .action, ["nobody"], [], .retry 1,
    Step.defaultTimeoutMs, 0, .emptyObject, default, anonymous⟩⟩

theorem await_attempt_inVain (m : Machine Unit) :
    m.await patient (patient.attempt chimes inVain.step .null) =
      (.error (.missingAction "nobody"), m.cancel .front) :=
  Machine.await_of_advance rfl

/-- The pause is to be longer than anything sleeps. -/
theorem patience_ends :
    let e := (Execution.begin nightly .null anonymous default).1
    patient.settings.retryDelay 1 = 1000000000000 ∧
      ∃ first second, first.fails = true ∧ second.fails = true ∧
        Retried patient chimes .null inVain 2 1 idle e [first, second]
          [⟨1000000000000, 0, 946080000000⟩]
          (idle.await patient (patient.runStep chimes .null inVain e)) := by
  intro e
  rcases noted : ((idle.cancel .front).await patient
    (noteError inVain (attemptText 1 2 (.missingAction "nobody")) e)) with ⟨e', m⟩
  rcases slept : m.await patient (Program.pause (patient.settings.retryDelay 1)) with
    ⟨nothing, next⟩
  rcases noted' : ((next.cancel .front).await patient
    (noteError inVain (attemptText 2 2 (.missingAction "nobody")) e')) with ⟨e'', last⟩
  have ran : idle.await patient (patient.runStep chimes .null inVain e) =
      last.await patient (pure (.halt .failed, e'')) := by
    change idle.await patient (patient.runAgain chimes .null inVain 2 (1 + 1) e) = _
    rw [await_runAgain_of_error (show 2 - 1 = 1 from rfl) (await_attempt_inVain idle) noted,
      if_neg Nat.one_ne_zero, Machine.await_bind, slept,
      await_runAgain_of_error (Nat.sub_zero 2) (await_attempt_inVain next) noted', if_pos rfl]
  have orderly : idle.Orderly := ⟨.nil, nofun, nofun⟩
  have ready : m.Orderly :=
    orderly_of_await (orderly_of_await orderly (await_attempt_inVain idle)) noted
  have begun : m.time = 0 := time_of_noteError noted
  have ended : next.time = 946080000000 := by
    rw [time_of_pause ready slept, begun]
    decide
  refine ⟨rfl, ⟨0, 0, .error (.missingAction "nobody")⟩,
    ⟨946080000000, 946080000000, .error (.missingAction "nobody")⟩, rfl, rfl, ?_⟩
  have retried : Retried patient chimes .null inVain 2 1 idle e _ _
      (last.await patient (pure (.halt .failed, e''))) :=
    .again (by decide) (await_attempt_inVain idle) noted slept
      (.givesUp (await_attempt_inVain next) noted')
  rw [begun, show (next.cancel .front).time = 946080000000 from ended, ended] at retried
  rw [ran]
  exact retried

/-- The delays are what doubling comes to, up to the cap, and do not become shorter. A step that is
run again sleeps between an attempt that fails and the next, if there is one, and only there: as
long as the delay says, but no longer than thirty years. All this is so whatever goes on in the
background. -/
theorem backs_off (engine : Engine σ) (p : Plan) (data : Json) (place : Place) {n : UInt32}
    (policy : place.step.errorPolicy = .retry n) (e : Execution) {m : Machine σ}
    (orderly : m.Orderly) :
    let delay (s : EngineSettings) (a : Nat) :=
      min (s.retryBaseDelayMs.toNat * 2 ^ (a - 1)) s.retryMaxDelayMs.toNat
    let total := min (n.toNat + 1) (2 ^ 32 - 1)
    let ran := m.await engine (engine.runStep p data place e)
    (∀ (s : EngineSettings) (a : Nat), s.retryDelay a = delay s a ∧
        s.retryDelay a ≤ s.retryMaxDelayMs.toNat ∧ ∀ b, a ≤ b → s.retryDelay a ≤ s.retryDelay b) ∧
      ∃ attempts pauses, Retried engine p data place total 1 m e attempts pauses ran ∧
        let failed := attempts.countP Attempt.fails
        (∀ i (t : Attempt), attempts[i]? = some t → (t.fails = true ↔ i < failed)) ∧
        attempts.length = pauses.length + 1 ∧ pauses.length = min failed (total - 1) ∧
        (∀ k (x : Pause), 1 ≤ k → pauses[k - 1]? = some x →
          x.asked = delay engine.settings k ∧
          x.stop = x.start + min (delay engine.settings k) 946080000000 ∧
          attempts[k - 1]?.map Attempt.stop = some x.start ∧
          attempts[k]?.map Attempt.start = some x.stop) ∧
        attempts[0]?.map Attempt.start = some m.time ∧
        attempts[pauses.length]?.map Attempt.stop = some ran.2.time := by
  intro delay total ran
  refine ⟨fun s a => ⟨s.retryDelay_eq a, s.retryDelay_le, fun b => s.retryDelay_mono⟩, ?_⟩
  have positive := totalAttempts_pos n
  have again : ran = m.await engine (engine.runAgain p data place (totalAttempts n)
      (totalAttempts n - 1 + 1) e) := by
    unfold ran
    rw [runStep, policy, Nat.sub_add_cancel positive]
  obtain ⟨attempts, pauses, retried⟩ :=
    retried_of_await engine p data place (Nat.sub_lt positive Nat.one_pos) m e
  rw [← again, Nat.sub_sub_self positive] at retried
  have spaced := retried.spaced orderly
  refine ⟨attempts, pauses, retried, spaced.failing, spaced.length, spaced.count, ?_, spaced.begins,
    spaced.ends⟩
  intro k x first here
  obtain ⟨asked, lasts⟩ := spaced.asked (k - 1) x here
  obtain ⟨stops, starts⟩ := spaced.between (k - 1) x here
  rw [Nat.add_sub_cancel' first, EngineSettings.retryDelay_eq] at asked
  rw [Nat.sub_add_cancel first] at starts
  rw [asked] at lasts
  exact ⟨asked, lasts, stops, starts⟩

theorem backs_off_inVain :
    let e := (Execution.begin nightly .null anonymous default).1
    inVain.step.errorPolicy = .retry 1 ∧ idle.Orderly ∧
      patient.settings.retryDelay 2 = min (1000000000000 * 2 ^ (2 - 1)) 1000000000000 ∧
      ∃ attempts pauses, Retried patient chimes .null inVain 2 1 idle e attempts pauses
          (idle.await patient (patient.runStep chimes .null inVain e)) ∧
        pauses.length = min (attempts.countP Attempt.fails) (2 - 1) := by
  intro e
  have orderly : idle.Orderly := ⟨.nil, nofun, nofun⟩
  obtain ⟨delays, attempts, pauses, retried, -, -, count, -⟩ :=
    backs_off patient chimes .null inVain rfl e orderly
  exact ⟨rfl, orderly, (delays patient.settings 2).1, attempts, pauses, retried, count⟩

end Engine

end EventFlow
