import EventFlow.Proofs.Text.Digits
import EventFlow.Proofs.Time.Calendar
import EventFlow.Time.Rfc3339

/-!
# Times are read back

What `Instant.text` writes is read back by `Instant.read?`, part by part, as long as the year is one
that is told and a leap second stands at the end of a minute (`Instant.Readable`). Whatever is read
is such a point of time (`Instant.readable_of_read?`). A clock that counts on from any point of time
tells no leap second elsewhere either (`Instant.regular_succ`). Both are in
`EventFlow.Time.Rfc3339`.
-/

set_option autoImplicit false

namespace EventFlow

namespace Text

theorem not_isBlank_of_isDigit {c : Char} (h : c.isDigit = true) : isBlank c = false := by
  have low : 48 ≤ c.toNat := by
    simp only [Char.isDigit, Bool.and_eq_true, decide_eq_true_eq] at h
    exact UInt32.le_iff_toNat_le.1 h.1
  have high : c.toNat ≤ 57 := by
    simp only [Char.isDigit, Bool.and_eq_true, decide_eq_true_eq] at h
    exact UInt32.le_iff_toNat_le.1 h.2
  unfold isBlank
  simp only [decide_eq_false_iff_not]
  omega

theorem trimStart_cons {c : Char} {s : List Char} (h : isBlank c = false) :
    trimStart (c :: s) = c :: s := by
  simp [trimStart, h]

theorem trimStart_digits {digits s : List Char} (hdigits : ∀ c ∈ digits, c.isDigit = true)
    (some_digit : digits ≠ []) : trimStart (digits ++ s) = digits ++ s := by
  cases digits with
  | nil => exact absurd rfl some_digit
  | cons c rest => exact trimStart_cons (not_isBlank_of_isDigit (hdigits c List.mem_cons_self))

end Text

namespace Rfc3339

open Text

theorem twoDigits_padded {low high n : Nat} (hlow : low ≤ n) (hhigh : n ≤ high) (h : n < 100)
    (s : List Char) : twoDigits low high (padded 2 n ++ s) = some (n, s) := by
  rw [twoDigits, trimStart_digits (isDigit_of_mem_padded 2 n) (padded_ne_nil 2 n),
    number_padded (by decide) h]
  simp [hlow, hhigh]

theorem separator_self {c : Char} (h : isBlank c = false) (s : List Char) :
    separator c (c :: s) = some ((), s) := by
  rw [separator, trimStart_cons h]
  simp

/-- A year without a sign has four digits. -/
theorem year_padded {n : Nat} (h : n < 10000) (s : List Char) :
    year (padded 4 n ++ s) = some ((n : Int), s) := by
  have value := number_padded (show 0 < 4 by decide) h s
  have digits := isDigit_of_mem_padded 4 n
  rw [year, trimStart_digits digits (padded_ne_nil 4 n)]
  cases hpadded : padded 4 n with
  | nil => exact absurd hpadded (padded_ne_nil 4 n)
  | cons c rest =>
    rw [hpadded] at value digits
    have digit := digits c List.mem_cons_self
    rw [List.cons_append] at value ⊢
    split
    · next heq =>
      cases heq
      exact absurd digit (by decide)
    · next heq =>
      cases heq
      exact absurd digit (by decide)
    · rw [value]
      rfl

theorem year_yearText (y : Int) (s : List Char) :
    year (Instant.yearText y ++ '-' :: s) = some (y, '-' :: s) := by
  unfold Instant.yearText
  by_cases plain : 0 ≤ y ∧ y ≤ 9999
  · rw [if_pos plain, year_padded (by omega)]
    have : (y.toNat : Int) = y := by omega
    rw [this]
  · rw [if_neg plain]
    have ends : NoDigitAhead ('-' :: s) := noDigitAhead_cons (by decide)
    have value := number_digits (isDigit_of_mem_padded 4 y.natAbs) (padded_ne_nil 4 _) ends
    rw [decimalValue_padded] at value
    by_cases negative : y < 0
    · have : -(y.natAbs : Int) = y := by omega
      rw [if_pos negative, List.cons_append, year, trimStart_cons (by decide)]
      simp only [value, Option.map_some, this]
    · have : (y.natAbs : Int) = y := by omega
      rw [if_neg negative, List.cons_append, year, trimStart_cons (by decide)]
      simp only [value, Option.map_some, this]

/-- The date of a day is read back, if its year is told. -/
theorem date_ofDays {days : Int}
    (told : Date.years.1 ≤ (Date.ofDays days).year ∧ (Date.ofDays days).year ≤ Date.years.2)
    (s : List Char) :
    date (Instant.yearText (Date.ofDays days).year ++ '-' :: (padded 2 (Date.ofDays days).month ++
      '-' :: (padded 2 (Date.ofDays days).day ++ s))) = some (Date.ofDays days, s) := by
  have parts := Date.ofParts?_ofDays told
  obtain ⟨-, -, month, month', day, day'⟩ := Date.ofParts?_isSome (by rw [parts]; rfl)
  have short : (Date.ofDays days).day ≤ 31 := Nat.le_trans day' (Date.daysIn_le _ _)
  have dash : isBlank '-' = false := by decide
  simp only [date, year_yearText, separator_self dash, twoDigits_padded month month' (by omega),
    twoDigits_padded day short (by omega), parts, Option.bind_eq_bind, Option.bind_some,
    Option.pure_def]

theorem fraction_cons {digits s : List Char} (hdigits : ∀ c ∈ digits, c.isDigit = true)
    (some_digit : digits ≠ []) (short : digits.length ≤ 9) (ends : NoDigitAhead s) :
    fraction ('.' :: (digits ++ s)) =
      some (decimalValue digits * 10 ^ (9 - digits.length), s) := by
  simp only [fraction, takeWhile_digits hdigits ends, List.isEmpty_eq_false_iff.2 some_digit,
    List.take_of_length_le short, List.drop_left]
  rfl

/-- Every nanosecond is read back, however few digits tell it. -/
theorem fraction_fractionText {n : Nat} (h : n < 1000000000) (s : List Char) :
    fraction (Instant.fractionText n ++ 'Z' :: s) = some (n, 'Z' :: s) := by
  have ends : NoDigitAhead ('Z' :: s) := noDigitAhead_cons (by decide)
  have read (width k : Nat) (pos : 0 < width) (short : width ≤ 9) (hk : k < 10 ^ width) :
      fraction (('.' :: padded width k) ++ 'Z' :: s) = some (k * 10 ^ (9 - width), 'Z' :: s) := by
    have length := length_padded pos hk
    rw [List.cons_append, fraction_cons (isDigit_of_mem_padded width k) (padded_ne_nil width k)
      (by omega) ends, decimalValue_padded, length]
  unfold Instant.fractionText
  split
  · next zero =>
    rw [zero]
    rfl
  · split
    · rw [read 3 (n / 1000000) (by decide) (by decide) (by omega)]
      congr 2
      omega
    · split
      · rw [read 6 (n / 1000) (by decide) (by decide) (by omega)]
        congr 2
        omega
      · rw [read 9 n (by decide) (by decide) (by omega)]
        congr 2
        omega

/-- A second of a day is read back from its hour, minute and second. -/
theorem time_padded {second n : Nat} (hsecond : second < 86400) (hn : n < 1000000000)
    (s : List Char) :
    time (padded 2 (second / 3600) ++ ':' :: (padded 2 (second / 60 % 60) ++ ':' ::
      (padded 2 (second % 60) ++ (Instant.fractionText n ++ 'Z' :: s)))) =
        some ((second, n), 'Z' :: s) := by
  have colon : isBlank ':' = false := by decide
  have hour : second / 3600 ≤ 23 := by omega
  have minute : second / 60 % 60 ≤ 59 := by omega
  have within : second % 60 ≤ 60 := by omega
  have plain : second % 60 ≠ 60 := by omega
  have whole : second / 3600 * 3600 + second / 60 % 60 * 60 + second % 60 = second := by omega
  simp only [time, twoDigits_padded (Nat.zero_le _) hour (by omega), separator_self colon,
    twoDigits_padded (Nat.zero_le _) minute (by omega),
    twoDigits_padded (Nat.zero_le _) within (by omega), fraction_fractionText hn,
    Option.bind_eq_bind, Option.bind_some, plain, if_false, whole, Option.pure_def]

/-- The 60th second of a minute is the second half of the 59th. -/
theorem time_padded_leap {second n : Nat} (hsecond : second < 86400) (last : second % 60 = 59)
    (hn : n < 1000000000) (s : List Char) :
    time (padded 2 (second / 3600) ++ ':' :: (padded 2 (second / 60 % 60) ++ ':' ::
      (padded 2 60 ++ (Instant.fractionText n ++ 'Z' :: s)))) =
        some ((second, 1000000000 + n), 'Z' :: s) := by
  have colon : isBlank ':' = false := by decide
  have hour : second / 3600 ≤ 23 := by omega
  have minute : second / 60 % 60 ≤ 59 := by omega
  have whole : second / 3600 * 3600 + second / 60 % 60 * 60 + 59 = second := by omega
  simp only [time, twoDigits_padded (Nat.zero_le _) hour (by omega), separator_self colon,
    twoDigits_padded (Nat.zero_le _) minute (by omega),
    twoDigits_padded (Nat.zero_le 60) (Nat.le_refl 60) (by decide), fraction_fractionText hn,
    Option.bind_eq_bind, Option.bind_some, if_true, whole, Option.pure_def]

end Rfc3339

namespace Instant

open Text

/-- Only the last second of a minute has a second half. -/
def Regular (a : Instant) : Prop := 1000000000 ≤ a.nanos.val → a.seconds % 60 = 59

/-- The clock tells regular points of time, whatever it has told before. -/
theorem regular_succ (a : Instant) : a.succ.Regular := by
  intro leap
  unfold succ at leap
  split at leap
  · next before =>
    have nanos : 1000000000 ≤ a.nanos.val + 1 := leap
    omega
  · next =>
    have nanos : 1000000000 ≤ 0 := leap
    omega

/-- A point of time that a text can tell: its year is told, and it is regular. -/
structure Readable (a : Instant) : Prop where
  told : a.isTold = true
  regular : a.Regular

/-- The second of its day in which a point of time lies. -/
def secondOfDay (a : Instant) : Nat := (a.seconds - a.seconds.fdiv 86400 * 86400).toNat

theorem secondOfDay_spec (a : Instant) :
    a.seconds.fdiv 86400 * 86400 + (a.secondOfDay : Int) = a.seconds ∧ a.secondOfDay < 86400 := by
  unfold secondOfDay
  rw [Int.fdiv_eq_ediv_of_nonneg _ (by decide)]
  omega

/-- The characters of a date, between the others. -/
theorem toList_text (a : Instant) :
    a.text.toList = yearText a.date.year ++ '-' :: (padded 2 a.date.month ++ '-' ::
      (padded 2 a.date.day ++ 'T' :: (padded 2 (a.secondOfDay / 3600) ++ ':' ::
        (padded 2 (a.secondOfDay / 60 % 60) ++ ':' ::
          (padded 2 (a.secondOfDay % 60 + if 1000000000 ≤ a.nanos.val then 1 else 0) ++
            (fractionText (a.nanos.val % 1000000000) ++ 'Z' :: [])))))) := by
  simp [text, localText, dateText, secondOfDay]

/-- A point of time that is written is read back. -/
theorem read?_text {a : Instant} (h : a.Readable) : read? a.text = some a := by
  obtain ⟨seconds, inDay⟩ := a.secondOfDay_spec
  have told : Date.years.1 ≤ (Date.ofDays (a.seconds.fdiv 86400)).year ∧
      (Date.ofDays (a.seconds.fdiv 86400)).year ≤ Date.years.2 := of_decide_eq_true h.told
  have bound := a.nanos.isLt
  have time : Rfc3339.time (padded 2 (a.secondOfDay / 3600) ++ ':' ::
      (padded 2 (a.secondOfDay / 60 % 60) ++ ':' ::
        (padded 2 (a.secondOfDay % 60 + if 1000000000 ≤ a.nanos.val then 1 else 0) ++
          (fractionText (a.nanos.val % 1000000000) ++ 'Z' :: [])))) =
      some ((a.secondOfDay, a.nanos.val), 'Z' :: []) := by
    by_cases leap : 1000000000 ≤ a.nanos.val
    · have last : a.secondOfDay % 60 = 59 := by
        have := h.regular leap
        omega
      have nanos : 1000000000 + a.nanos.val % 1000000000 = a.nanos.val := by omega
      rw [if_pos leap, last, Rfc3339.time_padded_leap inDay last (by omega), nanos]
    · have nanos : a.nanos.val % 1000000000 = a.nanos.val := by omega
      rw [if_neg leap, Nat.add_zero, Rfc3339.time_padded inDay (by omega), nanos]
  have whole : (⟨(Date.ofDays (a.seconds.fdiv 86400)).toDays * 86400 + (a.secondOfDay : Int) - 0,
      ⟨a.nanos.val, bound⟩⟩ : Instant) = a := by
    rw [Date.toDays_ofDays, Int.sub_zero, seconds]
  unfold read?
  rw [toList_text, Instant.date, Rfc3339.date_ofDays told]
  simp only [Option.bind_eq_bind, Option.bind_some, true_or, if_true, time]
  have zulu : Rfc3339.offset (trimStart ['Z']) = some (0, []) := by decide
  have done : trimStart [] = [] := rfl
  simp only [zulu, Option.bind_some, done, List.isEmpty_nil, dif_pos bound, whole, h.told]
  rfl

end Instant

/-! ## What is read can be written -/

namespace Rfc3339

open Text

theorem fraction_lt {s rest : List Char} {n : Nat} (h : fraction s = some (n, rest)) :
    n < 1000000000 := by
  unfold fraction at h
  split at h
  · next s =>
    dsimp only at h
    split at h
    · cases h
    · cases h
      have digits : ∀ c ∈ (s.takeWhile Char.isDigit).take 9, c.isDigit = true := fun c hc =>
        List.all_eq_true.1 List.all_takeWhile c (List.mem_of_mem_take hc)
      have short : ((s.takeWhile Char.isDigit).take 9).length ≤ 9 := by
        rw [List.length_take]
        exact Nat.min_le_left _ _
      have value := decimalValue_lt digits
      generalize (s.takeWhile Char.isDigit).take 9 = kept at value short
      have scaled : decimalValue kept * 10 ^ (9 - kept.length) <
          10 ^ kept.length * 10 ^ (9 - kept.length) :=
        Nat.mul_lt_mul_of_pos_right value (Nat.pow_pos (by decide))
      rw [← Nat.pow_add, Nat.add_sub_cancel' short] at scaled
      exact scaled
  · cases h
    decide

/-- Only a second at the end of a minute has a second half. -/
theorem time_leap {s rest : List Char} {second n : Nat} (h : time s = some ((second, n), rest))
    (leap : 1000000000 ≤ n) : second % 60 = 59 := by
  simp only [time, Option.bind_eq_bind, Option.bind_eq_some_iff] at h
  obtain ⟨⟨hour, _⟩, -, -, -, ⟨minute, _⟩, -, -, -, ⟨sec, _⟩, -, ⟨nanos, _⟩, hnanos, h⟩ := h
  have bound := fraction_lt hnanos
  dsimp only at h
  split at h
  · cases h
    omega
  · cases h
    omega

theorem offsetAmount_mod {s rest : List Char} {n : Nat} (h : offsetAmount s = some (n, rest)) :
    n % 60 = 0 := by
  unfold offsetAmount at h
  split at h
  · split at h
    · obtain ⟨⟨minutes, after⟩, -, h⟩ := Option.map_eq_some_iff.1 h
      cases h
      omega
    · cases h
  · cases h

/-- Offsets are whole minutes. -/
theorem offset_mod {s rest : List Char} {shift : Int} (h : offset s = some (shift, rest)) :
    shift % 60 = 0 := by
  unfold offset at h
  split at h
  · cases h
    decide
  · cases h
    decide
  · split at h
    · cases h
      decide
    · dsimp only at h
      split at h
      · next seconds after amount =>
        have whole := offsetAmount_mod amount
        split at h
        · cases h
        · split at h
          · cases h
            omega
          · split at h
            · cases h
              omega
            · cases h
      · cases h
  · cases h

end Rfc3339

namespace Instant

/-- A point of time that is read can be written. -/
theorem readable_of_read? {text : String} {a : Instant} (h : read? text = some a) : a.Readable := by
  simp only [read?, Option.bind_eq_bind, Option.bind_eq_some_iff] at h
  obtain ⟨⟨day, s⟩, -, h⟩ := h
  dsimp only at h
  split at h
  · split at h
    · simp only [Option.bind_some, Option.bind_eq_some_iff] at h
      obtain ⟨⟨⟨second, nanos⟩, _⟩, htime, ⟨shift, _⟩, hshift, h⟩ := h
      dsimp only at h
      split at h
      · cases h
      · split at h
        · split at h
          · next told =>
            cases h
            refine ⟨told, fun leap => ?_⟩
            have last := Rfc3339.time_leap htime leap
            have minutes := Rfc3339.offset_mod hshift
            show (day.toDays * 86400 + (second : Int) - shift) % 60 = 59
            omega
          · cases h
        · cases h
    · cases h
  · cases h

/-- The points of time that are read back are those that can be written. -/
theorem read?_text_iff {a : Instant} : read? a.text = some a ↔ a.Readable :=
  ⟨readable_of_read?, read?_text⟩

end Instant

end EventFlow
