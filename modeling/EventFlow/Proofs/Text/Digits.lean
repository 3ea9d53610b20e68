import EventFlow.Text.Digits
import Mathlib.Algebra.GroupWithZero.Nat
import Mathlib.Data.List.TakeDrop

/-!
# Digits are read back

A number that is written in digits, with zeros in front or without, is read back by everything that
reads a run of digits. A reader stops where the run does (`NoDigitAhead`) or where it has as many
digits as it may take. Numbers are written by `Text.padded` and read by `Text.number`, among others
(`EventFlow.Text.Digits`).
-/

set_option autoImplicit false

namespace EventFlow.Text

/-- The text does not go on with a digit. -/
def NoDigitAhead (s : List Char) : Prop := ∀ c ∈ s.head?, c.isDigit = false

theorem noDigitAhead_cons {c : Char} {s : List Char} (h : c.isDigit = false) :
    NoDigitAhead (c :: s) := by
  intro d hd
  cases hd
  exact h

section Runs

variable {digits s : List Char}

theorem takeWhile_digits (hdigits : ∀ c ∈ digits, c.isDigit = true) (hs : NoDigitAhead s) :
    (digits ++ s).takeWhile Char.isDigit = digits := by
  rw [List.takeWhile_append_of_pos hdigits]
  cases s with
  | nil => simp
  | cons c rest => simp [hs c rfl]

theorem span_digits (hdigits : ∀ c ∈ digits, c.isDigit = true) (hs : NoDigitAhead s) :
    (digits ++ s).span Char.isDigit = (digits, s) := by
  rw [List.span_eq_takeWhile_dropWhile, takeWhile_digits hdigits hs,
    List.dropWhile_append_of_pos hdigits]
  cases s with
  | nil => rfl
  | cons c rest => simp [hs c rfl]

/-- A run of digits is read as a number. -/
theorem number_digits (hdigits : ∀ c ∈ digits, c.isDigit = true) (some_digit : digits ≠ [])
    (hs : NoDigitAhead s) : number none (digits ++ s) = some (decimalValue digits, s) := by
  simp [number, takeWhile_digits hdigits hs, some_digit]

/-- As many digits as may be read are read as a number, whatever follows. -/
theorem number_of_length {width : Nat} (hdigits : ∀ c ∈ digits, c.isDigit = true)
    (hwidth : digits.length = width) (pos : 0 < width) :
    number (some width) (digits ++ s) = some (decimalValue digits, s) := by
  have some_digit : digits ≠ [] := by
    rintro rfl
    simp at hwidth
    omega
  have taken : ((digits ++ s).takeWhile Char.isDigit).take width = digits := by
    rw [List.takeWhile_append_of_pos hdigits, ← hwidth, List.take_left]
  simp [number, taken, some_digit]

end Runs

/-! ## Decimal digits of a number -/

theorem decimalValue_toDigits (n : Nat) : decimalValue (Nat.toDigits 10 n) = n := by
  have value := Nat.ofDigitChars_ten_toDigits (n := n)
  rw [Nat.ofDigitChars_eq_foldl] at value
  simp only [Nat.mul_comm 10] at value
  exact value

/-- A number other than zero does not begin with a zero. -/
theorem head?_toDigits_ne_zero {n : Nat} (pos : 0 < n) : (Nat.toDigits 10 n).head? ≠ some '0' := by
  induction n using Nat.strongRecOn with
  | ind n ih =>
    rw [Nat.toDigits_eq_if (by decide)]
    split
    · intro h
      have zero : n = 0 := Nat.digitChar_eq_zero.1 (Option.some.inj h)
      omega
    · have front := ih (n / 10) (by omega) (by omega)
      cases hfront : Nat.toDigits 10 (n / 10) with
      | nil => exact absurd hfront Nat.toDigits_ne_nil
      | cons c rest =>
        rw [hfront] at front
        exact front

theorem isDigit_of_mem_toDigits (n : Nat) : ∀ c ∈ Nat.toDigits 10 n, c.isDigit = true :=
  fun _ => Nat.isDigit_of_mem_toDigits (by decide) (by decide)

theorem isDigit_of_mem_padded (width n : Nat) : ∀ c ∈ padded width n, c.isDigit = true := by
  intro c hc
  rcases List.mem_append.1 hc with zero | digit
  · rw [List.eq_of_mem_replicate zero]
    decide
  · exact isDigit_of_mem_toDigits n c digit

/-- A number is read back from its digits alone. -/
theorem natural?_toDigits (n : Nat) : natural? (Nat.toDigits 10 n) = some n := by
  have digits := isDigit_of_mem_toDigits n
  have unsigned : ∀ rest, Nat.toDigits 10 n ≠ '+' :: rest := by
    intro rest signed
    have plus := digits '+' (signed ▸ List.mem_cons_self)
    exact absurd plus (by decide)
  have some_digit : (Nat.toDigits 10 n).isEmpty = false :=
    List.isEmpty_eq_false_iff.2 Nat.toDigits_ne_nil
  have all_digits : (Nat.toDigits 10 n).all Char.isDigit = true := List.all_eq_true.2 digits
  simp only [natural?, some_digit, all_digits, decimalValue_toDigits]
  rfl

theorem decimalValue_replicate_zero (k : Nat) : decimalValue (List.replicate k '0') = 0 := by
  induction k with
  | zero => rfl
  | succ k ih => exact ih

/-- Zeros in front of a number do not change it. -/
theorem decimalValue_padded (width n : Nat) : decimalValue (padded width n) = n := by
  have zeros := decimalValue_replicate_zero (width - (Nat.toDigits 10 n).length)
  have value := decimalValue_toDigits n
  unfold decimalValue at zeros value ⊢
  rw [padded, List.foldl_append, zeros, value]

theorem length_padded {width n : Nat} (pos : 0 < width) (h : n < 10 ^ width) :
    (padded width n).length = width := by
  have short := (Nat.length_toDigits_le_iff (by decide) pos).2 h
  rw [padded, List.length_append, List.length_replicate]
  omega

theorem padded_ne_nil (width n : Nat) : padded width n ≠ [] := by
  intro h
  have := (List.append_eq_nil_iff.1 h).2
  exact Nat.toDigits_ne_nil this

/-- A number with zeros in front is read back, if it is as long as may be read. -/
theorem number_padded {width n : Nat} (pos : 0 < width) (h : n < 10 ^ width) (s : List Char) :
    number (some width) (padded width n ++ s) = some (n, s) := by
  rw [number_of_length (isDigit_of_mem_padded width n) (length_padded pos h) pos,
    decimalValue_padded]

/-- Digits tell a number below the power of ten with as many zeros. -/
theorem decimalValue_lt {digits : List Char} (hdigits : ∀ c ∈ digits, c.isDigit = true) :
    decimalValue digits < 10 ^ digits.length := by
  have bound (ds : List Char) (hds : ∀ c ∈ ds, c.isDigit = true) (n : Nat) :
      ds.foldl (fun n d => n * 10 + (d.toNat - '0'.toNat)) n < (n + 1) * 10 ^ ds.length := by
    induction ds generalizing n with
    | nil => simp
    | cons c rest ih =>
      have digit := hds c List.mem_cons_self
      have small : c.toNat - '0'.toNat ≤ 9 := by
        simp only [Char.isDigit, Bool.and_eq_true, decide_eq_true_eq] at digit
        have high : c.toNat ≤ 57 := UInt32.le_iff_toNat_le.1 digit.2
        show c.toNat - 48 ≤ 9
        omega
      have next := ih (fun d hd => hds d (List.mem_cons_of_mem c hd))
        (n * 10 + (c.toNat - '0'.toNat))
      have step : (n * 10 + (c.toNat - '0'.toNat) + 1) * 10 ^ rest.length ≤
          (n * 10 + 10) * 10 ^ rest.length := Nat.mul_le_mul_right _ (by omega)
      have grown : (n * 10 + 10) * 10 ^ rest.length = (n + 1) * 10 ^ (c :: rest).length := by
        rw [List.length_cons, Nat.pow_succ, show n * 10 + 10 = (n + 1) * 10 by omega,
          Nat.mul_assoc, Nat.mul_comm 10]
      exact Nat.lt_of_lt_of_le next (grown ▸ step)
  have := bound digits hdigits 0
  simpa [decimalValue] using this

/-! ## Hexadecimal digits -/

theorem hexDigit?_digitChar {n : Nat} (h : n < 16) : hexDigit? (Nat.digitChar n) = some n := by
  have all : ∀ n < 16, hexDigit? (Nat.digitChar n) = some n := by decide
  exact all n h

end EventFlow.Text
