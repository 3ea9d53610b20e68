import EventFlow.Json.Basic
import Mathlib.Algebra.GroupWithZero.Nat
import Mathlib.Order.Monotone.Basic

/-!
# Whole numbers as doubles

Doubles are compared by the positions they have among each other; their values in units of
`2 ^ -1074` are in the same order (`Binary64.lt_iff_units`). The double of a whole number is worth
the number with its 53 leading bits, the others rounded away (`Binary64.nearest`). That is the
number itself up to `2 ^ 53`, and it keeps the order of numbers, but not the difference between any
two of them. The order is that of `Binary64.rank`, and the double of a whole number is
`Binary64.ofInt` (`EventFlow.Number.Binary64`).
-/

set_option autoImplicit false

namespace EventFlow

namespace Binary64

/-! ## Nearest multiples -/

section Multiples

variable {a b d : Nat}

/-- A quotient is rounded down or up. -/
theorem divideToEven_cases (a d : Nat) :
    divideToEven a d = a / d ∨ divideToEven a d = a / d + 1 := by
  unfold divideToEven
  dsimp only
  split
  · exact .inl rfl
  · split
    · exact .inr rfl
    · split
      · exact .inl rfl
      · exact .inr rfl

/-- Rounding keeps the order of the dividends. -/
theorem divideToEven_mono (d : Nat) (h : a ≤ b) : divideToEven a d ≤ divideToEven b d := by
  have quotients : a / d ≤ b / d := Nat.div_le_div_right h
  rcases Nat.lt_or_eq_of_le quotients with less | same
  · rcases divideToEven_cases a d with low | low <;>
      rcases divideToEven_cases b d with high | high <;> omega
  · have cut := Nat.div_add_mod a d
    have cut' := Nat.div_add_mod b d
    have remains : a % d ≤ b % d := by
      rw [same] at cut
      omega
    unfold divideToEven
    rw [same]
    dsimp only
    split_ifs <;> omega

/-- A multiple of the divisor is not rounded. -/
theorem divideToEven_mul (k : Nat) (pos : 0 < d) : divideToEven (k * d) d = k := by
  simp [divideToEven, Nat.mul_div_cancel k pos, pos]

/-- A fraction may be expanded before it is rounded. -/
theorem divideToEven_scale (a d : Nat) {c : Nat} (pos : 0 < c) :
    divideToEven (a * c) (d * c) = divideToEven a d := by
  have less : 2 * (a % d) * c < d * c ↔ 2 * (a % d) < d := Nat.mul_lt_mul_right pos
  have more : d * c < 2 * (a % d) * c ↔ d < 2 * (a % d) := Nat.mul_lt_mul_right pos
  simp only [divideToEven, Nat.mul_div_mul_right _ _ pos, Nat.mul_mod_mul_right, ← Nat.mul_assoc,
    less, more]

/-- A power of two is a multiple of the smaller ones. -/
theorem divideToEven_two_pow {e k : Nat} (h : e ≤ k) :
    divideToEven (2 ^ k) (2 ^ e) * 2 ^ e = 2 ^ k := by
  have split : 2 ^ k = 2 ^ (k - e) * 2 ^ e := by rw [← Nat.pow_add, Nat.sub_add_cancel h]
  rw [split, divideToEven_mul _ (Nat.two_pow_pos e)]

end Multiples

/-! ## The 53 leading bits -/

/-- A natural number with its 53 leading bits; the others are rounded to nearest, ties to even. -/
def nearestNat (n : Nat) : Nat :=
  divideToEven n (2 ^ (n.log2 - 52)) * 2 ^ (n.log2 - 52)

/-- A power of two needs one bit only. -/
theorem nearestNat_two_pow (k : Nat) : nearestNat (2 ^ k) = 2 ^ k := by
  rw [nearestNat, Nat.log2_two_pow]
  exact divideToEven_two_pow (Nat.sub_le k 52)

/-- Rounding to 53 bits does not lose the leading bit. -/
theorem two_pow_le_nearestNat {n : Nat} (some_bit : n ≠ 0) : 2 ^ n.log2 ≤ nearestNat n := by
  rw [← divideToEven_two_pow (Nat.sub_le n.log2 52)]
  exact Nat.mul_le_mul_right _ (divideToEven_mono _ (Nat.log2_self_le some_bit))

/-- Rounding to 53 bits goes no further than the next power of two. -/
theorem nearestNat_le_two_pow (n : Nat) : nearestNat n ≤ 2 ^ (n.log2 + 1) := by
  rw [← divideToEven_two_pow (show n.log2 - 52 ≤ n.log2 + 1 by omega)]
  exact Nat.mul_le_mul_right _ (divideToEven_mono _ (Nat.le_of_lt Nat.lt_log2_self))

/-- Rounding to 53 bits keeps the order. Inside one power of two the unit is the same, and a power
of two lies between two that are not. -/
theorem nearestNat_mono {m n : Nat} (h : m ≤ n) : nearestNat m ≤ nearestNat n := by
  by_cases none : m = 0
  · subst none
    exact Nat.zero_le _
  · have some_bit : n ≠ 0 := by omega
    have bits : m.log2 ≤ n.log2 :=
      (Nat.le_log2 some_bit).2 (Nat.le_trans (Nat.log2_self_le none) h)
    rcases Nat.lt_or_eq_of_le bits with fewer | same
    · calc nearestNat m ≤ 2 ^ (m.log2 + 1) := nearestNat_le_two_pow m
        _ ≤ 2 ^ n.log2 := Nat.pow_le_pow_right (by decide) fewer
        _ ≤ nearestNat n := two_pow_le_nearestNat some_bit
    · rw [nearestNat, nearestNat, same]
      exact Nat.mul_le_mul_right _ (divideToEven_mono _ h)

/-- Up to `2 ^ 53` there is nothing to round. -/
theorem nearestNat_eq_self {n : Nat} (h : n ≤ 2 ^ 53) : nearestNat n = n := by
  rcases Nat.lt_or_eq_of_le h with less | rfl
  · have bits : n.log2 - 52 = 0 := by
      by_cases none : n = 0
      · subst none
        rfl
      · have := (Nat.log2_lt none).2 less
        omega
    rw [nearestNat, bits, Nat.pow_zero, Nat.mul_one]
    exact (congrArg (divideToEven · 1) (Nat.mul_one n)).symm.trans (divideToEven_mul n Nat.one_pos)
  · exact nearestNat_two_pow 53

/-! ## The values of magnitudes -/

/-- A magnitude below the leading bit is subnormal: it counts its units itself. -/
theorem unitsOf_of_lt {k : Nat} (h : k < leadingBit) : unitsOf k = k := by
  have small : k / leadingBit = 0 := Nat.div_eq_of_lt h
  rw [unitsOf, significandOf, if_pos h, exponentOf, small]
  rfl

/-- The value of a significand with an exponent; one bit too many is the next power of two. -/
theorem unitsOf_add (e : Nat) {s : Nat} (low : 2 ^ 52 ≤ s) (high : s ≤ 2 ^ 53) :
    unitsOf (e * leadingBit + s) = s * 2 ^ e := by
  have large : ¬ e * leadingBit + s < leadingBit := by
    rw [leadingBit]
    omega
  rw [unitsOf, significandOf, if_neg large, exponentOf, Nat.shiftLeft_eq]
  rcases Nat.lt_or_eq_of_le high with less | rfl
  · have exponent : (e * leadingBit + s) / leadingBit - 1 = e := by
      rw [leadingBit]
      omega
    have significand : leadingBit + (e * leadingBit + s) % leadingBit = s := by
      rw [leadingBit]
      omega
    rw [exponent, significand]
  · have exponent : (e * leadingBit + 2 ^ 53) / leadingBit - 1 = e + 1 := by
      rw [leadingBit]
      omega
    have significand : leadingBit + (e * leadingBit + 2 ^ 53) % leadingBit = 2 ^ 52 := by
      rw [leadingBit]
      omega
    have carried : 2 ^ 52 * 2 ^ (e + 1) = 2 ^ 53 * 2 ^ e :=
      calc 2 ^ 52 * 2 ^ (e + 1) = 2 ^ (52 + (e + 1)) := (Nat.pow_add 2 52 (e + 1)).symm
        _ = 2 ^ (53 + e) := congrArg (2 ^ ·) (by omega)
        _ = 2 ^ 53 * 2 ^ e := Nat.pow_add 2 53 e
    rw [exponent, significand]
    exact carried

/-- Neighbouring magnitudes are neighbouring values. -/
theorem unitsOf_lt_succ (k : Nat) : unitsOf k < unitsOf (k + 1) := by
  by_cases small : k < leadingBit
  · have next : unitsOf (k + 1) = k + 1 := by
      by_cases below : k + 1 < leadingBit
      · exact unitsOf_of_lt below
      · have last : k + 1 = 0 * leadingBit + 2 ^ 52 := by
          rw [leadingBit] at *
          omega
        rw [last, unitsOf_add 0 (Nat.le_refl _) (by decide)]
        rfl
    rw [unitsOf_of_lt small, next]
    exact Nat.lt_succ_self k
  · obtain ⟨e, s, low, high, rfl⟩ :
        ∃ e s, 2 ^ 52 ≤ s ∧ s + 1 ≤ 2 ^ 53 ∧ k = e * leadingBit + s := by
      refine ⟨k / leadingBit - 1, leadingBit + k % leadingBit, ?_, ?_, ?_⟩ <;>
        · rw [leadingBit] at *
          omega
    rw [unitsOf_add e low (by omega), Nat.add_assoc, unitsOf_add e (by omega) high]
    exact Nat.mul_lt_mul_of_pos_right (Nat.lt_succ_self s) (Nat.two_pow_pos e)

/-- Magnitudes are in the order of what they are worth. -/
theorem unitsOf_strictMono : StrictMono unitsOf := strictMono_nat_of_lt_succ unitsOf_lt_succ

/-! ## The doubles of natural numbers -/

section Rounding

variable {n : Nat}

/-- The 53 leading bits of a natural number as a number: `2 ^ 53` where they are rounded up to the
next power of two. -/
def leadingBits (n : Nat) : Nat := divideToEven (n * 2 ^ 52) (2 ^ n.log2)

/-- The 53 leading bits of a number, put back into their place, are the number rounded. -/
theorem leadingBits_mul (some_bit : n ≠ 0) :
    leadingBits n * 2 ^ n.log2 = nearestNat n * 2 ^ 52 := by
  rcases Nat.lt_or_ge n.log2 52 with short | long
  · have small : n ≤ 2 ^ 53 :=
      Nat.le_trans (Nat.le_of_lt ((Nat.log2_lt some_bit).1 short)) (by decide)
    have whole : n * 2 ^ 52 = n * 2 ^ (52 - n.log2) * 2 ^ n.log2 := by
      rw [Nat.mul_assoc, ← Nat.pow_add, Nat.sub_add_cancel (Nat.le_of_lt short)]
    rw [nearestNat_eq_self small, leadingBits, whole, divideToEven_mul _ (Nat.two_pow_pos _)]
  · have split : 2 ^ n.log2 = 2 ^ (n.log2 - 52) * 2 ^ 52 := by
      rw [← Nat.pow_add, Nat.sub_add_cancel long]
    rw [leadingBits, split, divideToEven_scale _ _ (Nat.two_pow_pos 52), nearestNat, Nat.mul_assoc]

/-- The leading bits of a number fill 53 places. -/
theorem le_leadingBits (some_bit : n ≠ 0) : 2 ^ 52 ≤ leadingBits n := by
  refine Nat.le_of_mul_le_mul_right ?_ (Nat.two_pow_pos n.log2)
  rw [leadingBits_mul some_bit, Nat.mul_comm]
  exact Nat.mul_le_mul_right _ (two_pow_le_nearestNat some_bit)

/-- The leading bits of a number fill no more than 53 places, or are rounded up to the next power of
two. -/
theorem leadingBits_le (some_bit : n ≠ 0) : leadingBits n ≤ 2 ^ 53 := by
  refine Nat.le_of_mul_le_mul_right ?_ (Nat.two_pow_pos n.log2)
  rw [leadingBits_mul some_bit, ← Nat.pow_add, show 53 + n.log2 = n.log2 + 1 + 52 by omega,
    Nat.pow_add]
  exact Nat.mul_le_mul_right _ (nearestNat_le_two_pow n)

theorem log2_mul_two_pow (some_bit : n ≠ 0) (k : Nat) : (n * 2 ^ k).log2 = n.log2 + k := by
  rw [Nat.log2_eq_iff (Nat.mul_ne_zero some_bit (Nat.two_pow_pos k).ne'), Nat.pow_add,
    Nat.add_right_comm, Nat.pow_add]
  exact ⟨Nat.mul_le_mul_right _ (Nat.log2_self_le some_bit),
    Nat.mul_lt_mul_of_pos_right Nat.lt_log2_self (Nat.two_pow_pos k)⟩

/-- A number in smaller units has the same leading bits. -/
theorem divideToEven_shiftLeft (n k : Nat) :
    divideToEven (n <<< (52 + k)) (1 <<< (n.log2 + k)) = leadingBits n := by
  rw [Nat.shiftLeft_eq, Nat.shiftLeft_eq, Nat.pow_add, Nat.pow_add, ← Nat.mul_assoc,
    ← Nat.mul_assoc, divideToEven_scale _ _ (Nat.two_pow_pos k), Nat.one_mul, leadingBits]

theorem log2_shiftLeft (some_bit : n ≠ 0) (k : Nat) :
    (n <<< (52 + k)).log2 - 52 = n.log2 + k := by
  rw [Nat.shiftLeft_eq, log2_mul_two_pow some_bit]
  omega

theorem unitsOf_leadingBits (some_bit : n ≠ 0) (k : Nat) :
    unitsOf ((n.log2 + k) * leadingBit + leadingBits n) = nearestNat n <<< (52 + k) := by
  rw [unitsOf_add _ (le_leadingBits some_bit) (leadingBits_le some_bit), Nat.pow_add,
    ← Nat.mul_assoc, leadingBits_mul some_bit, Nat.mul_assoc, ← Nat.pow_add, Nat.shiftLeft_eq]

/-- The exponent and the leading bits of a natural number make its magnitude. -/
theorem roundRatio_of_ne_zero (some_bit : n ≠ 0) :
    roundRatio n 1 = (n.log2 + 1022) * leadingBit + leadingBits n := by
  have exponent : (n <<< 1074).log2 - 52 = n.log2 + 1022 := log2_shiftLeft some_bit 1022
  have significand := divideToEven_shiftLeft n 1022
  rw [roundRatio, Nat.div_one, exponent]
  exact congrArg _ significand

/-- The double nearest to a natural number is worth the number with its 53 leading bits. -/
theorem unitsOf_roundRatio (n : Nat) : unitsOf (roundRatio n 1) = nearestNat n <<< 1074 := by
  by_cases none : n = 0
  · subst none
    rfl
  · rw [roundRatio_of_ne_zero none]
    exact unitsOf_leadingBits none 1022

/-- A number of 64 bits is far from infinity. -/
theorem roundRatio_lt (h : n < 2 ^ 64) : roundRatio n 1 < infinity := by
  by_cases none : n = 0
  · subst none
    decide +kernel
  · have bits := (Nat.log2_lt none).2 h
    have leading := leadingBits_le none
    rw [roundRatio_of_ne_zero none, infinity, leadingBit]
    omega

end Rounding

/-! ## The values of doubles -/

/-- One in units of `2 ^ -1074`. -/
@[irreducible] def one : Nat := 1 <<< 1074

theorem one_pos : 0 < one := by
  unfold one
  exact Nat.lt_of_lt_of_eq (Nat.two_pow_pos 1074) (Nat.one_shiftLeft 1074).symm

theorem shiftLeft_eq_mul_one (n : Nat) : n <<< 1074 = n * one := by
  have scaled (k : Nat) : n <<< k = n * 1 <<< k := by
    rw [Nat.shiftLeft_eq, Nat.one_shiftLeft]
  unfold one
  exact scaled 1074

/-- The value of a double in units of `2 ^ -1074`. -/
def units (x : Binary64) : Int :=
  if x.negative then -(unitsOf x.magnitude : Int) else unitsOf x.magnitude

/-- Doubles are ordered as what they are worth. -/
theorem rank_lt_rank_iff {x y : Binary64} : x.rank < y.rank ↔ x.units < y.units := by
  have order (a b : Nat) : unitsOf a < unitsOf b ↔ a < b := unitsOf_strictMono.lt_iff_lt
  have zero : unitsOf 0 = 0 := rfl
  have forth := order x.magnitude y.magnitude
  have back := order y.magnitude x.magnitude
  have some_x := order 0 x.magnitude
  have some_y := order 0 y.magnitude
  rw [zero] at some_x some_y
  unfold rank units
  split <;> split <;> omega

/-- Doubles are in the order of their values. -/
theorem lt_iff_units {x y : Binary64} : x.lt y = true ↔ x.units < y.units :=
  lt_iff_rank.trans rank_lt_rank_iff

/-- Doubles are equal if they are worth the same, as the two zeros are. -/
theorem eq_iff_units {x y : Binary64} : x.eq y = true ↔ x.units = y.units := by
  have less := @rank_lt_rank_iff x y
  have more := @rank_lt_rank_iff y x
  rw [eq_iff_rank]
  omega

/-- An integer with its 53 leading bits; the others are rounded to nearest, ties to even. -/
def nearest (n : Int) : Int := n.sign * nearestNat n.natAbs

/-- An integer of 53 bits is its own double. -/
theorem nearest_eq_self {n : Int} (h : n.natAbs ≤ 2 ^ 53) : nearest n = n := by
  rw [nearest, nearestNat_eq_self h, Int.sign_mul_natAbs]

theorem nearest_neg (n : Int) : nearest (-n) = -nearest n := by
  rw [nearest, nearest, Int.sign_neg, Int.natAbs_neg, Int.neg_mul]

theorem nearest_natCast (n : Nat) : nearest n = nearestNat n := by
  by_cases none : n = 0
  · subst none
    rfl
  · rw [nearest, Int.sign_natCast_of_ne_zero none, Int.natAbs_natCast, Int.one_mul]

/-- Rounding keeps the order of numbers. -/
theorem nearest_mono {m n : Int} (h : m ≤ n) : nearest m ≤ nearest n := by
  obtain ⟨a, rfl | rfl⟩ := m.eq_nat_or_neg <;> obtain ⟨b, rfl | rfl⟩ := n.eq_nat_or_neg
  · rw [nearest_natCast, nearest_natCast]
    exact Int.ofNat_le.2 (nearestNat_mono (by omega))
  · obtain ⟨rfl, rfl⟩ : a = 0 ∧ b = 0 := by omega
    exact Int.le_refl _
  · rw [nearest_neg, nearest_natCast, nearest_natCast]
    omega
  · rw [nearest_neg, nearest_neg, nearest_natCast, nearest_natCast]
    exact Int.neg_le_neg (Int.ofNat_le.2 (nearestNat_mono (by omega)))

/-- The double of a number of 64 bits is worth the number rounded to 53 bits, with its sign. -/
theorem exists_ofRatio (negative : Bool) {n : Nat} (h : n < 2 ^ 64) :
    ∃ x, ofRatio negative n 1 = .finite x ∧
      x.units = if negative then -(nearestNat n * one : Int) else nearestNat n * one := by
  have fits := roundRatio_lt h
  have value : (unitsOf (roundRatio n 1) : Int) = nearestNat n * one := by
    rw [unitsOf_roundRatio, shiftLeft_eq_mul_one, Int.natCast_mul]
  exact ⟨⟨negative, roundRatio n 1, fits⟩, dif_pos fits, by rw [units, value]⟩

/-- The double of an integer is worth the integer with its 53 leading bits. -/
theorem exists_ofInt {n : Int} (h : n.natAbs < 2 ^ 64) :
    ∃ x, ofInt n = .finite x ∧ x.units = nearest n * one := by
  obtain ⟨x, rounded, value⟩ := exists_ofRatio (decide (n < 0)) h
  refine ⟨x, rounded, value.trans ?_⟩
  obtain ⟨m, rfl | rfl⟩ := n.eq_nat_or_neg
  · have positive : decide ((m : Int) < 0) = false := decide_eq_false (by omega)
    rw [positive, nearest_natCast, Int.natAbs_natCast]
    rfl
  · rw [nearest_neg, nearest_natCast, Int.natAbs_neg, Int.natAbs_natCast, Int.neg_mul]
    by_cases none : m = 0
    · subst none
      have nothing : (nearestNat 0 : Int) * one = 0 := Int.zero_mul one
      rw [nothing]
      rfl
    · exact if_pos (decide_eq_true (by omega))

end Binary64

namespace JsonInteger

variable (n : JsonInteger)

/-- An integer that is written without fraction has 64 bits. -/
theorem natAbs_lt : n.val.natAbs < 2 ^ 64 := by
  have := n.lower
  have := n.upper
  omega

/-- An integer that is kept exactly has a double, which is worth its 53 leading bits. -/
theorem ofInt_val : Binary64.ofInt n.val = .finite (JsonNumber.integer n).toBinary64 := by
  obtain ⟨x, rounded, -⟩ := Binary64.exists_ofInt n.natAbs_lt
  rw [JsonNumber.toBinary64, rounded]
  rfl

/-- The double of an integer is worth the integer rounded to 53 bits. -/
theorem units_toBinary64 :
    (JsonNumber.integer n).toBinary64.units = Binary64.nearest n.val * Binary64.one := by
  obtain ⟨x, rounded, value⟩ := Binary64.exists_ofInt n.natAbs_lt
  rw [JsonNumber.toBinary64, rounded]
  exact value

end JsonInteger

end EventFlow
