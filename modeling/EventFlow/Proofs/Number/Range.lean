import EventFlow.Proofs.Number.Whole
import Mathlib.Tactic.Ring

/-!
# Where doubles end

A ratio is rounded to a finite double exactly if it is below `Binary64.beyond`, which lies halfway
between the greatest double and the next power of two, and to zero exactly if it is at most half of
the least double (`Binary64.roundsAs_ofRatio`). The same holds of decimals, however many digits they
have (`Binary64.roundsAs_ofDecimal`). The rounding is `Binary64.roundRatio`, in
`EventFlow.Number.Binary64`.
-/

set_option autoImplicit false

namespace EventFlow.Binary64

/-! ## Rounded quotients -/

section Quotient

variable {a d k : Nat}

/-- Below an even number is what is nearer to the numbers below: a half goes to the even one. -/
theorem divideToEven_lt_iff (pos : 0 < d) (even : k % 2 = 0) :
    divideToEven a d < k ↔ 2 * a + d < 2 * (d * k) := by
  have cut := Nat.div_add_mod a d
  have rest := Nat.mod_lt a pos
  have sides : d * k ≤ d * (a / d) ∧ k ≤ a / d ∨ d * k = d * (a / d) + d ∧ k = a / d + 1 ∨
      d * (a / d) + 2 * d ≤ d * k ∧ a / d + 2 ≤ k := by
    rcases Nat.lt_trichotomy k (a / d + 1) with less | rfl | more
    · exact .inl ⟨Nat.mul_le_mul_left d (Nat.le_of_lt_succ less), Nat.le_of_lt_succ less⟩
    · exact .inr (.inl ⟨Nat.mul_succ d (a / d), rfl⟩)
    · have scaled := Nat.mul_le_mul_left d more
      rw [Nat.mul_succ, Nat.mul_succ] at scaled
      exact .inr (.inr ⟨by omega, more⟩)
  unfold divideToEven
  dsimp only
  split_ifs <;> omega

theorem divideToEven_eq_zero_iff (pos : 0 < d) : divideToEven a d = 0 ↔ 2 * a ≤ d := by
  by_cases less : a < d
  · have whole : a / d = 0 := Nat.div_eq_of_lt less
    have rest : a % d = a := Nat.mod_eq_of_lt less
    unfold divideToEven
    rw [whole, rest]
    dsimp only
    split_ifs <;> simp only [true_iff, false_iff] <;> omega
  · have whole : 0 < a / d := Nat.div_pos (Nat.not_lt.1 less) pos
    rcases divideToEven_cases a d with low | high <;> omega

theorem divideToEven_le (pos : 0 < d) (h : a ≤ k * d) : divideToEven a d ≤ k :=
  Nat.le_trans (divideToEven_mono d h) (Nat.le_of_eq (divideToEven_mul k pos))

theorem le_divideToEven (pos : 0 < d) (h : k * d ≤ a) : k ≤ divideToEven a d :=
  Nat.le_trans (Nat.le_of_eq (divideToEven_mul k pos).symm) (divideToEven_mono d h)

end Quotient

/-! ## Magnitudes of ratios -/

section Ratio

variable {units d : Nat}

/-- The magnitude nearest to a ratio of units of `2 ^ -1074`. -/
def roundUnits (units d : Nat) : Nat :=
  ((units / d).log2 - 52) * leadingBit + divideToEven units (d * 2 ^ ((units / d).log2 - 52))

theorem roundRatio_eq (num den : Nat) : roundRatio num den = roundUnits (num * one) den := by
  rw [roundRatio, shiftLeft_eq_mul_one, roundUnits, Nat.shiftLeft_eq]

/-- In the unit of its magnitude a ratio has at most 53 bits in front of the point. -/
theorem units_lt (pos : 0 < d) :
    units < 2 ^ 53 * (d * 2 ^ ((units / d).log2 - 52)) := by
  have bits : units / d < 2 ^ (53 + ((units / d).log2 - 52)) :=
    Nat.lt_of_lt_of_le Nat.lt_log2_self (Nat.pow_le_pow_right (by decide) (by omega))
  rw [Nat.div_lt_iff_lt_mul pos, Nat.pow_add, Nat.mul_assoc] at bits
  rwa [Nat.mul_comm d]

/-- Where the unit is not the least one, it has as many. -/
theorem le_units (pos : 0 < d) (more : 52 < (units / d).log2) :
    2 ^ 52 * (d * 2 ^ ((units / d).log2 - 52)) ≤ units := by
  have some_bit : units / d ≠ 0 := by
    intro none
    rw [none] at more
    cases more
  have bits : 2 ^ (52 + ((units / d).log2 - 52)) ≤ units / d := by
    rw [Nat.add_sub_cancel' (Nat.le_of_lt more)]
    exact Nat.log2_self_le some_bit
  rw [Nat.le_div_iff_mul_le pos, Nat.pow_add, Nat.mul_assoc] at bits
  rwa [Nat.mul_comm d]

/-- Each unit is twice the one before. -/
theorem mul_two_pow_le {e e' : Nat} (h : e < e') : 2 * (d * 2 ^ e) ≤ d * 2 ^ e' := by
  rw [Nat.mul_left_comm, ← Nat.pow_succ']
  exact Nat.mul_le_mul_left d (Nat.pow_le_pow_right (by decide) h)

/-- A ratio is rounded to a magnitude of a unit or a smaller one if it is below the 53 bits of the
unit, less half of it. -/
theorem roundUnits_lt_iff (pos : 0 < d) (e : Nat) :
    roundUnits units d < (e + 2) * leadingBit ↔
      2 * units + d * 2 ^ e < 2 ^ 54 * (d * 2 ^ e) := by
  have unit_pos (e : Nat) : 0 < d * 2 ^ e := Nat.mul_pos pos (Nat.two_pow_pos e)
  have below : units < 2 ^ 53 * (d * 2 ^ ((units / d).log2 - 52)) := units_lt pos
  have most := divideToEven_le (unit_pos _) (Nat.le_of_lt below)
  have least (more : 52 < (units / d).log2) := le_divideToEven (unit_pos _) (le_units pos more)
  have from_below (more : 52 < (units / d).log2) := le_units pos more
  unfold roundUnits leadingBit
  generalize hE : (units / d).log2 - 52 = E at *
  rcases Nat.lt_trichotomy E e with less | rfl | more
  · have units_of := mul_two_pow_le (d := d) less
    have := unit_pos e
    refine iff_of_true ?_ ?_ <;> omega
  · have half := divideToEven_lt_iff (a := units) (unit_pos E) (k := 2 ^ 53) (by decide)
    omega
  · have units_of := mul_two_pow_le (d := d) more
    have := least (by omega)
    have := from_below (by omega)
    refine iff_of_false ?_ ?_ <;> omega

/-- A ratio is rounded to zero if it is at most half of the least unit. -/
theorem roundUnits_eq_zero_iff (pos : 0 < d) : roundUnits units d = 0 ↔ 2 * units ≤ d := by
  by_cases least : (units / d).log2 ≤ 52
  · rw [roundUnits, Nat.sub_eq_zero_of_le least, Nat.zero_mul, Nat.zero_add, Nat.pow_zero,
      Nat.mul_one]
    exact divideToEven_eq_zero_iff pos
  · have more := Nat.not_le.1 least
    have unit := Nat.mul_le_mul_left d (Nat.two_pow_pos ((units / d).log2 - 52))
    have := le_units pos more
    refine iff_of_false ?_ ?_
    · rw [roundUnits, leadingBit]
      omega
    · omega

end Ratio

/-! ## What is rounded to what -/

/-- The least number beyond every double: it lies halfway between the greatest double and
`2 ^ 1024`. -/
@[irreducible] def beyond : Nat := (2 ^ 54 - 1) * 2 ^ 970

/-- What a ratio with a sign may be rounded to: a finite double, which is a zero where the ratio is
at most half of the least double, or an infinity. -/
inductive RoundsAs (negative : Bool) (num den : Nat) : Rounded → Prop
  | finite {x : Binary64} (below : num < beyond * den)
      (zero : x.isZero = true ↔ 2 * (num * one) ≤ den) : RoundsAs negative num den (.finite x)
  | infinite (above : beyond * den ≤ num) : RoundsAs negative num den (.infinite negative)

/-- The bound on units, as one on the ratio itself. -/
theorem lt_mul_iff {num den a b e : Nat} (exponents : e = a + 1 + b) :
    2 * (num * 2 ^ a) + den * 2 ^ e < 2 ^ 54 * (den * 2 ^ e) ↔
      num < (2 ^ 54 - 1) * 2 ^ b * den := by
  subst exponents
  have scale : den * 2 ^ (a + 1 + b) = 2 ^ a * (2 * (2 ^ b * den)) := by
    rw [Nat.pow_add, Nat.pow_succ]
    ring
  have units : 2 * (num * 2 ^ a) = 2 ^ a * (2 * num) := by ring
  have bound : 2 ^ 54 * (2 ^ a * (2 * (2 ^ b * den))) = 2 ^ a * (2 ^ 54 * (2 * (2 ^ b * den))) :=
    Nat.mul_left_comm _ _ _
  rw [scale, units, bound, ← Nat.mul_add, Nat.mul_lt_mul_left (Nat.two_pow_pos a), Nat.mul_assoc]
  omega

theorem one_eq : one = 2 ^ 1074 := by
  have power (k : Nat) : 1 <<< k = 2 ^ k := Nat.one_shiftLeft k
  unfold one
  exact power 1074

theorem roundRatio_lt_infinity_iff {num den : Nat} (pos : 0 < den) :
    roundRatio num den < infinity ↔ num < beyond * den := by
  have top : infinity = (2045 + 2) * leadingBit := rfl
  rw [roundRatio_eq, top, roundUnits_lt_iff pos, one_eq]
  unfold beyond
  exact lt_mul_iff rfl

theorem roundsAs_ofRatio (negative : Bool) {num den : Nat} (pos : 0 < den) :
    RoundsAs negative num den (ofRatio negative num den) := by
  have bound : roundRatio num den < infinity ↔ num < beyond * den := roundRatio_lt_infinity_iff pos
  unfold ofRatio
  dsimp only
  split
  · next fits =>
    have none : roundRatio num den = 0 ↔ 2 * (num * one) ≤ den := by
      rw [roundRatio_eq, roundUnits_eq_zero_iff pos]
    exact .finite (bound.1 fits) (beq_iff_eq.trans none)
  · next exceeds => exact .infinite (Nat.not_lt.1 fun below => exceeds (bound.2 below))

/-! ## Decimals -/

section Decimals

variable {digits k : Nat}

theorem beyond_pos : 0 < beyond := by
  unfold beyond
  decide +kernel

/-- Whatever has more than 400 digits before the point is beyond every double. -/
theorem beyond_le : beyond ≤ 10 ^ 400 := by
  unfold beyond
  decide +kernel

/-- Whatever begins more than 400 digits behind the point is less than half of the least double. -/
theorem two_mul_one_le : 2 * one ≤ 10 ^ 400 := by
  unfold one
  decide +kernel

theorem decimalLength_le_iff (pos : 0 < k) : decimalLength digits ≤ k ↔ digits < 10 ^ k :=
  Nat.length_toDigits_le_iff (by decide) pos

theorem le_of_decimalLength {n : Nat} (some_place : 0 < n) (long : n + k < decimalLength digits) :
    10 ^ n * 10 ^ k ≤ digits := by
  rw [← Nat.pow_add, ← Nat.not_lt, ← decimalLength_le_iff (Nat.add_pos_left some_place k)]
  exact Nat.not_le.2 long

theorem mul_lt_of_decimalLength {n : Nat} (short : decimalLength digits + n < k) :
    digits * 10 ^ n < 10 ^ k := by
  have few : digits < 10 ^ decimalLength digits :=
    (decimalLength_le_iff (List.length_pos_iff.2 Nat.toDigits_ne_nil)).1 (Nat.le_refl _)
  calc digits * 10 ^ n < 10 ^ decimalLength digits * 10 ^ n :=
        Nat.mul_lt_mul_of_pos_right few (Nat.pow_pos (by decide))
    _ = 10 ^ (decimalLength digits + n) := (Nat.pow_add _ _ _).symm
    _ ≤ 10 ^ k := Nat.pow_le_pow_right (by decide) (Nat.le_of_lt short)

theorem isZero_zero (negative : Bool) : ({ zero with negative } : Binary64).isZero = true := rfl

/-- A decimal is rounded as the ratio that it is. -/
theorem roundsAs_ofDecimal (negative : Bool) (digits k : Nat) :
    RoundsAs negative digits (10 ^ k) (ofDecimal negative digits (-k)) := by
  have power : 0 < 10 ^ k := Nat.pow_pos (by decide)
  unfold ofDecimal
  dsimp only
  split_ifs with none long short whole
  · subst none
    refine .finite (Nat.mul_pos beyond_pos power) (iff_of_true (isZero_zero negative) ?_)
    rw [Nat.zero_mul]
    exact Nat.zero_le _
  · have places : 10 ^ 400 * 10 ^ k ≤ digits := le_of_decimalLength (by decide) (by omega)
    exact .infinite (Nat.le_trans (Nat.mul_le_mul_right _ beyond_le) places)
  · have scaled : digits * 10 ^ 400 < 10 ^ k := mul_lt_of_decimalLength (by omega)
    refine .finite ?_ (iff_of_true (isZero_zero negative) ?_)
    · calc digits ≤ digits * 10 ^ 400 := Nat.le_mul_of_pos_right _ (Nat.pow_pos (by decide))
        _ < 10 ^ k := scaled
        _ ≤ beyond * 10 ^ k := Nat.le_mul_of_pos_left _ beyond_pos
    · calc 2 * (digits * one) = digits * (2 * one) := Nat.mul_left_comm _ _ _
        _ ≤ digits * 10 ^ 400 := Nat.mul_le_mul_left _ two_mul_one_le
        _ ≤ 10 ^ k := Nat.le_of_lt scaled
  · obtain rfl : k = 0 := by omega
    have ratio : RoundsAs negative digits 1 (ofRatio negative digits 1) :=
      roundsAs_ofRatio negative Nat.one_pos
    simpa using ratio
  · have ratio : RoundsAs negative digits (10 ^ k) (ofRatio negative digits (10 ^ k)) :=
      roundsAs_ofRatio negative power
    simpa using ratio

end Decimals

end EventFlow.Binary64
