import EventFlow.Number.Shortest
import EventFlow.Proofs.Number.Whole
import EventFlow.Proofs.Text.Digits
import Mathlib.Tactic.Linarith
import Mathlib.Tactic.Ring

/-!
# The text of whole doubles

Up to `2 ^ 53` the neighbours of a whole number are no further from its double than the double's own
neighbours are, so no other decimal without a fraction reads back as it: the fewest digits are those
of the number without the zeros at their end (`shortest_whole`), and the text is the number with one
zero after the point (`toList_text_whole`). Digits are looked for by `Binary64.shortest` and laid
out by `FloatLayout.text`, in `EventFlow.Number.Shortest`.
-/

set_option autoImplicit false

namespace EventFlow

namespace Binary64

/-! ## The fewest digits -/

theorem one_shiftLeft_1074 : 1 <<< 1074 = one :=
  (shiftLeft_eq_mul_one 1).trans (Nat.one_mul one)

theorem one_shiftLeft_1075 : 1 <<< 1075 = 2 * one := by
  have double (k : Nat) : 1 <<< (k + 1) = 2 * 1 <<< k := by
    rw [Nat.one_shiftLeft, Nat.one_shiftLeft, Nat.pow_succ']
  rw [← one_shiftLeft_1074]
  exact double 1074

theorem inSteps_natCast (num den e : Nat) : inSteps num den (e : Int) = (num, den * 10 ^ e) := by
  rw [inSteps, if_pos (Int.natCast_nonneg e)]
  rfl

section Whole

variable {magnitude n c e : Nat}

theorem unitsOf_eq_iff {k l : Nat} : unitsOf k = unitsOf l ↔ k = l :=
  unitsOf_strictMono.injective.eq_iff

theorem unitsOf_roundRatio_of_le (h : n ≤ 2 ^ 53) : unitsOf (roundRatio n 1) = n * one := by
  rw [unitsOf_roundRatio, shiftLeft_eq_mul_one, nearestNat_eq_self h]

/-- A magnitude that is worth more than a whole number is more than its double. -/
theorem roundRatio_lt_iff (h : n ≤ 2 ^ 53) :
    roundRatio n 1 < magnitude ↔ n * one < unitsOf magnitude := by
  rw [← unitsOf_strictMono.lt_iff_lt, unitsOf_roundRatio_of_le h]

theorem lt_roundRatio_iff (h : n ≤ 2 ^ 53) :
    magnitude < roundRatio n 1 ↔ unitsOf magnitude < n * one := by
  rw [← unitsOf_strictMono.lt_iff_lt, unitsOf_roundRatio_of_le h]

theorem magnitude_pos (worth : unitsOf magnitude = n * one) (pos : 0 < n) : 0 < magnitude := by
  rw [← unitsOf_strictMono.lt_iff_lt, worth]
  exact Nat.mul_pos pos one_pos

/-- The neighbour below a whole double is at least as large as the number below. -/
theorem le_unitsOf_sub_one (worth : unitsOf magnitude = (n + 1) * one) (small : n ≤ 2 ^ 53) :
    n * one ≤ unitsOf (magnitude - 1) := by
  have below : roundRatio n 1 < magnitude := by
    rw [roundRatio_lt_iff small, worth]
    exact Nat.mul_lt_mul_of_pos_right (Nat.lt_succ_self n) one_pos
  rw [← unitsOf_roundRatio_of_le small]
  exact unitsOf_strictMono.monotone (by omega)

/-- The neighbour above a whole double is at most as large as the number above. -/
theorem unitsOf_add_one_le (worth : unitsOf magnitude = n * one) (small : n < 2 ^ 53) :
    unitsOf (magnitude + 1) ≤ (n + 1) * one := by
  have above : magnitude < roundRatio (n + 1) 1 := by
    rw [lt_roundRatio_iff small, worth]
    exact Nat.mul_lt_mul_of_pos_right (Nat.lt_succ_self n) one_pos
  rw [← unitsOf_roundRatio_of_le small]
  exact unitsOf_strictMono.monotone above

/-- The whole decimals that read back lie between the midpoints to the neighbours. -/
theorem readsBack_natCast (h : readsBack magnitude e c = true) :
    unitsOf (magnitude - 1) + unitsOf magnitude ≤ c * 10 ^ e * (2 * one) ∧
      c * 10 ^ e * (2 * one) ≤ unitsOf magnitude + unitsOf (magnitude + 1) := by
  have scaled : c * (2 * one * 10 ^ e) = c * 10 ^ e * (2 * one) := by ring
  unfold readsBack at h
  rw [one_shiftLeft_1075, inSteps_natCast, inSteps_natCast] at h
  dsimp only at h
  rw [scaled] at h
  split at h
  · simpa only [Bool.and_eq_true, decide_eq_true_eq] using h
  · simp only [Bool.and_eq_true, decide_eq_true_eq] at h
    exact ⟨Nat.le_of_lt h.1, Nat.le_of_lt h.2⟩

/-- No decimal without a fraction reads back as a whole double but its own number. -/
theorem eq_of_readsBack (worth : unitsOf magnitude = n * one) (pos : 0 < n) (small : n < 2 ^ 53)
    (h : readsBack magnitude e c = true) : c * 10 ^ e = n := by
  obtain ⟨m, rfl⟩ := Nat.exists_eq_add_of_lt pos
  rw [Nat.zero_add] at *
  obtain ⟨low, high⟩ := readsBack_natCast h
  have below := le_unitsOf_sub_one worth (by omega)
  have above := unitsOf_add_one_le worth small
  rw [worth] at low high
  have at_least : (2 * m + 1) * one ≤ 2 * (c * 10 ^ e) * one := by linarith
  have at_most : 2 * (c * 10 ^ e) * one ≤ (2 * m + 3) * one := by linarith
  have := Nat.le_of_mul_le_mul_right at_least one_pos
  have := Nat.le_of_mul_le_mul_right at_most one_pos
  omega

/-- The number of a whole double reads back as it. -/
theorem readsBack_self (worth : unitsOf magnitude = n * one) (pos : 0 < n) :
    readsBack magnitude 0 n = true := by
  have some_magnitude := magnitude_pos worth pos
  have below : unitsOf (magnitude - 1) < unitsOf magnitude := unitsOf_strictMono (by omega)
  have above := unitsOf_lt_succ magnitude
  have scaled : n * (2 * one * 10 ^ 0) = unitsOf magnitude + unitsOf magnitude := by
    rw [worth]
    ring
  have steps (num den : Nat) : inSteps num den 0 = (num, den * 10 ^ 0) := inSteps_natCast num den 0
  unfold readsBack
  rw [one_shiftLeft_1075, steps, steps]
  dsimp only
  rw [scaled]
  split
  · rw [decide_eq_true (by omega), decide_eq_true (by omega)]
    rfl
  · rw [decide_eq_true (by omega), decide_eq_true (by omega)]
    rfl

/-- Counted in ones, a whole double is its number. -/
theorem onGrid_zero (worth : unitsOf magnitude = n * one) (pos : 0 < n) :
    onGrid magnitude 0 = some n := by
  have steps : inSteps (n * one) one 0 = (n * one, one) := by
    rw [← Int.natCast_zero, inSteps_natCast, Nat.pow_zero, Nat.mul_one]
  unfold onGrid
  rw [one_shiftLeft_1074, worth, steps]
  dsimp only
  rw [Nat.mul_div_cancel n one_pos, Nat.mul_mod_left, Nat.mul_zero, decide_eq_true one_pos,
    Bool.true_or, if_pos rfl, List.find?_cons_of_pos (readsBack_self worth pos)]

/-- A count of steps that is found reads back. -/
theorem readsBack_of_onGrid {k : Int} (h : onGrid magnitude k = some c) :
    readsBack magnitude k c = true := by
  unfold onGrid at h
  dsimp only at h
  exact List.find?_some h

theorem decade_whole (pos : 0 < n) : decade (n * one) one = decimalLength n := by
  rw [decade, if_pos (Nat.le_mul_of_pos_left one pos), Nat.mul_div_cancel n one_pos]

/-- The first of the numbers below a bound for which there is a result is no later than any other
for which there is one. -/
theorem exists_le_of_findSome?_range {α : Type} (f : Nat → Option α) {bound i : Nat}
    (inside : i < bound) (h : (f i).isSome) :
    ∃ j ≤ i, ∃ a, f j = some a ∧ (List.range bound).findSome? f = some a := by
  have found : ((List.range bound).findSome? f).isSome := by
    rw [List.isSome_findSome?, List.any_eq_true]
    exact ⟨i, List.mem_range.2 inside, h⟩
  obtain ⟨a, found⟩ := Option.isSome_iff_exists.1 found
  obtain ⟨front, j, back, cut, here, none⟩ := List.findSome?_eq_some_iff.1 found
  refine ⟨j, ?_, a, here, found⟩
  have sorted : (front ++ j :: back).Pairwise (· < ·) := cut ▸ List.pairwise_lt_range
  have among : i ∈ front ++ j :: back := cut ▸ List.mem_range.2 inside
  rw [List.mem_append, List.mem_cons] at among
  rcases among with before | rfl | after
  · rw [none i before] at h
    cases h
  · exact Nat.le_refl i
  · exact Nat.le_of_lt ((List.pairwise_cons.1 (List.pairwise_append.1 sorted).2.1).1 i after)

theorem shortest_of_lt (worth : unitsOf magnitude = n * one) (pos : 0 < n) (small : n < 2 ^ 53) :
    ∃ c e : Nat, shortest magnitude = ⟨c, e⟩ ∧ c * 10 ^ e = n := by
  have some_magnitude : magnitude ≠ 0 := (magnitude_pos worth pos).ne'
  have short : decimalLength n ≤ 16 :=
    (Nat.length_toDigits_le_iff (by decide) (by decide)).2 (Nat.lt_trans small (by decide))
  obtain ⟨last, length⟩ : ∃ last, decimalLength n = last + 1 :=
    Nat.exists_eq_succ_of_ne_zero (List.length_pos_iff.2 Nat.toDigits_ne_nil).ne'
  -- Counted in ones the number itself is found, so what is found first is counted in no less.
  have ones : onGrid magnitude ((decimalLength n : Int) - ((last : Int) + 1)) = some n := by
    rw [length, Int.natCast_add, Int.natCast_one, Int.sub_self, onGrid_zero worth pos]
  obtain ⟨j, early, decimal, here, found⟩ := exists_le_of_findSome?_range
    (fun j : Nat => (onGrid magnitude ((decimalLength n : Int) - ((j : Int) + 1))).map
      fun digits => Decimal.mk digits ((decimalLength n : Int) - ((j : Int) + 1)))
    (show last < 17 by omega) (by rw [ones]; rfl)
  obtain ⟨c, grid, rfl⟩ := Option.map_eq_some_iff.1 here
  obtain ⟨e, exponent⟩ : ∃ e : Nat, (decimalLength n : Int) - ((j : Int) + 1) = e :=
    Int.eq_ofNat_of_zero_le (by omega)
  refine ⟨c, e, ?_, ?_⟩
  · unfold shortest
    rw [if_neg some_magnitude, one_shiftLeft_1074, worth, decade_whole pos]
    dsimp only
    rw [found, ← exponent]
    rfl
  · rw [exponent] at grid
    exact eq_of_readsBack worth pos small (readsBack_of_onGrid grid)

/-- The fewest digits of a whole double are those of its number but for zeros at their end. -/
theorem shortest_whole (worth : unitsOf magnitude = n * one) (pos : 0 < n) (small : n ≤ 2 ^ 53) :
    ∃ c e : Nat, shortest magnitude = ⟨c, e⟩ ∧ c * 10 ^ e = n := by
  rcases Nat.lt_or_eq_of_le small with less | rfl
  · exact shortest_of_lt worth pos less
  · -- The double above is two further, so the argument by neighbours does not do.
    have largest : shortest (roundRatio (2 ^ 53) 1) = ⟨2 ^ 53, 0⟩ := by decide +kernel
    rw [← unitsOf_roundRatio_of_le small, unitsOf_eq_iff] at worth
    exact ⟨2 ^ 53, 0, worth ▸ largest, Nat.mul_one _⟩

end Whole

end Binary64

namespace FloatLayout

/-! ## The text -/

variable {digits : List Char}

/-- The zeros that are dropped stood at the end. -/
theorem dropZeros_append (digits : List Char) (exponent : Int) :
    (dropZeros digits exponent).1 ++
      List.replicate (digits.length - (dropZeros digits exponent).1.length) '0' = digits := by
  have cut := congrArg List.reverse
    (List.takeWhile_append_dropWhile (p := (· == '0')) (l := digits.reverse))
  have zeros : digits.reverse.takeWhile (· == '0') =
      List.replicate (digits.reverse.takeWhile (· == '0')).length '0' :=
    List.eq_replicate_of_mem fun c among => by
      simpa using List.all_eq_true.1 List.all_takeWhile c among
  rw [List.reverse_append, List.reverse_reverse, zeros, List.reverse_replicate] at cut
  have lengths := congrArg List.length cut
  rw [List.length_append, List.length_replicate] at lengths
  rw [show digits.length - (dropZeros digits exponent).1.length =
    (digits.reverse.takeWhile (· == '0')).length by unfold dropZeros; dsimp only; omega]
  exact cut

theorem toDigits_mul_ten_pow {c : Nat} (pos : 0 < c) (e : Nat) :
    Nat.toDigits 10 (c * 10 ^ e) = Nat.toDigits 10 c ++ List.replicate e '0' := by
  induction e with
  | zero => rw [Nat.pow_zero, Nat.mul_one, List.replicate_zero, List.append_nil]
  | succ e ih =>
    have step := Nat.toDigits_append_toDigits (b := 10) (n := c * 10 ^ e) (d := 0) (by decide)
      (Nat.mul_pos pos (Nat.pow_pos (by decide))) (by decide)
    rw [Nat.pow_succ, ← Nat.mul_assoc, Nat.mul_comm _ 10, ← Nat.add_zero (10 * _), ← step, ih,
      List.append_assoc, List.replicate_succ']
    rfl

/-- Digits before the point are filled up with zeros. -/
theorem plain_natCast {point : Nat} (pos : 0 < point) (fits : digits.length ≤ point) :
    plain digits point =
      digits ++ List.replicate (point - digits.length) '0' ++ ['.', '0'] := by
  unfold plain
  rw [if_neg (by omega)]
  dsimp only
  rw [Int.toNat_natCast, if_pos fits]

theorem length_dropZeros_le (digits : List Char) (exponent : Int) :
    (dropZeros digits exponent).1.length ≤ digits.length := by
  have lengths := congrArg List.length (dropZeros_append digits exponent)
  rw [List.length_append] at lengths
  omega

/-- The point stays where it is. -/
theorem point_dropZeros (digits : List Char) (exponent : Int) :
    ((dropZeros digits exponent).1.length : Int) + (dropZeros digits exponent).2 =
      digits.length + exponent := by
  have fits := length_dropZeros_le digits exponent
  have moved : (dropZeros digits exponent).2 =
      exponent + ((digits.length - (dropZeros digits exponent).1.length : Nat) : Int) := rfl
  rw [moved]
  omega

/-- Zeros that are dropped and filled up again leave the digits of the number. -/
theorem plain_dropZeros {c : Nat} (pos : 0 < c) (e : Nat) :
    plain (dropZeros (Nat.toDigits 10 c) e).1 ((Nat.toDigits 10 (c * 10 ^ e)).length : Nat) =
      Nat.toDigits 10 (c * 10 ^ e) ++ ['.', '0'] := by
  have digits := toDigits_mul_ten_pow pos e
  have length := congrArg List.length digits
  rw [List.length_append, List.length_replicate] at length
  have fits := length_dropZeros_le (Nat.toDigits 10 c) e
  have all := dropZeros_append (Nat.toDigits 10 c) e
  have zeros : (Nat.toDigits 10 (c * 10 ^ e)).length -
      (dropZeros (Nat.toDigits 10 c) e).1.length =
      (Nat.toDigits 10 c).length - (dropZeros (Nat.toDigits 10 c) e).1.length + e := by omega
  rw [plain_natCast (List.length_pos_iff.2 Nat.toDigits_ne_nil) (by omega), zeros,
    ← List.replicate_append_replicate, ← List.append_assoc, all, ← digits]

/-- The text of a whole double is its number with a zero after the point. -/
theorem toList_text_whole (layout : FloatLayout) (low : layout.lowestPoint ≤ 1) {x : Binary64}
    {n : Nat} (worth : Binary64.unitsOf x.magnitude = n * Binary64.one) (small : n ≤ 2 ^ 53) :
    (layout.text x).toList =
      (if x.negative then ['-'] else []) ++ (Nat.toDigits 10 n ++ ['.', '0']) := by
  unfold text
  rcases Nat.eq_zero_or_pos n with rfl | pos
  · rw [Nat.zero_mul, show 0 = Binary64.unitsOf 0 from rfl, Binary64.unitsOf_eq_iff] at worth
    rw [if_pos worth, String.toList_ofList]
    rfl
  · obtain ⟨c, e, shortest, rfl⟩ := Binary64.shortest_whole worth pos small
    have some_digit : 0 < c := Nat.pos_of_mul_pos_right pos
    have short : (Nat.toDigits 10 (c * 10 ^ e)).length ≤ 16 :=
      (Nat.length_toDigits_le_iff (by decide) (by decide)).2
        (Nat.lt_of_le_of_lt small (by decide))
    have point : ((Nat.toDigits 10 c).length : Int) + e =
        ((Nat.toDigits 10 (c * 10 ^ e)).length : Nat) := by
      rw [toDigits_mul_ten_pow some_digit, List.length_append, List.length_replicate]
      rfl
    have near : layout.lowestPoint ≤ ((Nat.toDigits 10 (c * 10 ^ e)).length : Nat) ∧
        (((Nat.toDigits 10 (c * 10 ^ e)).length : Nat) : Int) ≤ 16 := by
      have := List.length_pos_iff.2 (Nat.toDigits_ne_nil (n := c * 10 ^ e) (b := 10))
      omega
    rw [if_neg (Binary64.magnitude_pos worth pos).ne']
    dsimp only
    rw [shortest]
    dsimp only
    rw [point_dropZeros, point, if_pos near, String.toList_ofList, plain_dropZeros some_digit]

end FloatLayout

end EventFlow
