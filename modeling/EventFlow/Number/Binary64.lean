/-!
# Finite double-precision numbers

A finite double is a sign and a magnitude, the magnitude being the exponent and fraction bits
read as one natural number. Neighbouring magnitudes are neighbouring doubles, so doubles compare
as the integers `Binary64.rank`. The value of a magnitude is `unitsOf magnitude / 2 ^ 1074`;
`roundRatio` rounds a ratio of naturals to the nearest magnitude, ties to the even one.
-/

set_option autoImplicit false

namespace EventFlow

/-- A finite double: its sign, and its exponent and fraction bits. -/
structure Binary64 where
  negative : Bool
  magnitude : Nat
  finite : magnitude < 0x7FF0000000000000
deriving DecidableEq

namespace Binary64

/-- The magnitude that stands for an infinity; every finite one is smaller. -/
def infinity : Nat := 0x7FF0000000000000

/-- Positive zero. -/
def zero : Binary64 := ⟨false, 0, by decide⟩

instance : Inhabited Binary64 := ⟨zero⟩

/-- The position of a double among all doubles; both zeros are at zero. -/
def rank (x : Binary64) : Int :=
  if x.negative then -(x.magnitude : Int) else x.magnitude

/-- Equality of values: the two zeros are one value. -/
def eq (x y : Binary64) : Bool := x.rank == y.rank

/-- Order of values. -/
def lt (x y : Binary64) : Bool := decide (x.rank < y.rank)

/-- Whether the value is one of the two zeros. -/
def isZero (x : Binary64) : Bool := x.magnitude == 0

/-- The leading bit of a significand, `2 ^ 52`, which normal numbers do not store. -/
def leadingBit : Nat := 0x10000000000000

/-- The significand of a magnitude, with its leading bit. -/
def significandOf (magnitude : Nat) : Nat :=
  if magnitude < leadingBit then magnitude else leadingBit + magnitude % leadingBit

/-- The power of two, in units of `2 ^ -1074`, that the significand of a magnitude counts. -/
def exponentOf (magnitude : Nat) : Nat := magnitude / leadingBit - 1

/-- The value of a magnitude in units of `2 ^ -1074`. -/
def unitsOf (magnitude : Nat) : Nat := significandOf magnitude <<< exponentOf magnitude

/-- The quotient of two naturals rounded to the nearest natural, ties to the even one. -/
def divideToEven (num den : Nat) : Nat :=
  let q := num / den
  let twice := 2 * (num % den)
  if twice < den then q
  else if den < twice then q + 1
  else if q % 2 = 0 then q else q + 1

/-- The magnitude nearest to `num / den`, ties to the even one; `infinity` or more on overflow. -/
def roundRatio (num den : Nat) : Nat :=
  let units := num <<< 1074
  let exponent := (units / den).log2 - 52
  exponent * leadingBit + divideToEven units (den <<< exponent)

/-- What rounding a real number gives: a finite double, or an infinity of its sign. -/
inductive Rounded where
  | finite (x : Binary64)
  | infinite (negative : Bool)
deriving DecidableEq

/-- The finite double of a rounding, if it did not overflow. -/
def Rounded.toFinite? : Rounded → Option Binary64
  | .finite x => some x
  | .infinite _ => none

/-- The double nearest to `± num / den`. -/
def ofRatio (negative : Bool) (num den : Nat) : Rounded :=
  let magnitude := roundRatio num den
  if h : magnitude < 0x7FF0000000000000 then .finite ⟨negative, magnitude, h⟩
  else .infinite negative

/-- The product of two doubles, rounded. -/
def mul (x y : Binary64) : Rounded :=
  ofRatio (x.negative != y.negative) (unitsOf x.magnitude * unitsOf y.magnitude) (1 <<< 2148)

/-- The quotient of two doubles, rounded; the divisor is not a zero. -/
def div (x y : Binary64) : Rounded :=
  ofRatio (x.negative != y.negative) (unitsOf x.magnitude) (unitsOf y.magnitude)

/-- The double nearest to a natural number. -/
def ofNat (n : Nat) : Rounded := ofRatio false n 1

/-- The double nearest to an integer; zero is the positive zero. -/
def ofInt (n : Int) : Rounded := ofRatio (decide (n < 0)) n.natAbs 1

/-- The number of decimal digits of a natural number; zero has one. -/
def decimalLength (n : Nat) : Nat := (Nat.toDigits 10 n).length

/-- The double nearest to `± digits * 10 ^ exponent`. Exponents far outside the range of doubles
are settled by the position of the leading digit, without forming the power. -/
def ofDecimal (negative : Bool) (digits : Nat) (exponent : Int) : Rounded :=
  let leading := (decimalLength digits : Int) + exponent
  if digits = 0 then .finite { zero with negative }
  else if 400 < leading then .infinite negative
  else if leading < -400 then .finite { zero with negative }
  else if 0 ≤ exponent then ofRatio negative (digits * Nat.pow 10 exponent.toNat) 1
  else ofRatio negative digits (Nat.pow 10 (-exponent).toNat)

theorem eq_iff_rank {x y : Binary64} : x.eq y = true ↔ x.rank = y.rank := by simp [eq]

theorem lt_iff_rank {x y : Binary64} : x.lt y = true ↔ x.rank < y.rank := by simp [lt]

theorem eq_refl (x : Binary64) : x.eq x = true := by simp [eq]

end Binary64

end EventFlow
