import EventFlow.Number.Binary64

/-!
# The fewest digits that read back

`shortest magnitude` is the decimal `digits * 10 ^ exponent` with the fewest digits among those
that round to the magnitude, and the nearest one to its value among these. The reals that round
to a magnitude lie between the midpoints to its two neighbours; the midpoints themselves belong
to it when it is even. For each digit count the two grid points around the value are tried.
-/

set_option autoImplicit false

namespace EventFlow

namespace Binary64

/-- A decimal `digits * 10 ^ exponent`. -/
structure Decimal where
  digits : Nat
  exponent : Int
deriving DecidableEq

/-- The exponent `k` of the decade that holds `num / den`: `10 ^ (k - 1) ≤ num / den < 10 ^ k`. -/
def decade (num den : Nat) : Int :=
  if den ≤ num then decimalLength (num / den)
  else 1 - (decimalLength ((den + num - 1) / num - 1) : Int)

/-- The ratio `num / den` counted in steps of `10 ^ exponent`. -/
def inSteps (num den : Nat) (exponent : Int) : Nat × Nat :=
  if 0 ≤ exponent then (num, den * Nat.pow 10 exponent.toNat)
  else (num * Nat.pow 10 (-exponent).toNat, den)

/-- Whether `count` steps of `10 ^ exponent` round to the magnitude. -/
def readsBack (magnitude : Nat) (exponent : Int) (count : Nat) : Bool :=
  let below := inSteps (unitsOf (magnitude - 1) + unitsOf magnitude) (1 <<< 1075) exponent
  let above := inSteps (unitsOf magnitude + unitsOf (magnitude + 1)) (1 <<< 1075) exponent
  if magnitude % 2 = 0 then
    decide (below.1 ≤ count * below.2) && decide (count * above.2 ≤ above.1)
  else
    decide (below.1 < count * below.2) && decide (count * above.2 < above.1)

/-- The nearer of the two grid points around the value that read back, ties to the even one. -/
def onGrid (magnitude : Nat) (exponent : Int) : Option Nat :=
  let (num, den) := inSteps (unitsOf magnitude) (1 <<< 1074) exponent
  let low := num / den
  let twice := 2 * (num % den)
  let lowFirst := decide (twice < den) || (twice == den && low % 2 == 0)
  let order := if lowFirst then [low, low + 1] else [low + 1, low]
  order.find? (readsBack magnitude exponent)

/-- The shortest decimal that reads back as the magnitude. -/
def shortest (magnitude : Nat) : Decimal :=
  if magnitude = 0 then ⟨0, 0⟩ else
    let k := decade (unitsOf magnitude) (1 <<< 1074)
    let found := (List.range 17).findSome? fun (n : Nat) =>
      let exponent := k - ((n : Int) + 1)
      (onGrid magnitude exponent).map fun digits => Decimal.mk digits exponent
    found.getD ⟨unitsOf magnitude, 0⟩

end Binary64

/-- How the digits of a double are laid out: plainly where the point stands after at least
`lowestPoint` and at most 16 digits, a negative count being zeros after the point, and with an
exponent elsewhere. -/
structure FloatLayout where
  lowestPoint : Int
  plusInExponent : Bool

namespace FloatLayout

/-- The digits without the zeros at their end, and the exponent that makes up for them. -/
def dropZeros : List Char → Int → List Char × Int
  | digits, exponent =>
    let kept := (digits.reverse.dropWhile (· == '0')).reverse
    (kept, exponent + ((digits.length - kept.length : Nat) : Int))

/-- Digits laid out plainly, with at least one digit on each side of the point. `point` is the
number of digits before the point. -/
def plain (digits : List Char) (point : Int) : List Char :=
  if point ≤ 0 then '0' :: '.' :: (List.replicate (-point).toNat '0' ++ digits)
  else
    let whole := point.toNat
    if digits.length ≤ whole then
      digits ++ List.replicate (whole - digits.length) '0' ++ ['.', '0']
    else digits.take whole ++ '.' :: digits.drop whole

/-- Digits laid out with an exponent of ten after the first digit. -/
def scientific (layout : FloatLayout) (digits : List Char) (power : Int) : List Char :=
  let mark := if power < 0 then ['-'] else if layout.plusInExponent then ['+'] else []
  let mantissa := match digits with
    | d :: e :: rest => d :: '.' :: e :: rest
    | short => short
  mantissa ++ 'e' :: (mark ++ Nat.toDigits 10 power.natAbs)

/-- The text of a double. -/
def text (layout : FloatLayout) (x : Binary64) : String :=
  let sign := if x.negative then ['-'] else []
  if x.magnitude = 0 then String.ofList (sign ++ ['0', '.', '0'])
  else
    let decimal := Binary64.shortest x.magnitude
    let (digits, exponent) := dropZeros (Nat.toDigits 10 decimal.digits) decimal.exponent
    let point := (digits.length : Int) + exponent
    String.ofList <| sign ++
      if layout.lowestPoint ≤ point ∧ point ≤ 16 then plain digits point
      else layout.scientific digits (point - 1)

end FloatLayout

end EventFlow
