import EventFlow.Number.Binary64
import EventFlow.Text.Digits

/-!
# Decimal text

A decimal is an optional sign, digits with at most one point among or beside them, and an optional
exponent. It is read as the nearest double.
-/

set_option autoImplicit false

namespace EventFlow.Decimal

/-- Whether a text starts with a minus sign, and the text after its sign. -/
def sign : List Char → Bool × List Char
  | '-' :: rest => (true, rest)
  | '+' :: rest => (false, rest)
  | s => (false, s)

/-- The exponent that ends a decimal; there is none at the end of the text. -/
def exponent? : List Char → Option Int
  | [] => some 0
  | c :: rest =>
    if c = 'e' ∨ c = 'E' then
      let (negative, digits) := sign rest
      if !digits.isEmpty && digits.all Char.isDigit then
        let n : Int := Text.decimalValue digits
        some (if negative then -n else n)
      else none
    else none

/-- The double nearest to a decimal, if the text is one. -/
def read? (s : List Char) : Option Binary64.Rounded :=
  let (negative, s) := sign s
  let (whole, s) := s.span Char.isDigit
  let (fraction, s) := match s with
    | '.' :: rest => rest.span Char.isDigit
    | other => ([], other)
  if whole.isEmpty && fraction.isEmpty then none
  else
    (exponent? s).map fun power =>
      Binary64.ofDecimal negative (Text.decimalValue (whole ++ fraction))
        (power - (fraction.length : Int))

end EventFlow.Decimal
