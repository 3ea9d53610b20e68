/-!
# Digits

`number` reads the decimal digits at the start of a text, `padded` writes a number with leading
zeros, and `hexDigit?` reads one hexadecimal digit.
-/

set_option autoImplicit false

namespace EventFlow.Text

/-- The value of a run of decimal digits. -/
def decimalValue (digits : List Char) : Nat :=
  digits.foldl (fun n d => n * 10 + (d.toNat - '0'.toNat)) 0

/-- The number at the start of a text, made of at most `width` digits where a width is given, and
what follows it; `none` if there is no digit. -/
def number (width : Option Nat) (s : List Char) : Option (Nat × List Char) :=
  let run := s.takeWhile Char.isDigit
  let digits := match width with
    | some w => run.take w
    | none => run
  if digits.isEmpty then none else some (decimalValue digits, s.drop digits.length)

/-- A number with zeros in front, up to a width. -/
def padded (width n : Nat) : List Char :=
  let digits := Nat.toDigits 10 n
  List.replicate (width - digits.length) '0' ++ digits

/-- The value of a hexadecimal digit. -/
def hexDigit? (c : Char) : Option Nat :=
  if c.isDigit then some (c.toNat - '0'.toNat)
  else if 'a' ≤ c ∧ c ≤ 'f' then some (c.toNat - 'a'.toNat + 10)
  else if 'A' ≤ c ∧ c ≤ 'F' then some (c.toNat - 'A'.toNat + 10)
  else none

/-- A whole text that is one run of digits, or such a run after a plus sign, as a number. -/
def natural? (s : List Char) : Option Nat :=
  let digits := match s with
    | '+' :: rest => rest
    | other => other
  if !digits.isEmpty && digits.all Char.isDigit then some (decimalValue digits) else none

end EventFlow.Text
