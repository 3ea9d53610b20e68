import EventFlow.Text.Digits

/-!
# Bytes behind percent signs

A percent sign and two hexadecimal digits stand for a byte. `percentDecode` reads such a text as
bytes; `percentEncode` writes a text so that it holds only characters of ASCII, and of those only
the ones that need no percent sign.
-/

set_option autoImplicit false

namespace EventFlow.Text

/-- The bytes of a text in which percent signs and two digits stand for bytes. -/
def percentDecode : List Char → List UInt8
  | [] => []
  | '%' :: a :: b :: rest =>
    match hexDigit? a, hexDigit? b with
    | some x, some y => UInt8.ofNat (16 * x + y) :: percentDecode rest
    | _, _ => String.utf8EncodeChar '%' ++ percentDecode (a :: b :: rest)
  | c :: rest => String.utf8EncodeChar c ++ percentDecode rest

/-- A percent sign and the two digits of a byte, in capital letters. -/
def percentByte (b : UInt8) : List Char :=
  let digit (n : Nat) := (Nat.digitChar n).toUpper
  ['%', digit (b.toNat / 16), digit (b.toNat % 16)]

/-- A text with percent signs in the place of the characters that need them. -/
def percentEncode (needed : Char → Bool) (s : List Char) : List Char :=
  s.flatMap fun c =>
    if needed c || decide (0x80 ≤ c.toNat) then (String.utf8EncodeChar c).flatMap percentByte
    else [c]

end EventFlow.Text
