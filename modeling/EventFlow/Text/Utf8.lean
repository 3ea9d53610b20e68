/-!
# UTF-8

`Utf8.decode` reads bytes as characters. A piece that is no character is as long as it can be
while it may still become one, and stands as `none`. `strict?` refuses such pieces, `lossy` puts
a replacement character in the place of each.
-/

set_option autoImplicit false

namespace EventFlow.Utf8

/-- What the first byte of a character says: its bits, how many bytes follow, and the range of the
next one. -/
structure Lead where
  bits : Nat
  more : Nat
  low : Nat
  high : Nat

/-- The first bytes of characters. The ranges leave out codes that could be shorter, halves of
surrogate pairs and codes beyond the last character. -/
def lead? (byte : Nat) : Option Lead :=
  if byte < 0x80 then some ⟨byte, 0, 0, 0⟩
  else if 0xC2 ≤ byte ∧ byte ≤ 0xDF then some ⟨byte % 32, 1, 0x80, 0xBF⟩
  else if 0xE0 ≤ byte ∧ byte ≤ 0xEF then
    some ⟨byte % 16, 2, if byte = 0xE0 then 0xA0 else 0x80, if byte = 0xED then 0x9F else 0xBF⟩
  else if 0xF0 ≤ byte ∧ byte ≤ 0xF4 then
    some ⟨byte % 8, 3, if byte = 0xF0 then 0x90 else 0x80, if byte = 0xF4 then 0x8F else 0xBF⟩
  else none

/-- The character whose first bytes are read, and the bytes after it; `none` in place of the
character if a byte does not belong to it. -/
def follow (bits : Nat) : (more low high : Nat) → List UInt8 → Option Char × List UInt8
  | 0, _, _, s => (some (Char.ofNat bits), s)
  | _ + 1, _, _, [] => (none, [])
  | more + 1, low, high, b :: s =>
    if low ≤ b.toNat ∧ b.toNat ≤ high then follow (bits * 64 + b.toNat % 64) more 0x80 0xBF s
    else (none, b :: s)

theorem length_follow_le (bits more low high : Nat) (s : List UInt8) :
    (follow bits more low high s).2.length ≤ s.length := by
  fun_induction follow bits more low high s with
  | case1 => simp
  | case2 => simp
  | case3 _ _ _ _ b s _ ih => simp only [List.length_cons]; omega
  | case4 => simp

/-- Bytes as characters and pieces that are none. -/
def decode : List UInt8 → List (Option Char)
  | [] => []
  | b :: s =>
    match lead? b.toNat with
    | none => none :: decode s
    | some l =>
      have := length_follow_le l.bits l.more l.low l.high s
      (follow l.bits l.more l.low l.high s).1 :: decode (follow l.bits l.more l.low l.high s).2
termination_by s => s.length

/-- The text of bytes that hold nothing but characters. -/
def strict? (bytes : List UInt8) : Option String :=
  ((decode bytes).mapM id).map String.ofList

/-- The text of bytes, with a replacement character for each piece that is none. -/
def lossy (bytes : List UInt8) : String :=
  String.ofList ((decode bytes).map (·.getD '\uFFFD'))

end EventFlow.Utf8
