import EventFlow.Text.Digits

/-!
# Universally unique identifiers

A `Uuid` is a number of 128 bits. It is read from 32 hexadecimal digits, plain or with hyphens,
the latter also in braces or after `urn:uuid:` in letters of either case, and written with hyphens
in small letters. `ofIndex` numbers the identifiers of version 4.
-/

set_option autoImplicit false

namespace EventFlow

/-- An identifier of 128 bits. -/
structure Uuid where
  bits : BitVec 128
deriving DecidableEq

namespace Uuid

/-- The identifier of zeros. -/
def nil : Uuid := ⟨0⟩

instance : Inhabited Uuid := ⟨nil⟩

/-- The `n`th identifier of version 4: the 122 bits that the version leaves free hold `n`. -/
def ofIndex (n : Nat) : Uuid :=
  ⟨BitVec.ofNat 48 (n >>> 74) ++ BitVec.ofNat 4 4 ++ BitVec.ofNat 12 (n >>> 62) ++
    BitVec.ofNat 2 2 ++ BitVec.ofNat 62 n⟩

/-- The value of 32 hexadecimal digits. -/
def ofDigits? (digits : List Char) : Option Uuid :=
  if digits.length = 32 then
    (digits.foldlM (fun n c => (Text.hexDigit? c).map (n * 16 + ·)) 0).map fun n => ⟨.ofNat 128 n⟩
  else none

/-- Digits in groups of 8, 4, 4, 4 and 12 with hyphens between them. -/
def ofHyphenated? (s : List Char) : Option Uuid :=
  let hyphens := [8, 13, 18, 23].all fun i => s[i]? == some '-'
  if s.length = 36 ∧ hyphens then
    ofDigits?
      (s.take 8 ++ (s.drop 9).take 4 ++ (s.drop 14).take 4 ++ (s.drop 19).take 4 ++ s.drop 24)
  else none

/-- The identifier that a text names. -/
def read? (text : String) : Option Uuid :=
  let s := text.toList
  match s with
  | '\x7b' :: rest =>
    if rest.getLast? = some '\x7d' then ofHyphenated? rest.dropLast else none
  | _ =>
    if s.length = 32 then ofDigits? s
    else if (s.take 9).map Char.toLower = "urn:uuid:".toList then ofHyphenated? (s.drop 9)
    else ofHyphenated? s

/-- The 32 hexadecimal digits, in small letters. -/
def digits (u : Uuid) : List Char :=
  let ds := Nat.toDigits 16 u.bits.toNat
  List.replicate (32 - ds.length) '0' ++ ds

/-- The digits without hyphens. -/
def simple (u : Uuid) : String := String.ofList u.digits

/-- The digits with hyphens. -/
def text (u : Uuid) : String :=
  let ds := u.digits
  String.ofList (ds.take 8 ++ '-' :: (ds.drop 8).take 4 ++ '-' :: (ds.drop 12).take 4 ++
    '-' :: (ds.drop 16).take 4 ++ '-' :: ds.drop 20)

end Uuid

end EventFlow
