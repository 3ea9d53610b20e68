import EventFlow.Text.Lowercase
import EventFlow.Text.Parts
import EventFlow.Text.Percent
import EventFlow.Text.Utf8
import EventFlow.Url.Punycode

/-!
# Hosts

A host is a name or an address of version 4 or 6. A name whose last label is a number has to be an
address. Names are written in small letters of ASCII, other letters in Punycode.
-/

set_option autoImplicit false

namespace EventFlow.Url

open Text (hexDigit? parts joined percentEncode)

/-- Where an address leads. -/
inductive Host where
  | name (text : List Char)
  | version4 (address : Nat)
  | version6 (pieces : List Nat)
deriving DecidableEq

/-- Whether a character has no shape: a control, but not the space. -/
def isControl (c : Char) : Bool := decide (c.toNat < 0x20 ∨ c.toNat = 0x7F)

namespace Host

/-! ## Addresses of version 4 -/

/-- The digits of a number in a base, if all of them are. -/
def numberIn? (base : Nat) (digits : List Char) : Option Nat :=
  digits.foldlM (fun n c => (hexDigit? c).bind fun d =>
    if d < base then some (n * base + d) else none) 0

/-- A part of an address: decimal, octal after a zero, or hexadecimal after `0x`. -/
def addressPart? (part : List Char) : Option Nat :=
  match part with
  | [] => none
  | '0' :: 'x' :: digits => numberIn? 16 digits
  | '0' :: 'X' :: digits => numberIn? 16 digits
  | '0' :: d :: digits => numberIn? 8 (d :: digits)
  | digits => numberIn? 10 digits

/-- The labels of a name, without an empty one at its end. -/
def labels (name : List Char) : List (List Char) :=
  let all := parts '.' name
  if all.getLast? = some [] then all.dropLast else all

/-- Whether the last label of a name is a number. -/
def endsInNumber (name : List Char) : Bool :=
  match (labels name).getLast? with
  | some last => (!last.isEmpty && last.all Char.isDigit) || (addressPart? last).isSome
  | none => false

/-- An address of at most four parts. The last part stands for all bytes that are left. -/
def version4? (name : List Char) : Option Host :=
  match (labels name).mapM addressPart? with
  | none => none
  | some numbers =>
    let bytes := numbers.dropLast
    let last := numbers.getLast?.getD 0
    let room := Nat.pow 256 (4 - bytes.length)
    if numbers.length ≤ 4 ∧ bytes.all (· < 256) ∧ last < room then
      some (.version4 (bytes.foldl (fun n b => n * 256 + b) 0 * room + last))
    else none

/-- The four bytes of an address, with dots between them. -/
def version4Text (address : Nat) : List Char :=
  let byte (n : Nat) := Nat.toDigits 10 (n % 256)
  joined '.' [byte (address / 16777216), byte (address / 65536), byte (address / 256), byte address]

/-! ## Addresses of version 6 -/

/-- A piece of one to four digits. -/
def piece? (s : List Char) : Option Nat :=
  if s.isEmpty || decide (4 < s.length) then none else numberIn? 16 s

/-- The last two pieces, written as an address of version 4 with four decimal bytes. -/
def embedded? (s : List Char) : Option (List Nat) :=
  let byte? (part : List Char) : Option Nat :=
    match part with
    | [] => none
    | '0' :: _ :: _ => none
    | digits => (numberIn? 10 digits).filter (· < 256)
  match (parts '.' s).mapM byte? with
  | some [a, b, c, d] => some [a * 256 + b, c * 256 + d]
  | _ => none

/-- Pieces with colons between them; the last may be an embedded address. -/
def pieces? (s : List Char) : Option (List Nat) :=
  let groups := parts ':' s
  match groups.dropLast.mapM piece?, groups.getLast? with
  | some before, some last =>
    match piece? last, embedded? last with
    | some n, _ => some (before ++ [n])
    | none, some pair => some (before ++ pair)
    | none, none => none
  | _, _ => none

/-- What stands before and after the first two colons in a row. -/
def splitGap : List Char → Option (List Char × List Char)
  | ':' :: ':' :: rest => some ([], rest)
  | c :: rest => (splitGap rest).map fun (before, after) => (c :: before, after)
  | [] => none

/-- An address of eight pieces; two colons stand for one or more pieces of zero. -/
def version6? (s : List Char) : Option Host :=
  match splitGap s with
  | none =>
    match pieces? s with
    | some all => if all.length = 8 then some (.version6 all) else none
    | none => none
  | some (before, after) =>
    let left := if before.isEmpty then some [] else (parts ':' before).mapM piece?
    let right := if after.isEmpty then some [] else pieces? after
    match left, right with
    | some left, some right =>
      let given := left.length + right.length
      if given ≤ 7 then some (.version6 (left ++ List.replicate (8 - given) 0 ++ right)) else none
    | _, _ => none

/-- How many zeros a list begins with. -/
def zeros (pieces : List Nat) : Nat := (pieces.takeWhile (· == 0)).length

/-- The place and the length of the longest run of zeros, the first of several. -/
def longestZeros (pieces : List Nat) : Nat × Nat :=
  (List.range pieces.length).foldl
    (fun best i => let n := zeros (pieces.drop i); if best.2 < n then (i, n) else best) (0, 0)

/-- The pieces of an address in small letters, the longest run of two or more zeros left out. -/
def version6Text (pieces : List Nat) : List Char :=
  let written (ps : List Nat) := joined ':' (ps.map (Nat.toDigits 16))
  let (start, count) := longestZeros pieces
  let inside :=
    if count < 2 then written pieces
    else written (pieces.take start) ++ [':', ':'] ++ written (pieces.drop (start + count))
  '[' :: inside ++ [']']

/-! ## Names -/

/-- Characters that no host holds. -/
def isForbidden (c : Char) : Bool :=
  c.toNat == 0 || "\t\n\r #/:<>?@[\\]^|".toList.contains c

/-- The letters that a letter of a name stands for: a small letter, a figure or letter of common
width, a full stop, or nothing for a mark that only shapes its neighbours. -/
def nameLetter (c : Char) : List Char :=
  if 0xFF01 ≤ c.toNat ∧ c.toNat ≤ 0xFF5E then [(Char.ofNat (c.toNat - 0xFEE0)).toLower]
  else if c = '\u3002' ∨ c = '\uFF61' then ['.']
  else if c = '\u00AD' ∨ c = '\u200B' ∨ c = '\u2060' ∨ c = '\uFEFF' then []
  else Text.lowerChar c

/-- The mark of a label in Punycode. -/
def punycodeMark : List Char := ['x', 'n', '-', '-']

/-- A label in ASCII. A label that is in Punycode already has to be readable. -/
def labelText? (label : List Char) : Option (List Char) :=
  if label.any (0x80 ≤ ·.toNat) then some (punycodeMark ++ Punycode.encode label)
  else if punycodeMark.isPrefixOf label then
    match Punycode.decode? (label.drop punycodeMark.length) with
    | some letters =>
      if letters.any (0x80 ≤ ·.toNat) ∧ punycodeMark ++ Punycode.encode letters = label then
        some label
      else none
    | none => none
  else some label

/-- A name in small letters of ASCII. -/
def nameText? (text : String) : Option (List Char) :=
  let letters := text.toList.flatMap nameLetter
  if letters.any fun c => isForbidden c || isControl c || c == '%' || c == '\uFFFD' then none
  else ((parts '.' letters).mapM labelText?).map (joined '.')

/-- The address between brackets, if the text begins with one. -/
def bracketed? (s : List Char) : Option (Option Host) :=
  match s with
  | '[' :: inside =>
    some (if inside.getLast? = some ']' then version6? inside.dropLast else none)
  | _ => none

/-- The host of a scheme that is known: percent signs stand for bytes, and the name is not
empty. -/
def known? (s : List Char) : Option Host :=
  match bracketed? s with
  | some address => address
  | none =>
    match (Utf8.strict? (Text.percentDecode s)).bind nameText? with
    | none => none
    | some letters =>
      if letters.isEmpty then none
      else if endsInNumber letters then version4? letters
      else some (.name letters)

/-- The host of another scheme, kept as it is written. -/
def verbatim? (s : List Char) : Option Host :=
  match bracketed? s with
  | some address => address
  | none => if s.any isForbidden then none else some (.name (percentEncode isControl s))

/-- A host as it is written. -/
def text : Host → List Char
  | name text => text
  | version4 address => version4Text address
  | version6 pieces => version6Text pieces

end Host

end EventFlow.Url
