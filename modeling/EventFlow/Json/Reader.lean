import EventFlow.Json.Document
import EventFlow.Text.Digits

/-!
# Reading JSON

`Document.read?` reads a whole text. The grammar is strict: no comments, no trailing commas, no
leading zeros, nothing after the value. Values nested deeper than 127 levels, numbers beyond every
double and texts with half a surrogate pair are `unreadable`.

A number's significant digits are gathered in 64 bits; digits that no longer fit only move the
point. A significand with a power of ten becomes a double by one multiplication or division of
doubles, or by several where the power itself has no double.
-/

set_option autoImplicit false

namespace EventFlow

namespace Document

/-- How many arrays and objects a value may be nested in. -/
def maxNesting : Nat := 127

/-- The blanks between the parts of a text. -/
def isBlank (c : Char) : Bool := c == ' ' || c == '\n' || c == '\t' || c == '\r'

/-- The text without the blanks at its start. -/
def skipBlanks (s : List Char) : List Char := s.dropWhile isBlank

/-! ## Numbers -/

/-- The value of a decimal digit. -/
def digitValue (c : Char) : Nat := c.toNat - '0'.toNat

/-- A significand below `2 ^ 64` and the power of ten it is multiplied by. -/
structure Scaled where
  significand : Nat
  power : Int

/-- Whether one more digit still fits into the significand. -/
def Scaled.fits (n : Scaled) (digit : Char) : Bool :=
  decide (n.significand * 10 + digitValue digit < UInt64.size)

/-- The digits before the point; from the first that does not fit on they only count. -/
def wholeDigits : Scaled → List Char → Scaled
  | n, [] => n
  | n, d :: rest =>
    if n.fits d then wholeDigits ⟨n.significand * 10 + digitValue d, n.power⟩ rest
    else ⟨n.significand, n.power + ((d :: rest).length : Int)⟩

/-- The digits after the point; from the first that does not fit on they are dropped. -/
def fractionDigits : Scaled → List Char → Scaled
  | n, [] => n
  | n, d :: rest =>
    if n.fits d then fractionDigits ⟨n.significand * 10 + digitValue d, n.power - 1⟩ rest
    else n

/-- The double nearest to a power of ten up to the 308th. -/
def powerOfTen (n : Nat) : Binary64 := (Binary64.ofNat (Nat.pow 10 n)).toFinite?.getD Binary64.zero

/-- A double divided by a power of ten up to the 308th. -/
def scaleDown (x : Binary64) (n : Nat) : Option Binary64 := (x.div (powerOfTen n)).toFinite?

/-- A double below `2 ^ 64` times a power of ten, if it does not overflow. A power below the
-308th takes two divisions, and below the -616th nothing is left. -/
def scale (x : Binary64) (power : Int) : Option Binary64 :=
  if x.isZero then some x
  else if 308 < power then none
  else if 0 ≤ power then (x.mul (powerOfTen power.toNat)).toFinite?
  else if -308 ≤ power then scaleDown x (-power).toNat
  else if -616 ≤ power then
    (scaleDown x 308).bind fun y => scaleDown y (-(power + 308)).toNat
  else some Binary64.zero

/-- The number of a significand with a power of ten, if it does not overflow. -/
def Scaled.toFloat? (n : Scaled) (negative : Bool) : Option JsonNumber :=
  match (Binary64.ofNat n.significand).toFinite? with
  | some x => (scale x n.power).map fun y => .float { y with negative }
  | none => none

/-- The number of digits without point and exponent. An integer that is out of range is a double,
and so is the negative zero. -/
def Scaled.toNumber? (n : Scaled) (negative : Bool) : Option JsonNumber :=
  if n.power = 0 then
    if negative then
      if n.significand = 0 then some (.float { Binary64.zero with negative := true })
      else match JsonInteger.ofInt? (-(n.significand : Int)) with
        | some m => some (.integer m)
        | none => n.toFloat? true
    else (JsonInteger.ofInt? n.significand).map .integer
  else n.toFloat? negative

/-- The sign of an exponent and the text after it. -/
def exponentSign : List Char → Bool × List Char
  | '+' :: rest => (false, rest)
  | '-' :: rest => (true, rest)
  | s => (false, s)

/-- A run of digits as a natural number. -/
def digitsValue (digits : List Char) : Nat :=
  digits.foldl (fun n d => n * 10 + digitValue d) 0

/-- A number as a document. -/
def ofNumber? : Option JsonNumber → Document
  | some n => .number n
  | none => .unreadable

/-- What follows the digits of a number: an optional exponent. -/
def readExponent (negative isFloat : Bool) (n : Scaled) (s : List Char) :
    Option (Document × List Char) :=
  match s with
  | c :: rest =>
    if c = 'e' ∨ c = 'E' then
      let (down, digits) := exponentSign rest
      match digits.span Char.isDigit with
      | ([], _) => none
      | (ds, after) =>
        let power : Int := digitsValue ds
        let scaled : Scaled := ⟨n.significand, n.power + if down then -power else power⟩
        some (ofNumber? (scaled.toFloat? negative), after)
    else if isFloat then some (ofNumber? (n.toFloat? negative), s)
    else some (ofNumber? (n.toNumber? negative), s)
  | [] =>
    if isFloat then some (ofNumber? (n.toFloat? negative), [])
    else some (ofNumber? (n.toNumber? negative), [])

/-- What follows the digits before the point: a fraction or an exponent or neither. -/
def readFraction (negative : Bool) (n : Scaled) : List Char → Option (Document × List Char)
  | '.' :: rest =>
    match rest.span Char.isDigit with
    | ([], _) => none
    | (ds, after) => readExponent negative true (fractionDigits n ds) after
  | s => readExponent negative false n s

/-- A number without its sign. A zero is not followed by another digit. -/
def readUnsigned (negative : Bool) (s : List Char) : Option (Document × List Char) :=
  match s.span Char.isDigit with
  | ([], _) => none
  | ('0' :: _ :: _, _) => none
  | (ds, after) => readFraction negative (wholeDigits ⟨0, 0⟩ ds) after

/-! ## Texts -/

/-- The value of four hexadecimal digits. -/
def hexValue (a b c d : Char) : Option Nat :=
  [a, b, c, d].foldlM (fun n c => (Text.hexDigit? c).map (n * 16 + ·)) 0

/-- The character that a backslash and a letter stand for. -/
def escaped : Char → Option Char
  | '"' => some '"'
  | '\\' => some '\\'
  | '/' => some '/'
  | 'b' => some '\x08'
  | 'f' => some '\x0c'
  | 'n' => some '\n'
  | 'r' => some '\r'
  | 't' => some '\t'
  | _ => none

/-- Whether a code unit is the first half of a surrogate pair. -/
def isLeading (u : Nat) : Bool := decide (0xD800 ≤ u ∧ u < 0xDC00)

/-- Whether a code unit is the second half of a surrogate pair. -/
def isTrailing (u : Nat) : Bool := decide (0xDC00 ≤ u ∧ u < 0xE000)

/-- The character of a surrogate pair. -/
def ofPair (leading trailing : Nat) : Char :=
  Char.ofNat (0x10000 + (leading - 0xD800) * 0x400 + (trailing - 0xDC00))

/-- The rest of a quoted text after what is already read, which is kept in reverse. The answer
says whether every surrogate was one of a pair. -/
def readQuoted : List Char → Bool → List Char → Option ((Bool × String) × List Char)
  | read, whole, '"' :: rest => some ((whole, String.ofList read.reverse), rest)
  | read, whole, '\\' :: 'u' :: a :: b :: c :: d :: rest =>
    match hexValue a b c d with
    | none => none
    | some u =>
      if isLeading u then
        match rest with
        | '\\' :: 'u' :: e :: f :: g :: h :: after =>
          match hexValue e f g h with
          | some v =>
            if isTrailing v then readQuoted (ofPair u v :: read) whole after
            else readQuoted read false ('\\' :: 'u' :: e :: f :: g :: h :: after)
          | none => none
        | other => readQuoted read false other
      else if isTrailing u then readQuoted read false rest
      else readQuoted (Char.ofNat u :: read) whole rest
  | read, whole, '\\' :: c :: rest =>
    match escaped c with
    | some e => readQuoted (e :: read) whole rest
    | none => none
  | read, whole, c :: rest => if c.toNat < 0x20 then none else readQuoted (c :: read) whole rest
  | _, _, [] => none
termination_by _ _ s => s.length

/-! ## Values -/

/-- A word of letters and what it stands for. -/
def readWord (word : String) (d : Document) (s : List Char) : Option (Document × List Char) :=
  if s.take word.length = word.toList then some (d, s.drop word.length) else none

/-- The document, unless it is nested too deep. -/
def within (nesting : Nat) (d : Document) : Document := if nesting = 0 then .unreadable else d

mutual

/-- A value at the start of a text that holds no blank there, and what follows it. `nesting` is
how many levels may still open. -/
def readValue : (fuel : Nat) → (nesting : Nat) → List Char → Option (Document × List Char)
  | 0, _, _ => none
  | fuel + 1, nesting, s =>
    match s with
    | [] => none
    | '"' :: rest =>
      (readQuoted [] true rest).map fun ((whole, text), after) =>
        (if whole then .string text else .unreadable, after)
    | '-' :: rest => readUnsigned true rest
    | '[' :: rest =>
      match skipBlanks rest with
      | ']' :: after => some (within nesting (.array []), after)
      | inside =>
        (readItems fuel (nesting - 1) inside).map fun (items, after) =>
          (within nesting (.array items), after)
    | '\x7b' :: rest =>
      match skipBlanks rest with
      | '\x7d' :: after => some (within nesting (.object []), after)
      | inside =>
        (readMembers fuel (nesting - 1) inside).map fun (members, after) =>
          let d := match members with
            | some entries => .object entries
            | none => .unreadable
          (within nesting d, after)
    | 'n' :: _ => readWord "null" .null s
    | 't' :: _ => readWord "true" (.bool true) s
    | 'f' :: _ => readWord "false" (.bool false) s
    | _ => readUnsigned false s

/-- The items of an array up to its closing bracket. -/
def readItems : (fuel : Nat) → (nesting : Nat) → List Char → Option (List Document × List Char)
  | 0, _, _ => none
  | fuel + 1, nesting, s =>
    match readValue fuel nesting s with
    | none => none
    | some (d, after) =>
      match skipBlanks after with
      | ']' :: rest => some ([d], rest)
      | ',' :: rest =>
        (readItems fuel nesting (skipBlanks rest)).map fun (ds, after) => (d :: ds, after)
      | _ => none

/-- The members of an object up to its closing brace; `none` if a key is unreadable. -/
def readMembers : (fuel : Nat) → (nesting : Nat) → List Char →
    Option (Option (List (String × Document)) × List Char)
  | 0, _, _ => none
  | fuel + 1, nesting, '"' :: s =>
    match readQuoted [] true s with
    | none => none
    | some ((whole, key), afterKey) =>
      match skipBlanks afterKey with
      | ':' :: beforeValue =>
        match readValue fuel nesting (skipBlanks beforeValue) with
        | none => none
        | some (d, after) =>
          match skipBlanks after with
          | '\x7d' :: rest => some (if whole then some [(key, d)] else none, rest)
          | ',' :: rest =>
            (readMembers fuel nesting (skipBlanks rest)).map fun (members, after) =>
              (if whole then members.map ((key, d) :: ·) else none, after)
          | _ => none
      | _ => none
  | _, _, _ => none

end

/-- The value at the start of a text, and what follows it. -/
def readPart (s : List Char) : Option (Document × List Char) :=
  readValue (2 * s.length + 2) maxNesting (skipBlanks s)

/-- The one value of a text. -/
def read? (text : String) : Option Document :=
  match readPart text.toList with
  | some (d, rest) => if (skipBlanks rest).isEmpty then some d else none
  | none => none

end Document

/-- The value that a text stands for. -/
def Json.read? (text : String) : Option Json := (Document.read? text).bind Document.toJson?

end EventFlow
