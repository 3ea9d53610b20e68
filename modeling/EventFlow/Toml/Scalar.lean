import EventFlow.Json.Document
import EventFlow.Number.Decimal
import EventFlow.Time.Instant

/-!
# Numbers, truth values and dates in TOML

A scalar without quotes is a run of characters: an integer of 64 bits in one of four bases, a
double, a truth value, or a date, a time or both. Underscores stand between digits only, and a
decimal number has no leading zero.
-/

set_option autoImplicit false

namespace EventFlow.Toml

/-- Digits with single underscores between them, without the underscores. -/
def digitGroups? (isDigit : Char → Bool) : List Char → Option (List Char)
  | [] => none
  | [c] => if isDigit c then some [c] else none
  | c :: '_' :: d :: rest =>
    if isDigit c then (digitGroups? isDigit (d :: rest)).map (c :: ·) else none
  | c :: d :: rest =>
    if isDigit c then (digitGroups? isDigit (d :: rest)).map (c :: ·) else none

/-- The value of a digit in a base of at most sixteen. -/
def digitValue (c : Char) : Nat :=
  if c.isDigit then c.toNat - '0'.toNat else c.toLower.toNat - 'a'.toNat + 10

/-- Whether a character is a digit of a base. -/
def isDigitOf (base : Nat) (c : Char) : Bool :=
  (c.isDigit || ('a' ≤ c.toLower && c.toLower ≤ 'f')) && decide (digitValue c < base)

/-- The number that digits write in a base. -/
def valueIn (base : Nat) (digits : List Char) : Nat :=
  digits.foldl (fun n c => n * base + digitValue c) 0

/-- An integer, if it has 64 bits. -/
def integer (n : Int) : Option Document :=
  if n < 9223372036854775808 then (JsonInteger.ofInt? n).map fun m => .number (.integer m) else none

/-- A natural number in a base after its mark. -/
def based? (base : Nat) (digits : List Char) : Option Document :=
  (digitGroups? (isDigitOf base) digits).bind fun ds => integer (valueIn base ds)

/-- The digits before the point of a decimal: none leads with a zero but zero itself. -/
def wholeDigits? (digits : List Char) : Option (List Char) :=
  match digits with
  | '0' :: _ :: _ => none
  | ds => digitGroups? Char.isDigit ds

/-- An exponent: an optional sign and digits. -/
def exponent? (s : List Char) : Option (List Char) :=
  match s with
  | '+' :: ds => digitGroups? Char.isDigit ds
  | '-' :: ds => (digitGroups? Char.isDigit ds).map ('-' :: ·)
  | ds => digitGroups? Char.isDigit ds

/-- The part of a decimal after its digits before the point: a fraction, an exponent or both. -/
def fraction? : List Char → Option (List Char)
  | '.' :: rest =>
    let (digits, after) := rest.span fun c => c.isDigit || c == '_'
    match digitGroups? Char.isDigit digits, after with
    | some ds, [] => some ('.' :: ds)
    | some ds, c :: e =>
      if c = 'e' ∨ c = 'E' then (exponent? e).map fun es => '.' :: (ds ++ 'e' :: es) else none
    | none, _ => none
  | c :: e => if c = 'e' ∨ c = 'E' then (exponent? e).map ('e' :: ·) else none
  | [] => none

/-- A double that is no number of JSON. -/
def notFinite : Document := .unreadable

/-- The double that a decimal rounds to. It may be too small for every double, but not too
large. -/
def double? (s : List Char) : Option Document :=
  match Decimal.read? s with
  | some (.finite x) => some (.number (.float x))
  | some (.infinite true) => some notFinite
  | _ => none

/-- A decimal number without its sign. -/
def decimal? (negative : Bool) (s : List Char) : Option Document :=
  let (whole, rest) := s.span fun c => c.isDigit || c == '_'
  match wholeDigits? whole, rest with
  | none, _ => none
  | some ds, [] =>
    let n : Int := valueIn 10 ds
    integer (if negative then -n else n)
  | some ds, c :: after =>
    if c = '.' ∨ c = 'e' ∨ c = 'E' then
      (fraction? (c :: after)).bind fun fs =>
        double? ((if negative then ['-'] else []) ++ ds ++ fs)
    else none

/-- A number of a fixed count of digits, not above a bound. -/
def fixedNumber? (count low high : Nat) (s : List Char) : Option (Nat × List Char) :=
  let digits := s.take count
  let n := valueIn 10 digits
  if digits.length = count ∧ digits.all Char.isDigit ∧ low ≤ n ∧ n ≤ high then
    some (n, s.drop count)
  else none

/-- What follows a character. -/
def after? (c : Char) : List Char → Option (List Char)
  | d :: rest => if c = d then some rest else none
  | [] => none

/-- What follows a day of the calendar. -/
def date? (s : List Char) : Option (List Char) := do
  let (year, s) ← fixedNumber? 4 0 9999 s
  let s ← after? '-' s
  let (month, s) ← fixedNumber? 2 1 12 s
  let s ← after? '-' s
  let (day, s) ← fixedNumber? 2 1 31 s
  let _ ← Date.ofParts? year month day
  return s

/-- What follows a time of day. -/
def time? (s : List Char) : Option (List Char) := do
  let (_, s) ← fixedNumber? 2 0 23 s
  let s ← after? ':' s
  let (_, s) ← fixedNumber? 2 0 59 s
  let s ← after? ':' s
  let (_, s) ← fixedNumber? 2 0 60 s
  match s with
  | '.' :: rest =>
    let digits := rest.takeWhile Char.isDigit
    if digits.isEmpty then none else return rest.drop digits.length
  | _ => return s

/-- Whether a text is an offset from UTC, or nothing. -/
def isOffset (s : List Char) : Bool :=
  match s with
  | [] => true
  | ['Z'] => true
  | ['z'] => true
  | c :: rest =>
    (c == '+' || c == '-') &&
      (do
        let (_, s) ← fixedNumber? 2 0 23 rest
        let s ← after? ':' s
        let (_, s) ← fixedNumber? 2 0 59 s
        return s.isEmpty).getD false

/-- Whether a text is a date, a time, or a date with a time and perhaps an offset. -/
def isDateTime (s : List Char) : Bool :=
  match date? s with
  | some [] => true
  | some (c :: rest) =>
    (c == 'T' || c == 't' || c == ' ') && ((time? rest).map isOffset).getD false
  | none => (time? s) == some []

/-- What a date stands for: an object that has none of the members that a record asks for. -/
def dateDocument : Document := .object [("$date", .null)]

/-- The scalar that a run of characters writes. -/
def scalar? (run : List Char) : Option Document :=
  if run = "true".toList then some (.bool true)
  else if run = "false".toList then some (.bool false)
  else if ["inf", "+inf", "-inf", "nan", "+nan", "-nan"].any (·.toList == run) then some notFinite
  else if isDateTime run then some dateDocument
  else
    match run with
    | '0' :: 'x' :: digits => based? 16 digits
    | '0' :: 'o' :: digits => based? 8 digits
    | '0' :: 'b' :: digits => based? 2 digits
    | '+' :: rest => decimal? false rest
    | '-' :: rest => decimal? true rest
    | s => decimal? false s

/-- The run of characters of a scalar and what follows it; one blank may stand between a date and
a time. -/
def scalarRun (s : List Char) : List Char × List Char :=
  let belongs (c : Char) := c.isAlphanum || c == '_' || c == '+' || c == '-' || c == '.' || c == ':'
  let (run, rest) := s.span belongs
  match date? run, rest with
  | some [], ' ' :: d :: after =>
    if d.isDigit then
      let (time, rest) := (d :: after).span belongs
      (run ++ ' ' :: time, rest)
    else (run, rest)
  | _, _ => (run, rest)

end EventFlow.Toml
