import EventFlow.Text.Blank
import EventFlow.Text.Digits
import EventFlow.Time.Instant

/-!
# Times in RFC 3339 text

`Instant.read?` takes the relaxed form: blanks before a number, before a separator and before the
offset, numbers without leading zeros, a blank or a small letter between date and time, an offset
without colon. Seconds and offset are required, and the date must be told both as it is written
and in UTC. `Instant.text` writes UTC with the fewest of 0, 3,
6 or 9 fractional digits that lose nothing.
-/

set_option autoImplicit false

namespace EventFlow

namespace Rfc3339

open Text

/-- A part of a text that is read, and what follows it. -/
abbrev Reads (α : Type) := List Char → Option (α × List Char)

/-- A number of at most two digits between two bounds, blanks before it. -/
def twoDigits (low high : Nat) : Reads Nat := fun s =>
  match number (some 2) (trimStart s) with
  | some (n, rest) => if low ≤ n ∧ n ≤ high then some (n, rest) else none
  | none => none

/-- A year: four digits, or any number of them after a sign. -/
def year : Reads Int := fun s =>
  match trimStart s with
  | '-' :: rest => (number none rest).map fun (n, rest) => (-(n : Int), rest)
  | '+' :: rest => (number none rest).map fun (n, rest) => ((n : Int), rest)
  | plain => (number (some 4) plain).map fun (n, rest) => ((n : Int), rest)

/-- A separator, blanks before it. -/
def separator (c : Char) : Reads Unit := fun s =>
  match trimStart s with
  | d :: rest => if d = c then some ((), rest) else none
  | [] => none

/-- A date. -/
def date : Reads Date := fun s => do
  let (y, s) ← year s
  let ((), s) ← separator '-' s
  let (m, s) ← twoDigits 1 12 s
  let ((), s) ← separator '-' s
  let (d, s) ← twoDigits 1 31 s
  let day ← Date.ofParts? y m d
  return (day, s)

/-- The fraction of a second in nanoseconds: nine digits count, further ones are dropped. -/
def fraction : Reads Nat := fun s =>
  match s with
  | '.' :: rest =>
    let digits := rest.takeWhile Char.isDigit
    if digits.isEmpty then none
    else
      let kept := digits.take 9
      some (decimalValue kept * Nat.pow 10 (9 - kept.length), rest.drop digits.length)
  | other => some (0, other)

/-- The hour, minute and second of a day, and the nanoseconds after it; a 60th second is the
second half of the 59th. -/
def time : Reads (Nat × Nat) := fun s => do
  let (h, s) ← twoDigits 0 23 s
  let ((), s) ← separator ':' s
  let (m, s) ← twoDigits 0 59 s
  let ((), s) ← separator ':' s
  let (sec, s) ← twoDigits 0 60 s
  let (nanos, s) ← fraction s
  if sec = 60 then return ((h * 3600 + m * 60 + 59, 1000000000 + nanos), s)
  else return ((h * 3600 + m * 60 + sec, nanos), s)

/-- The minutes of an offset: two digits below 60. -/
def offsetMinutes : Reads Nat
  | a :: b :: rest =>
    if a.isDigit ∧ b.isDigit ∧ a < '6' then some (decimalValue [a, b], rest) else none
  | _ => none

/-- Hours and minutes of an offset in seconds, with colons or blanks between them. -/
def offsetAmount : Reads Nat
  | a :: b :: rest =>
    if a.isDigit ∧ b.isDigit then
      (offsetMinutes (rest.dropWhile fun c => c == ':' || isBlank c)).map fun (minutes, after) =>
        (decimalValue [a, b] * 3600 + minutes * 60, after)
    else none
  | _ => none

/-- An offset from UTC in seconds, less than a day. -/
def offset : Reads Int := fun s =>
  match s with
  | 'Z' :: rest => some (0, rest)
  | 'z' :: rest => some (0, rest)
  | a :: b :: c :: rest =>
    if [a, b, c].map Char.toUpper = ['U', 'T', 'C'] then some (0, rest)
    else
      let amount := offsetAmount (b :: c :: rest)
      match amount with
      | some (seconds, after) =>
        if 86400 ≤ seconds then none
        else if a = '+' then some ((seconds : Int), after)
        else if a = '-' ∨ a = '\u2212' then some (-(seconds : Int), after)
        else none
      | none => none
  | _ => none

end Rfc3339

namespace Instant

open Rfc3339 Text

/-- The point of time that a text tells. -/
def read? (text : String) : Option Instant := do
  let (day, s) ← Rfc3339.date text.toList
  let s ← match s with
    | c :: rest => if c = 'T' ∨ c = 't' ∨ c = ' ' then some rest else none
    | [] => none
  let ((second, nanos), s) ← Rfc3339.time s
  let (shift, s) ← Rfc3339.offset (trimStart s)
  if !(trimStart s).isEmpty then none
  else if h : nanos < 2000000000 then
    let told : Instant := ⟨day.toDays * 86400 + (second : Int) - shift, ⟨nanos, h⟩⟩
    if told.isTold then some told else none
  else none

/-- A year with four digits, or with a sign and at least four where it has another length. -/
def yearText (y : Int) : List Char :=
  if 0 ≤ y ∧ y ≤ 9999 then padded 4 y.toNat
  else (if y < 0 then '-' else '+') :: padded 4 y.natAbs

/-- Year, month and day. -/
def dateText (a : Instant) : String :=
  let d := a.date
  String.ofList (yearText d.year ++ '-' :: padded 2 d.month ++ '-' :: padded 2 d.day)

/-- The fraction of a second with the fewest of 0, 3, 6 or 9 digits that lose nothing. -/
def fractionText (nanos : Nat) : List Char :=
  if nanos = 0 then []
  else if nanos % 1000000 = 0 then '.' :: padded 3 (nanos / 1000000)
  else if nanos % 1000 = 0 then '.' :: padded 6 (nanos / 1000)
  else '.' :: padded 9 nanos

/-- Date and time of day in UTC, without the offset. -/
def localText (a : Instant) : String :=
  let second := (a.seconds - a.seconds.fdiv 86400 * 86400).toNat
  let leap := if 1000000000 ≤ a.nanos.val then 1 else 0
  a.dateText ++ String.ofList ('T' :: padded 2 (second / 3600) ++
    ':' :: padded 2 (second / 60 % 60) ++ ':' :: padded 2 (second % 60 + leap) ++
    fractionText (a.nanos.val % 1000000000))

/-- Date and time in UTC, the offset written as the letter `Z`. -/
def text (a : Instant) : String := a.localText ++ "Z"

/-- Date and time in UTC, the offset written in digits. -/
def offsetText (a : Instant) : String := a.localText ++ "+00:00"

end Instant

end EventFlow
