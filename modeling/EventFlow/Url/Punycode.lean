/-!
# Punycode

The letters of a name beyond ASCII are written behind its other letters as numbers: how far the
next letter is from the one before it, in the order of their codes and their places. The numbers
have 36 digits, and a bias that follows their size decides how many digits each takes.
-/

set_option autoImplicit false

namespace EventFlow.Url.Punycode

/-- A digit below 36: letters first, then figures. -/
def digitChar (n : Nat) : Char :=
  if n < 26 then Char.ofNat ('a'.toNat + n) else Char.ofNat ('0'.toNat + (n - 26))

/-- The value of a digit. -/
def digitValue? (c : Char) : Option Nat :=
  if 'a' ≤ c ∧ c ≤ 'z' then some (c.toNat - 'a'.toNat)
  else if 'A' ≤ c ∧ c ≤ 'Z' then some (c.toNat - 'A'.toNat)
  else if '0' ≤ c ∧ c ≤ '9' then some (c.toNat - '0'.toNat + 26)
  else none

/-- The least digit at a place that does not end a number. -/
def threshold (bias place : Nat) : Nat :=
  if place ≤ bias then 1 else if bias + 26 ≤ place then 26 else place - bias

theorem threshold_pos (bias place : Nat) : 1 ≤ threshold bias place := by
  unfold threshold
  split
  · omega
  · split <;> omega

/-- A distance brought below 456, and how many steps of 36 it took. -/
def damped (steps n : Nat) : Nat × Nat :=
  if 455 < n then damped (steps + 36) (n / 35) else (steps, n)
termination_by n
decreasing_by exact Nat.div_lt_self (by omega) (by omega)

/-- The bias after a distance, where so many letters have a place. -/
def adapt (distance letters : Nat) (isFirst : Bool) : Nat :=
  let half := if isFirst then distance / 700 else distance / 2
  let (steps, n) := damped 0 (half + half / letters)
  steps + 36 * n / (n + 38)

/-- A number, its least digit first. -/
def digits (bias place n : Nat) : List Char :=
  let t := threshold bias place
  if n < t then [digitChar n]
  else digitChar (t + (n - t) % (36 - t)) :: digits bias (place + 36) ((n - t) / (36 - t))
termination_by n
decreasing_by
  have := threshold_pos bias place
  have := Nat.div_le_self (n - threshold bias place) (36 - threshold bias place)
  omega

/-- What is written so far: the distance to the next letter, the bias, and how many letters have a
place. -/
structure Writing where
  written : List Char
  distance : Nat
  bias : Nat
  placed : Nat

/-- Passes a letter of the name while the letters of one code are written. -/
def Writing.pass (code basic : Nat) (w : Writing) (c : Char) : Writing :=
  if c.toNat < code then { w with distance := w.distance + 1 }
  else if c.toNat = code then
    ⟨w.written ++ digits w.bias 36 w.distance, 0,
      adapt w.distance (w.placed + 1) (w.placed == basic), w.placed + 1⟩
  else w

/-- Writes the letters of several codes, in the order of the codes. -/
def Writing.codes (name : List Char) (basic : Nat) : (least : Nat) → List Nat → Writing → Writing
  | _, [], w => w
  | least, code :: rest, w =>
    let w := name.foldl (Writing.pass code basic)
      { w with distance := w.distance + (code - least) * (w.placed + 1) }
    Writing.codes name basic (code + 1) rest { w with distance := w.distance + 1 }

/-- A name in ASCII. -/
def encode (name : List Char) : List Char :=
  let basic := name.filter (·.toNat < 0x80)
  let codes := ((name.filter (0x80 ≤ ·.toNat)).map Char.toNat).mergeSort.eraseDups
  let w := Writing.codes name basic.length 0x80 codes ⟨[], 0, 72, basic.length⟩
  basic ++ (if basic.isEmpty then [] else ['-']) ++ w.written

/-- A number at the start of a text added to another, and what follows it. -/
def readDigits (bias : Nat) : (place weight n : Nat) → List Char → Option (Nat × List Char)
  | _, _, _, [] => none
  | place, weight, n, c :: rest =>
    match digitValue? c with
    | none => none
    | some d =>
      let t := threshold bias place
      if d < t then some (n + d * weight, rest)
      else readDigits bias (place + 36) (weight * (36 - t)) (n + d * weight) rest

/-- The name with the letters that the numbers stand for put into their places. The fuel is at
least the length of the text. -/
def place (bias code index : Nat) (name : List Char) : (fuel : Nat) → List Char →
    Option (List Char)
  | _, [] => some name
  | 0, _ => none
  | fuel + 1, s =>
    match readDigits bias 36 1 index s with
    | none => none
    | some (n, rest) =>
      let letters := name.length + 1
      let code := code + n / letters
      if Nat.isValidChar code then
        let spot := n % letters
        place (adapt (n - index) letters (index == 0)) code (spot + 1)
          (name.take spot ++ Char.ofNat code :: name.drop spot) fuel rest
      else none

/-- The name that is written in ASCII. -/
def decode? (s : List Char) : Option (List Char) :=
  let numbers := (s.reverse.takeWhile (· != '-')).reverse
  let basic := (s.take (s.length - numbers.length)).dropLast
  place 72 0x80 0 basic numbers.length numbers

end EventFlow.Url.Punycode
