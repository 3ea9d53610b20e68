import EventFlow.Json.Reader
import EventFlow.Json.Record

/-!
# Shapes

A `Shape` says what may be written for a value before the value is read. `Shape.fault?` reads a
text once, from its first character on, and finds the first thing that is wrong with it: either
the text is no JSON there, or what stands there cannot be of the shape. What comes after the first
fault does not count, and neither does what follows the value. Whether a record is complete is left
to its reader.
-/

set_option autoImplicit false

namespace EventFlow

/-- What may be written for a value. -/
inductive Shape where
  /-- A text or a number that passes a test. -/
  | scalar (accepts : Document → Bool)
  /-- Any value. -/
  | free
  /-- `null` or a value of another shape. -/
  | optional (value : Shape)
  | list (item : Shape)
  /-- One of several names, or an object that binds it to `null`. -/
  | name (isKnown : String → Bool)
  /-- An object with fields, its other members skipped, or a list of the fields in order. -/
  | record (fields : List (String × Shape))
  /-- An object with fields and other members of any value. -/
  | extensible (fields : List (String × Shape))
  /-- An object with a tag and other members of any value, or a list that starts with the tag. The
  test is made when the whole is read. -/
  | tagged (tag : String) (isKnown : String → Bool) (accepts : Document → Bool)

namespace Shape

/-! ## Scalars -/

/-- A text that passes a test. -/
def textWhere (accepts : String → Bool) : Shape :=
  .scalar fun
    | .string s => accepts s
    | _ => false

/-- A text. -/
def text : Shape := textWhere fun _ => true

/-- A list of texts. -/
def texts : Shape := .list text

/-- A point of time. -/
def instant : Shape := textWhere fun s => (Instant.read? s).isSome

/-- A natural number below a bound. -/
def natural (bound : Nat) : Shape := .scalar fun d => (d.natBelow? bound).isSome

/-- One of several names. -/
def oneOf {α : Type} (named : String → Option α) : Shape := .name fun s => (named s).isSome

/-! ## The first fault -/

/-- What is wrong with a text. -/
inductive Fault where
  /-- The text is not JSON. -/
  | malformed
  /-- The text is JSON of another shape. -/
  | misshapen
deriving DecidableEq

/-- A walk over a text: what follows the part that is faultless, or the first fault. -/
abbrev Walk := List Char → Except Fault (List Char)

open Document (readValue readQuoted readWord skipBlanks)

/-- A value that only has to be well formed. -/
def skipped (nesting : Nat) : Walk := fun s =>
  match readValue (2 * s.length + 2) nesting (skipBlanks s) with
  | some (_, rest) => .ok rest
  | none => .error .malformed

/-- A value that passes a test, every part of it readable. -/
def read (nesting : Nat) (accepts : Document → Bool) : Walk := fun s =>
  match readValue (2 * s.length + 2) nesting (skipBlanks s) with
  | some (d, rest) =>
    if !d.isReadable then .error .malformed
    else if accepts d then .ok rest
    else .error .misshapen
  | none => .error .malformed

/-- A value that is neither list nor object and passes a test. At an opening bracket the value is
already misshapen. -/
def readScalar (nesting : Nat) (accepts : Document → Bool) : Walk := fun s =>
  match skipBlanks s with
  | '[' :: _ => .error .misshapen
  | '\x7b' :: _ => .error .misshapen
  | start => read nesting accepts start

/-- A value of a scalar's kind where none may stand. -/
def misplaced (nesting : Nat) : Walk := readScalar nesting fun _ => false

/-- One character, blanks before it. -/
def mark (c : Char) : Walk := fun s =>
  match skipBlanks s with
  | d :: rest => if d = c then .ok rest else .error .malformed
  | [] => .error .malformed

/-- The key of a member, and what follows it. -/
def readKey (s : List Char) : Except Fault (String × List Char) :=
  match skipBlanks s with
  | '"' :: quoted =>
    match readQuoted [] true quoted with
    | some ((true, key), rest) => .ok (key, rest)
    | _ => .error .malformed
  | _ => .error .malformed

/-- One of several names. -/
def readName (nesting : Nat) (isKnown : String → Bool) : Walk := fun s => do
  let known (s : List Char) : Except Fault (List Char) := do
    let (word, rest) ← readKey s
    if isKnown word then .ok rest else .error .misshapen
  match skipBlanks s with
  | '\x7b' :: inside => do
    let beforeValue ← mark ':' (← known inside)
    let afterValue ← readScalar nesting (fun | .null => true | _ => false) beforeValue
    mark '\x7d' afterValue
  | start => known start

mutual

/-- A value of a shape. -/
def walk : (fuel : Nat) → (nesting : Nat) → Shape → Walk
  | 0, _, _, _ => .error .malformed
  | fuel + 1, nesting, shape, s =>
    match shape with
    | .scalar accepts => readScalar nesting accepts s
    | .free => read nesting (fun _ => true) s
    | .optional value =>
      match skipBlanks s with
      | 'n' :: _ => read nesting (fun _ => true) s
      | _ => walk fuel nesting value s
    | .list item =>
      match skipBlanks s with
      | '[' :: inside => walkItems fuel (nesting - 1) item inside
      | _ => misplaced nesting s
    | .name isKnown => readName nesting isKnown s
    | .record fields =>
      match skipBlanks s with
      | '[' :: inside => walkFields fuel (nesting - 1) (fields.map (·.2)) inside
      | '\x7b' :: inside => walkMembers fuel (nesting - 1) fields none [] inside
      | _ => misplaced nesting s
    | .extensible fields =>
      match skipBlanks s with
      | '\x7b' :: inside => walkMembers fuel (nesting - 1) fields (some .free) [] inside
      | _ => misplaced nesting s
    | .tagged tag isKnown accepts =>
      let known := textWhere isKnown
      match skipBlanks s with
      | '[' :: inside => do
        let _ ← walkTagged fuel (nesting - 1) known inside
        read nesting accepts s
      | '\x7b' :: inside => do
        let _ ← walkMembers fuel (nesting - 1) [(tag, known)] (some .free) [] inside
        read nesting accepts s
      | _ => misplaced nesting s

/-- The items of a list up to its closing bracket. -/
def walkItems : (fuel : Nat) → (nesting : Nat) → Shape → Walk
  | 0, _, _, _ => .error .malformed
  | fuel + 1, nesting, item, s =>
    match skipBlanks s with
    | ']' :: after => .ok after
    | start => do walkMoreItems fuel nesting item (← walk fuel nesting item start)

/-- What follows an item of a list. -/
def walkMoreItems : (fuel : Nat) → (nesting : Nat) → Shape → Walk
  | 0, _, _, _ => .error .malformed
  | fuel + 1, nesting, item, s =>
    match skipBlanks s with
    | ']' :: after => .ok after
    | ',' :: more => do walkMoreItems fuel nesting item (← walk fuel nesting item more)
    | _ => .error .malformed

/-- A list that starts with a tag and goes on with any values. -/
def walkTagged : (fuel : Nat) → (nesting : Nat) → Shape → Walk
  | 0, _, _, _ => .error .malformed
  | fuel + 1, nesting, tag, s =>
    match skipBlanks s with
    | ']' :: _ => .error .misshapen
    | start => do walkMoreItems fuel nesting .free (← walk fuel nesting tag start)

/-- The fields of a record that is written as a list. It may break off, but not go on. -/
def walkFields : (fuel : Nat) → (nesting : Nat) → List Shape → Walk
  | 0, _, _, _ => .error .malformed
  | _ + 1, _, [], s => mark ']' s
  | fuel + 1, nesting, field :: fields, s =>
    match skipBlanks s with
    | ']' :: after => .ok after
    | start => do walkMoreFields fuel nesting fields (← walk fuel nesting field start)

/-- What follows a field of a record that is written as a list. -/
def walkMoreFields : (fuel : Nat) → (nesting : Nat) → List Shape → Walk
  | 0, _, _, _ => .error .malformed
  | _ + 1, _, [], s => mark ']' s
  | fuel + 1, nesting, field :: fields, s =>
    match skipBlanks s with
    | ']' :: after => .ok after
    | ',' :: more => do walkMoreFields fuel nesting fields (← walk fuel nesting field more)
    | _ => .error .malformed

/-- The members of an object up to its closing brace. A field is there once at most; the other
members have the shape that is given, or are skipped. -/
def walkMembers : (fuel : Nat) → (nesting : Nat) → List (String × Shape) → (others : Option Shape) →
    (found : List String) → Walk
  | 0, _, _, _, _, _ => .error .malformed
  | fuel + 1, nesting, fields, others, found, s =>
    match found, skipBlanks s with
    | [], '\x7d' :: after => .ok after
    | _, start => do
      let (key, afterKey) ← readKey start
      let field := fields.find? (·.1 == key)
      if field.isSome && found.contains key then .error .misshapen
      let value ← mark ':' afterKey
      let after ← match field.map (·.2) <|> others with
        | some shape => walk fuel nesting shape value
        | none => skipped nesting value
      match skipBlanks after with
      | '\x7d' :: rest => .ok rest
      | ',' :: more => walkMembers fuel nesting fields others (key :: found) more
      | _ => .error .malformed

end

/-- The first fault of the value at the start of a text. -/
def fault? (shape : Shape) (s : List Char) : Option Fault :=
  match walk (3 * s.length + 3) Document.maxNesting shape s with
  | .ok _ => none
  | .error fault => some fault

end Shape

end EventFlow
