import EventFlow.Record.Action
import EventFlow.Template.Path
import EventFlow.Text.Blank

/-!
# Placeholders in text

A placeholder is a path between double braces, blanks around it allowed. `interpolate` puts the
text of the value at the path in its place, all at once; a placeholder whose path leads nowhere or
to `null` stays as it is written. What is put in is not looked at again.
-/

set_option autoImplicit false

namespace EventFlow.Template

/-- The characters of a key in a placeholder. -/
def isKeyChar (c : Char) : Bool := c.isAlphanum || c == '_' || c == '-'

/-- The characters of a path in a placeholder. -/
def isPathChar (c : Char) : Bool := isKeyChar c || c == '.'

/-- A placeholder at the start of a text. -/
structure Placeholder where
  path : List Char
  /-- The characters that write it. -/
  written : List Char
  rest : List Char
deriving DecidableEq

/-- The placeholder at the start of a text. -/
def placeholder? : List Char → Option Placeholder
  | '\x7b' :: '\x7b' :: s =>
    let before := s.takeWhile Text.isBlank
    let inside := s.dropWhile Text.isBlank
    let path := inside.takeWhile isPathChar
    let behind := inside.dropWhile isPathChar
    if (Path.keys path).all fun key => !key.isEmpty then
      match behind.dropWhile Text.isBlank with
      | '\x7d' :: '\x7d' :: rest =>
        let after := behind.takeWhile Text.isBlank
        some ⟨path, ['\x7b', '\x7b'] ++ before ++ path ++ after ++ ['\x7d', '\x7d'], rest⟩
      | _ => none
    else none
  | _ => none

/-- Nothing of a text is lost between its placeholder and what follows. -/
theorem written_append_rest {s : List Char} {p : Placeholder} (h : placeholder? s = some p) :
    p.written ++ p.rest = s := by
  unfold placeholder? at h
  split at h
  · next s =>
    dsimp only at h
    split at h
    · split at h
      · next rest hrest =>
        have inside := List.takeWhile_append_dropWhile (p := Text.isBlank) (l := s)
        have path := List.takeWhile_append_dropWhile (p := isPathChar)
          (l := s.dropWhile Text.isBlank)
        have after := List.takeWhile_append_dropWhile (p := Text.isBlank)
          (l := (s.dropWhile Text.isBlank).dropWhile isPathChar)
        rw [hrest] at after
        cases h
        simp only [List.cons_append, List.nil_append, List.append_assoc]
        rw [after, path, inside]
      · cases h
    · cases h
  · cases h

/-- A part of a text. -/
inductive Piece where
  | plain (c : Char)
  /-- A placeholder, and the characters that write it. -/
  | placeholder (path written : List Char)
deriving DecidableEq

/-- A text in pieces. The fuel is at least the length of the text. -/
def piecesFrom : Nat → List Char → List Piece
  | 0, _ => []
  | _, [] => []
  | fuel + 1, c :: s =>
    match placeholder? (c :: s) with
    | some found => .placeholder found.path found.written :: piecesFrom fuel found.rest
    | none => .plain c :: piecesFrom fuel s

/-- A text in pieces, the leftmost placeholder first. -/
def pieces (s : List Char) : List Piece := piecesFrom s.length s

/-- The value that a placeholder stands for: `null` is none. -/
def resolve (data : Json) (path : List Char) : Option Json :=
  match data.lookup (String.ofList path) with
  | some .null => none
  | found => found

/-- The text that stands for a piece. -/
def render (data : Json) : Piece → List Char
  | .plain c => [c]
  | .placeholder path written =>
    match resolve data path with
    | some v => v.display.toList
    | none => written

/-- Whether a piece needs no value or has one. -/
def isResolved (data : Json) : Piece → Bool
  | .plain _ => true
  | .placeholder path _ => (resolve data path).isSome

/-- A text with every placeholder replaced that has a value. -/
def interpolate (text : String) (data : Json) : String :=
  String.ofList ((pieces text.toList).flatMap (render data))

/-- A text with every placeholder replaced, if every one has a value. -/
def interpolate? (text : String) (data : Json) : Option String :=
  if (pieces text.toList).all (isResolved data) then some (interpolate text data) else none

mutual

/-- A value with every string in it interpolated; the keys of objects stay. -/
def interpolateValue (data : Json) : Json → Json
  | .string s => .string (interpolate s data)
  | .array items => .array (interpolateItems data items)
  | .object members => .object (interpolateMembers data members)
  | other => other

/-- Values with every string in them interpolated. -/
def interpolateItems (data : Json) : List Json → List Json
  | [] => []
  | v :: rest => interpolateValue data v :: interpolateItems data rest

/-- Members with every string in their values interpolated. -/
def interpolateMembers (data : Json) : List (String × Json) → List (String × Json)
  | [] => []
  | (k, v) :: rest => (k, interpolateValue data v) :: interpolateMembers data rest

end

/-- An action with its template, recipients and settings interpolated. -/
def interpolateAction (data : Json) (a : Action) : Action :=
  { a with
    template := interpolate a.template data
    recipients := a.recipients.map (interpolateValue data)
    config := interpolateValue data a.config }

end EventFlow.Template
