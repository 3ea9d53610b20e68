import EventFlow.Toml.Scalar
import EventFlow.Toml.Table
import EventFlow.Toml.Text

/-!
# Reading TOML

`Toml.read?` reads a whole text: a line is blank, a comment, a key with its value, or the header
of a table. Arrays and inline tables nest at most 79 levels deep, and a key has at most as many
parts.
-/

set_option autoImplicit false

namespace EventFlow.Toml

/-- How deep arrays and inline tables may nest, and how many parts a key may have. -/
def maxNesting : Nat := 79

/-- The text without blanks at its start; a line break is not one. -/
def skipSpaces (s : List Char) : List Char := s.dropWhile fun c => c == ' ' || c == '\t'

/-- What follows a comment, which may be missing, up to the end of the line. -/
def afterComment? (s : List Char) : Option (List Char) :=
  match s with
  | '#' :: rest =>
    let rest := rest.dropWhile isPlain
    if rest.isEmpty || (afterBreak? rest).isSome then some rest else none
  | other => some other

/-- What follows blanks, comments and line breaks. -/
def skipLines? : Nat → List Char → Option (List Char)
  | 0, s => some s
  | fuel + 1, s =>
    match afterComment? (skipSpaces s) with
    | none => none
    | some rest =>
      match afterBreak? rest with
      | some next => skipLines? fuel next
      | none => some rest

/-- One part of a key: bare, or between quotes on one line. -/
def keyPart? (s : List Char) : Option (String × List Char) :=
  match s with
  | '"' :: rest => basic? s.length [] rest
  | '\'' :: rest => literal? [] rest
  | _ =>
    let bare := s.takeWhile fun c => c.isAlphanum || c == '_' || c == '-'
    if bare.isEmpty then none else some (String.ofList bare, s.drop bare.length)

/-- The parts of a key, of which there are at most `left`, and what follows them. -/
def keyParts? : (left : Nat) → List Char → Option (List String × List Char)
  | 0, _ => none
  | left + 1, s =>
    match keyPart? (skipSpaces s) with
    | none => none
    | some (part, rest) =>
      match skipSpaces rest with
      | '.' :: after => (keyParts? left after).map fun (parts, rest) => (part :: parts, rest)
      | rest => some ([part], rest)

/-- A key: parts with dots between them, blanks around the parts. -/
def key? (s : List Char) : Option (List String × List Char) := keyParts? maxNesting s

mutual

/-- A value, and what follows it. -/
def value? : (fuel : Nat) → (nesting : Nat) → List Char → Option (Document × List Char)
  | 0, _, _ => none
  | fuel + 1, nesting, s =>
    match s with
    | '[' :: rest =>
      match nesting with
      | 0 => none
      | inside + 1 => (items? fuel inside rest).map fun (items, rest) => (.array items, rest)
    | '\x7b' :: rest =>
      match nesting with
      | 0 => none
      | inside + 1 =>
        match skipSpaces rest with
        | '\x7d' :: rest => some (.object [], rest)
        | rest =>
          (inline? fuel inside [] rest).map fun (entries, rest) =>
            (.object (membersOf entries), rest)
    | c :: _ =>
      if c = '"' ∨ c = '\'' then (text? s).map fun (text, rest) => (.string text, rest)
      else
        let (run, rest) := scalarRun s
        (scalar? run).map fun d => (d, rest)
    | [] => none

/-- The items of an array up to its closing bracket, over any number of lines. -/
def items? : (fuel : Nat) → (nesting : Nat) → List Char → Option (List Document × List Char)
  | 0, _, _ => none
  | fuel + 1, nesting, s =>
    match skipLines? s.length s with
    | none => none
    | some (']' :: rest) => some ([], rest)
    | some s =>
      match value? fuel nesting s with
      | none => none
      | some (d, rest) =>
        match skipLines? rest.length rest with
        | some (']' :: rest) => some ([d], rest)
        | some (',' :: rest) =>
          (items? fuel nesting rest).map fun (items, rest) => (d :: items, rest)
        | _ => none

/-- The entries of an inline table up to its closing brace, on one line. -/
def inline? : (fuel : Nat) → (nesting : Nat) → Entries → List Char → Option (Entries × List Char)
  | 0, _, _, _ => none
  | fuel + 1, nesting, entries, s =>
    match key? s with
    | some (path, '=' :: rest) =>
      match value? fuel nesting (skipSpaces rest) with
      | none => none
      | some (d, rest) =>
        match entries.assignPath path d, skipSpaces rest with
        | some entries, '\x7d' :: rest => some (entries, rest)
        | some entries, ',' :: rest => inline? fuel nesting entries rest
        | _, _ => none
    | _ => none

end

/-- The entries of a document, and the path of the table that keys are put into. -/
structure State where
  root : Entries
  current : List String

/-- The state after the header of a table. -/
def State.header (change : String → Entries → Option Entries) (path : List String) (x : State) :
    Option State :=
  match path.reverse with
  | [] => none
  | last :: before =>
    (x.root.within (change last) before.reverse).map fun root => ⟨root, path⟩

/-- The state after one line, and what follows the line. -/
def line? (x : State) (s : List Char) : Option (State × List Char) :=
  match s with
  | '[' :: '[' :: rest =>
    match key? rest with
    | some (path, ']' :: ']' :: rest) => (x.header Entries.append path).map fun x => (x, rest)
    | _ => none
  | '[' :: rest =>
    match key? rest with
    | some (path, ']' :: rest) => (x.header Entries.define path).map fun x => (x, rest)
    | _ => none
  | s =>
    match key? s with
    | some (path, '=' :: rest) =>
      match value? (2 * rest.length + 2) maxNesting (skipSpaces rest) with
      | some (d, rest) =>
        (x.root.within (Entries.assignPath path d) x.current).map fun root =>
          (⟨root, x.current⟩, rest)
      | none => none
    | _ => none

/-- The state after all lines. The fuel is at least the length of the text. -/
def lines : Nat → State → List Char → Option State
  | 0, x, s => if s.isEmpty then some x else none
  | fuel + 1, x, s =>
    match skipLines? s.length s with
    | none => none
    | some [] => some x
    | some s =>
      match line? x s with
      | none => none
      | some (x, rest) =>
        match afterComment? (skipSpaces rest) with
        | some [] => some x
        | some rest =>
          match afterBreak? rest with
          | some next => lines fuel x next
          | none => none
        | none => none

/-- The document of a text; a byte order mark at its start is passed over. -/
def read? (text : String) : Option Document :=
  let s := match text.toList with
    | '\ufeff' :: rest => rest
    | s => s
  (lines (s.length + 1) ⟨[], []⟩ s).map fun x => .object (membersOf x.root)

end EventFlow.Toml
