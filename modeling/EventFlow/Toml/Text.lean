import EventFlow.Json.Reader

/-!
# Texts in TOML

A text stands between single or double quotes, or between three of them and then over several
lines. Between double quotes a backslash escapes; between single quotes every character stands for
itself.
-/

set_option autoImplicit false

namespace EventFlow.Toml

/-- Whether a character may stand in a comment or a text: no control but the tab. -/
def isPlain (c : Char) : Bool := c == '\t' || (decide (0x20 ≤ c.toNat) && c.toNat != 0x7F)

/-- The character of some hexadecimal digits, if it is one. -/
def codePoint? (digits : List Char) : Option Char :=
  match digits.foldlM (fun n c => (Text.hexDigit? c).map (n * 16 + ·)) 0 with
  | some n => if n < 0xD800 ∨ (0xDFFF < n ∧ n < 0x110000) then some (Char.ofNat n) else none
  | none => none

/-- The character that a letter after a backslash stands for. -/
def escaped? : Char → Option Char
  | 'b' => some '\x08'
  | 't' => some '\t'
  | 'n' => some '\n'
  | 'f' => some '\x0c'
  | 'r' => some '\r'
  | '"' => some '"'
  | '\\' => some '\\'
  | _ => none

/-- The character that an escape stands for, and what follows it; the backslash is read. -/
def escape? : List Char → Option (Char × List Char)
  | 'u' :: rest =>
    if 4 ≤ rest.length then (codePoint? (rest.take 4)).map fun c => (c, rest.drop 4) else none
  | 'U' :: rest =>
    if 8 ≤ rest.length then (codePoint? (rest.take 8)).map fun c => (c, rest.drop 8) else none
  | c :: rest => (escaped? c).map fun e => (e, rest)
  | [] => none

/-- The rest of a text between single quotes, what is read being kept in reverse. -/
def literal? (read : List Char) : List Char → Option (String × List Char)
  | '\'' :: rest => some (String.ofList read.reverse, rest)
  | c :: rest => if isPlain c then literal? (c :: read) rest else none
  | [] => none

/-- The rest of a text between double quotes. The fuel is at least the length of the text. -/
def basic? : Nat → List Char → List Char → Option (String × List Char)
  | 0, _, _ => none
  | fuel + 1, read, s =>
    match s with
    | '"' :: rest => some (String.ofList read.reverse, rest)
    | '\\' :: rest =>
      match escape? rest with
      | some (c, after) => basic? fuel (c :: read) after
      | none => none
    | c :: rest => if isPlain c then basic? fuel (c :: read) rest else none
    | [] => none

/-- The quotes that end a text over several lines: three of them, and before these at most two
that belong to the text. -/
def closing? (quote : Char) (s : List Char) : Option (List Char × List Char) :=
  let quotes := s.takeWhile (· == quote)
  if 3 ≤ quotes.length then
    let inside := min (quotes.length - 3) 2
    some (List.replicate inside quote, s.drop (inside + 3))
  else none

/-- What follows a line break. -/
def afterBreak? : List Char → Option (List Char)
  | '\n' :: rest => some rest
  | '\r' :: '\n' :: rest => some rest
  | _ => none

/-- What follows the blanks of a line and a line break, and then all blanks and line breaks. -/
def afterFolded? (s : List Char) : Option (List Char) :=
  let isSpace (c : Char) := c == ' ' || c == '\t'
  (afterBreak? (s.dropWhile isSpace)).map fun rest => skip rest.length rest
where
  /-- Skips blanks and line breaks. -/
  skip : Nat → List Char → List Char
    | 0, s => s
    | fuel + 1, s =>
      match s with
      | ' ' :: rest => skip fuel rest
      | '\t' :: rest => skip fuel rest
      | other =>
        match afterBreak? other with
        | some rest => skip fuel rest
        | none => other

/-- The rest of a text over several lines. The fuel is at least the length of the text. -/
def lines? (quote : Char) : Nat → List Char → List Char → Option (String × List Char)
  | 0, _, _ => none
  | fuel + 1, read, s =>
    match closing? quote s with
    | some (inside, rest) => some (String.ofList (read.reverse ++ inside), rest)
    | none =>
      match afterBreak? s with
      | some rest => lines? quote fuel ('\n' :: read) rest
      | none =>
        match s with
        | '\\' :: rest =>
          if quote = '"' then
            match afterFolded? rest with
            | some after => lines? quote fuel read after
            | none =>
              match escape? rest with
              | some (c, after) => lines? quote fuel (c :: read) after
              | none => none
          else lines? quote fuel ('\\' :: read) rest
        | c :: rest => if isPlain c then lines? quote fuel (c :: read) rest else none
        | [] => none

/-- A text that starts with a quote; one over several lines does not begin with a line break. -/
def text? (s : List Char) : Option (String × List Char) :=
  let fuel := s.length + 1
  match s with
  | '"' :: '"' :: '"' :: rest => lines? '"' fuel [] ((afterBreak? rest).getD rest)
  | '\'' :: '\'' :: '\'' :: rest => lines? '\'' fuel [] ((afterBreak? rest).getD rest)
  | '"' :: rest => basic? fuel [] rest
  | '\'' :: rest => literal? [] rest
  | _ => none

end EventFlow.Toml
