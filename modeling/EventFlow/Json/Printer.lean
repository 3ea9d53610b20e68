import EventFlow.Json.Document
import EventFlow.Number.Shortest

/-!
# Writing JSON

`Document.compact` writes without blanks and `Document.pretty` with one member or item a line and
two spaces for each level. Text is escaped only where JSON demands it: the quote, the backslash
and the control characters.
-/

set_option autoImplicit false

namespace EventFlow

/-- Doubles in JSON are plain from `1e-5` on and carry the sign of a positive exponent. -/
def jsonFloats : FloatLayout := ⟨-4, true⟩

/-- The text of a JSON number. -/
def JsonNumber.text : JsonNumber → String
  | .integer n => toString n.val
  | .float x => jsonFloats.text x

namespace Document

/-- The two lower-case hexadecimal digits of a control character. -/
def controlDigits (c : Char) : List Char :=
  [Nat.digitChar (c.toNat / 16), Nat.digitChar (c.toNat % 16)]

/-- One character inside a quoted text. -/
def escape (c : Char) : List Char :=
  if c = '"' then ['\\', '"']
  else if c = '\\' then ['\\', '\\']
  else if c = '\n' then ['\\', 'n']
  else if c = '\r' then ['\\', 'r']
  else if c = '\t' then ['\\', 't']
  else if c = '\x08' then ['\\', 'b']
  else if c = '\x0c' then ['\\', 'f']
  else if c.toNat < 0x20 then '\\' :: 'u' :: '0' :: '0' :: controlDigits c
  else [c]

/-- A text between quotes. -/
def quote (s : String) : List Char := '"' :: (s.toList.flatMap escape ++ ['"'])

/-- A leaf, or the brackets of an empty document. -/
def leaf : Document → List Char
  | .null => "null".toList
  | .bool true => "true".toList
  | .bool false => "false".toList
  | .number n => n.text.toList
  | .string s => quote s
  | .array _ => ['[', ']']
  | .object _ => ['\x7b', '\x7d']
  | .unreadable => "null".toList

mutual

/-- The characters of a document written without blanks. -/
def compactChars : Document → List Char
  | .array items => '[' :: (compactItems items ++ [']'])
  | .object members => '\x7b' :: (compactMembers members ++ ['\x7d'])
  | other => leaf other

/-- Items separated by commas. -/
def compactItems : List Document → List Char
  | [] => []
  | [d] => compactChars d
  | d :: rest => compactChars d ++ ',' :: compactItems rest

/-- Members separated by commas. -/
def compactMembers : List (String × Document) → List Char
  | [] => []
  | [(k, d)] => quote k ++ ':' :: compactChars d
  | (k, d) :: rest => quote k ++ ':' :: (compactChars d ++ ',' :: compactMembers rest)

end

/-- A line break and the indent of a level. -/
def newline (level : Nat) : List Char := '\n' :: List.replicate (2 * level) ' '

mutual

/-- The characters of a document at a level of indentation. -/
def prettyChars (level : Nat) : Document → List Char
  | .array (d :: rest) =>
    '[' :: (prettyItems (level + 1) (d :: rest) ++ (newline level ++ [']']))
  | .object (m :: rest) =>
    '\x7b' :: (prettyMembers (level + 1) (m :: rest) ++ (newline level ++ ['\x7d']))
  | other => leaf other

/-- Items on lines of their own. -/
def prettyItems (level : Nat) : List Document → List Char
  | [] => []
  | [d] => newline level ++ prettyChars level d
  | d :: rest => newline level ++ (prettyChars level d ++ ',' :: prettyItems level rest)

/-- Members on lines of their own. -/
def prettyMembers (level : Nat) : List (String × Document) → List Char
  | [] => []
  | [(k, d)] => newline level ++ (quote k ++ ':' :: ' ' :: prettyChars level d)
  | (k, d) :: rest =>
    newline level ++
      (quote k ++ ':' :: ' ' :: (prettyChars level d ++ ',' :: prettyMembers level rest))

end

/-- A document on one line, without blanks. -/
def compact (d : Document) : String := String.ofList d.compactChars

/-- A document with two spaces of indent. -/
def pretty (d : Document) : String := String.ofList (d.prettyChars 0)

end Document

/-- A value on one line, its members in key order. -/
def Json.compact (v : Json) : String := (Document.ofJson v).compact

end EventFlow
