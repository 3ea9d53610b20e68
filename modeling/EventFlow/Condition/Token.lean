import EventFlow.Number.Decimal
import EventFlow.Number.Shortest
import EventFlow.Text.Blank
import EventFlow.Text.Quoted

/-!
# Tokens of expressions

`Token.scan` cuts the source of an expression into tokens. `===` and `!==` are other spellings of
`==` and `!=`; a field is a path between double braces; a text stands between single or double
quotes, and a backslash takes the character after it as it is. Positions in errors count
characters.
-/

set_option autoImplicit false

namespace EventFlow

/-- The relations between two operands. -/
inductive Relation where
  | equal
  | notEqual
  | less
  | greater
  | lessOrEqual
  | greaterOrEqual
  | contains
deriving DecidableEq

/-- A token of an expression. -/
inductive Token where
  | leftParen
  | rightParen
  | and
  | or
  | not
  | relation (r : Relation)
  | field (path : String)
  | text (s : String)
  | number (n : Binary64.Rounded)
  | true
  | false
  | null
deriving DecidableEq

namespace Relation

/-- How a relation is written. -/
def symbol : Relation → String
  | equal => "=="
  | notEqual => "!="
  | less => "<"
  | greater => ">"
  | lessOrEqual => "<="
  | greaterOrEqual => ">="
  | contains => "contains"

/-- The name of a relation in errors. -/
def name : Relation → String
  | equal => "Eq"
  | notEqual => "Ne"
  | less => "Lt"
  | greater => "Gt"
  | lessOrEqual => "Le"
  | greaterOrEqual => "Ge"
  | contains => "Contains"

end Relation

namespace Token

/-- Doubles in errors are plain from `1e-4` on. -/
def floats : FloatLayout := ⟨-3, Bool.false⟩

/-- The number of a token in errors. -/
def numberText : Binary64.Rounded → String
  | .finite x => floats.text x
  | .infinite Bool.false => "inf"
  | .infinite Bool.true => "-inf"

/-- A token in errors. -/
def describe : Token → String
  | leftParen => "LParen"
  | rightParen => "RParen"
  | and => "And"
  | or => "Or"
  | not => "Not"
  | relation r => "Op(" ++ r.name ++ ")"
  | field path => "Field(" ++ Text.quoted path ++ ")"
  | text s => "Str(" ++ Text.quoted s ++ ")"
  | number n => "Num(" ++ numberText n ++ ")"
  | true => "True"
  | false => "False"
  | null => "Null"

end Token

/-- Why a source is not an expression. -/
inductive SyntaxError where
  | unterminatedField (position : Nat)
  | emptyField (position : Nat)
  | unterminatedText (position : Nat)
  | invalidNumber (literal : String)
  | unknownWord (word : String)
  | unexpectedCharacter (c : Char) (position : Nat)
  | empty
  | tooLong
  | tooDeep
  | missingParen
  | unexpectedToken (token : Token)
  | unexpectedEnd
  | trailingToken (token : Token)
deriving DecidableEq

namespace Token

/-- The characters between a quote and the next one of its kind, and how many characters that
takes with the quote at the end. A backslash at the very end of the source stands for itself. -/
def textUpTo (quote : Char) : List Char → Option (List Char × Nat)
  | [] => none
  | '\\' :: c :: rest => (textUpTo quote rest).map fun (cs, n) => (c :: cs, n + 2)
  | c :: rest =>
    if c = quote then some ([], 1)
    else (textUpTo quote rest).map fun (cs, n) => (c :: cs, n + 1)

/-- The characters before the first double brace that closes. -/
def fieldUpTo : List Char → Option (List Char)
  | '\x7d' :: '\x7d' :: _ => some []
  | c :: rest => (fieldUpTo rest).map (c :: ·)
  | [] => none

/-- Whether a number starts with a character, given the one after it. -/
def startsNumber (c : Char) (next : Option Char) : Bool :=
  let digitFollows := next.any Char.isDigit
  c.isDigit || (c == '-' && (digitFollows || next == some '.')) || (c == '.' && digitFollows)

/-- The token of a word. -/
def ofWord : String → Except SyntaxError Token
  | "true" => .ok .true
  | "false" => .ok .false
  | "null" => .ok .null
  | "contains" => .ok (.relation .contains)
  | other => .error (.unknownWord other)

/-- The number at the start of a source and its length: its first character, and the digits and
points after it. -/
def readNumber (c : Char) (rest : List Char) : Except SyntaxError (Token × Nat) :=
  let literal := c :: rest.takeWhile fun d => d.isDigit || d == '.'
  match Decimal.read? literal with
  | some n => .ok (.number n, literal.length)
  | none => .error (.invalidNumber (String.ofList literal))

/-- The field whose path starts here, and its length with both braces. -/
def readField (position : Nat) (rest : List Char) : Except SyntaxError (Token × Nat) :=
  match fieldUpTo rest with
  | none => .error (.unterminatedField position)
  | some inside =>
    let path := Text.trim inside
    if path.isEmpty then .error (.emptyField position)
    else .ok (.field (String.ofList path), inside.length + 4)

/-- The text whose first character is here, and its length with both quotes. -/
def readText (position : Nat) (quote : Char) (rest : List Char) :
    Except SyntaxError (Token × Nat) :=
  match textUpTo quote rest with
  | none => .error (.unterminatedText position)
  | some (cs, n) => .ok (.text (String.ofList cs), n + 1)

/-- The number, the word or the unexpected character that starts with a character of no other
token. -/
def readOther (position : Nat) (c : Char) (rest : List Char) : Except SyntaxError (Token × Nat) :=
  if startsNumber c rest.head? then readNumber c rest
  else if c.isAlpha || c == '_' then
    let word := c :: rest.takeWhile fun d => d.isAlphanum || d == '_'
    (ofWord (String.ofList word)).map fun token => (token, word.length)
  else .error (.unexpectedCharacter c position)

/-- The token at the start of a source that starts with no blank, and its length. -/
def next (position : Nat) : List Char → Except SyntaxError (Token × Nat)
  | '(' :: _ => .ok (.leftParen, 1)
  | ')' :: _ => .ok (.rightParen, 1)
  | '&' :: '&' :: _ => .ok (.and, 2)
  | '|' :: '|' :: _ => .ok (.or, 2)
  | '=' :: '=' :: '=' :: _ => .ok (.relation .equal, 3)
  | '=' :: '=' :: _ => .ok (.relation .equal, 2)
  | '!' :: '=' :: '=' :: _ => .ok (.relation .notEqual, 3)
  | '!' :: '=' :: _ => .ok (.relation .notEqual, 2)
  | '!' :: _ => .ok (.not, 1)
  | '<' :: '=' :: _ => .ok (.relation .lessOrEqual, 2)
  | '<' :: _ => .ok (.relation .less, 1)
  | '>' :: '=' :: _ => .ok (.relation .greaterOrEqual, 2)
  | '>' :: _ => .ok (.relation .greater, 1)
  | '\x7b' :: '\x7b' :: rest => readField position rest
  | '\'' :: rest => readText position '\'' rest
  | '"' :: rest => readText position '"' rest
  | c :: rest => readOther position c rest
  | [] => .error .unexpectedEnd

/-- The tokens of a source whose first character stands at a position. The fuel is at least the
length of the source. -/
def scanFrom : (fuel : Nat) → (position : Nat) → List Char → Except SyntaxError (List Token)
  | _, _, [] => .ok []
  | 0, _, _ => .ok []
  | fuel + 1, position, c :: rest =>
    if Text.isBlank c then scanFrom fuel (position + 1) rest
    else
      match next position (c :: rest) with
      | .error e => .error e
      | .ok (token, n) =>
        (scanFrom fuel (position + n) ((c :: rest).drop n)).map (token :: ·)

/-- The tokens of a source. -/
def scan (source : List Char) : Except SyntaxError (List Token) :=
  scanFrom source.length 0 source

end Token

end EventFlow
