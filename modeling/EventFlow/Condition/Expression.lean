import EventFlow.Condition.Compare
import EventFlow.Condition.Token
import EventFlow.Template.Interpolate

/-!
# Expressions

The syntax tree of an expression, its parser and its value. `||` binds weaker than `&&`, both to
the left, `!` negates a whole comparison, and a comparison has two operands. Parentheses and `!`
nest at most 64 levels deep together, and a source has at most 4096 tokens.

A field that is missing and a text with a placeholder that has no value are undefined; whatever
is compared with something undefined, the answer is no.
-/

set_option autoImplicit false

namespace EventFlow

/-- The syntax tree of an expression. -/
inductive Expression where
  | field (path : String)
  /-- A text whose placeholders are replaced when it is evaluated. -/
  | text (s : String)
  | literal (v : Json)
  | not (e : Expression)
  | and (left right : Expression)
  | or (left right : Expression)
  | compare (left : Expression) (r : Relation) (right : Expression)
deriving DecidableEq

namespace Expression

/-! ## Parsing -/

/-- A parser of the start of a list of tokens. -/
abbrev Parser := List Token → Except SyntaxError (Expression × List Token)

/-- The value of a number in an expression: a number beyond every double has none. -/
def ofNumber : Binary64.Rounded → Json
  | .finite x => .number (.float x)
  | .infinite _ => .null

/-- An operand: a leaf, or an expression in parentheses. -/
def primary (inside : Parser) : Parser
  | .leftParen :: rest =>
    match inside rest with
    | .ok (e, .rightParen :: after) => .ok (e, after)
    | .ok _ => .error .missingParen
    | .error e => .error e
  | .field path :: rest => .ok (.field path, rest)
  | .text s :: rest => .ok (.text s, rest)
  | .number n :: rest => .ok (.literal (ofNumber n), rest)
  | .true :: rest => .ok (.literal (.bool true), rest)
  | .false :: rest => .ok (.literal (.bool false), rest)
  | .null :: rest => .ok (.literal .null, rest)
  | other :: _ => .error (.unexpectedToken other)
  | [] => .error .unexpectedEnd

/-- An operand, or two with a relation between them. -/
def comparison (operand : Parser) : Parser := fun tokens =>
  match operand tokens with
  | .ok (left, .relation r :: rest) =>
    match operand rest with
    | .ok (right, after) => .ok (.compare left r right, after)
    | .error e => .error e
  | other => other

/-- A comparison, or the negation of one. -/
def negation (negated compared : Parser) : Parser
  | .not :: rest =>
    match negated rest with
    | .ok (e, after) => .ok (.not e, after)
    | .error e => .error e
  | tokens => compared tokens

/-- What follows the first operand of a chain: more operands, each after the separator. The fuel
is at least the number of tokens. -/
def chainFrom (separator : Token) (join : Expression → Expression → Expression)
    (operand : Parser) : Nat → Expression → Parser
  | 0, left, tokens => .ok (left, tokens)
  | _, left, [] => .ok (left, [])
  | fuel + 1, left, token :: rest =>
    if token = separator then
      match operand rest with
      | .ok (right, after) => chainFrom separator join operand fuel (join left right) after
      | .error e => .error e
    else .ok (left, token :: rest)

/-- Operands with separators between them, joined to the left. -/
def chain (separator : Token) (join : Expression → Expression → Expression) (operand : Parser) :
    Parser := fun tokens =>
  match operand tokens with
  | .ok (left, rest) => chainFrom separator join operand rest.length left rest
  | .error e => .error e

/-- The parsers of a negation and of a whole expression, inside of which so many levels of
parentheses and negations may open, less one: nothing opens a level at zero. -/
def level : Nat → Parser × Parser
  | 0 => (fun _ => .error .tooDeep, fun _ => .error .tooDeep)
  | n + 1 =>
    let (negated, inside) := level n
    let operand := negation negated (comparison (primary inside))
    (operand, chain .or .or (chain .and .and operand))

/-- How many levels of parentheses and negations may open. -/
def maxNesting : Nat := 64

/-- How many tokens an expression may have. -/
def maxTokens : Nat := 4096

/-- The parser of a whole expression. -/
def whole : Parser := (level (maxNesting + 1)).2

/-- The expression of a list of tokens. -/
def ofTokens (tokens : List Token) : Except SyntaxError Expression :=
  if tokens.isEmpty then .error .empty
  else if maxTokens < tokens.length then .error .tooLong
  else
    match whole tokens with
    | .ok (e, []) => .ok e
    | .ok (_, extra :: _) => .error (.trailingToken extra)
    | .error e => .error e

/-- The expression of a source. -/
def parse (source : String) : Except SyntaxError Expression :=
  match Token.scan source.toList with
  | .ok tokens => ofTokens tokens
  | .error e => .error e

/-! ## Evaluation -/

/-- Whether an operand, `none` if it is undefined, counts as true. -/
def isTruthy : Option Json → Bool
  | none => false
  | some .null => false
  | some (.bool b) => b
  | some (.number n) => !n.toBinary64.isZero
  | some (.string s) => !s.isEmpty
  | some _ => true

/-- Whether a relation holds between two values. -/
def relates (r : Relation) (a b : Json) : Bool :=
  match r with
  | .equal => a.strictEq b
  | .notEqual => !a.strictEq b
  | .less => Json.numeric Binary64.lt a b
  | .greater => Json.numeric (fun x y => y.lt x) a b
  | .lessOrEqual => Json.numeric (fun x y => !y.lt x) a b
  | .greaterOrEqual => Json.numeric (fun x y => !x.lt y) a b
  | .contains => a.hasText b

/-- Whether a relation holds between two operands; it does not if one is undefined. -/
def compareOperands (r : Relation) : Option Json → Option Json → Bool
  | some a, some b => relates r a b
  | _, _ => false

/-- The value of an expression, `none` if it is undefined. -/
def eval (data : Json) : Expression → Option Json
  | field path => data.lookup path
  | text s => (Template.interpolate? s data).map .string
  | literal v => some v
  | not e => some (.bool (!isTruthy (eval data e)))
  | and l r => some (.bool (isTruthy (eval data l) && isTruthy (eval data r)))
  | or l r => some (.bool (isTruthy (eval data l) || isTruthy (eval data r)))
  | compare l r e => some (.bool (compareOperands r (eval data l) (eval data e)))

/-- Whether an expression holds for data. -/
def holds (data : Json) (e : Expression) : Bool := isTruthy (eval data e)

end Expression

namespace SyntaxError

/-- What is wrong with a source. -/
def message : SyntaxError → String
  | unterminatedField i => s!"unterminated field reference at {i}"
  | emptyField i => s!"empty field reference at {i}"
  | unterminatedText i => s!"unterminated string starting at {i}"
  | invalidNumber literal => s!"invalid number '{literal}'"
  | unknownWord word => s!"unknown identifier '{word}'"
  | unexpectedCharacter c i => s!"unexpected character '{c}' at {i}"
  | empty => "empty expression"
  | tooLong =>
    let limit := Expression.maxTokens
    s!"expression longer than {limit} tokens"
  | tooDeep =>
    let limit := Expression.maxNesting
    s!"expression nested deeper than {limit} levels"
  | missingParen => "expected ')'"
  | unexpectedToken token => "unexpected token " ++ token.describe
  | unexpectedEnd => "unexpected end of expression"
  | trailingToken token => "unexpected trailing token " ++ token.describe

end SyntaxError

end EventFlow
