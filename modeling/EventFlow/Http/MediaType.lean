/-!
# Media types

The header that says what a body holds: a type, a slash, a subtype and parameters. A plus sign in
the subtype starts a suffix.
-/

set_option autoImplicit false

namespace EventFlow.Http

/-- The type of a body, in small letters, without its parameters. -/
structure MediaType where
  type : List Char
  subtype : List Char
  suffix : Option (List Char)
deriving DecidableEq

namespace MediaType

/-- Whether a character may be part of a name. -/
def isNameChar (c : Char) : Bool := c.isAlphanum || "!#$%&\x27*+-.^_\x60|~".toList.contains c

/-- Whether a character may stand between quotation marks: a printable one of ASCII. -/
def isQuotedChar (c : Char) : Bool := decide (0x20 ≤ c.toNat ∧ c.toNat < 0x7F)

/-- What follows a value between quotation marks, which is not empty. -/
def afterQuoted? (s : List Char) : Option (List Char) :=
  match s with
  | [] => none
  | first :: rest =>
    let value := rest.takeWhile fun c => isQuotedChar c && c != '"'
    match isQuotedChar first, (rest.drop value.length) with
    | true, '"' :: after => some after
    | _, _ => none

/-- What follows the value of a parameter and the semicolon after it. -/
def afterValue? (s : List Char) : Option (List Char) :=
  match s with
  | '"' :: quoted =>
    match (afterQuoted? quoted).map (List.dropWhile (· == ' ')) with
    | some [] => some []
    | some (';' :: rest) => some rest
    | _ => none
  | plain =>
    match plain.takeWhile isNameChar, plain.dropWhile isNameChar with
    | _, [] => some []
    | _ :: _, ';' :: rest => some rest
    | _, _ => none

/-- What follows a parameter and the semicolon after it; spaces may stand in front of its name. -/
def afterParameter? (s : List Char) : Option (List Char) :=
  let s := s.dropWhile (· == ' ')
  match s.takeWhile isNameChar, s.dropWhile isNameChar with
  | _ :: _, '=' :: value => afterValue? value
  | [], [] => some []
  | _, _ => none

/-- Whether a text is made of parameters; the fuel bounds their number. -/
def areParameters : (fuel : Nat) → List Char → Bool
  | _, [] => true
  | 0, _ => false
  | fuel + 1, s =>
    match afterParameter? s with
    | some rest => areParameters fuel rest
    | none => false

/-- The subtype and the suffix that a name after the slash stands for; the suffix starts at the
last plus sign that is not the first character. -/
def splitSuffix (name : List Char) : List Char × Option (List Char) :=
  let suffix := (name.reverse.takeWhile (· != '+')).reverse
  if suffix.length + 1 < name.length then
    (name.take (name.length - suffix.length - 1), some suffix)
  else (name, none)

/-- The media type that a header names. -/
def read? (text : String) : Option MediaType :=
  let s := text.toList
  match s.takeWhile isNameChar, s.dropWhile isNameChar with
  | type@(_ :: _), '/' :: after =>
    match after.takeWhile isNameChar, after.dropWhile isNameChar with
    | name@(_ :: _), rest =>
      let lower (s : List Char) := s.map Char.toLower
      let (subtype, suffix) := splitSuffix (lower name)
      let found : MediaType := ⟨lower type, subtype, suffix⟩
      match rest with
      | [] => some found
      | c :: parameters =>
        if c == ';' && areParameters parameters.length parameters then some found else none
    | [], _ => none
  | _, _ => none

/-- Whether a body of the type holds JSON. -/
def isJson (t : MediaType) : Bool :=
  let json := "json".toList
  t.type == "application".toList && (t.subtype == json || t.suffix == some json)

end MediaType

end EventFlow.Http
