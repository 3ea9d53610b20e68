import EventFlow.Url.Host

/-!
# Addresses of resources

A `Url` is a scheme with what it leads to: a host and a path below it, or a text of the scheme's
own. `Url.read?` takes what people write: it drops blanks around the text and tabs and breaks in
it, takes backslashes for slashes where the scheme is a known one, resolves the dots of a path and
puts percent signs in the place of what must not stand as it is. `Url.text` is the one form in
which all of that is settled.
-/

set_option autoImplicit false

namespace EventFlow

/-- The address of a resource. -/
structure Url where
  scheme : List Char
  user : List Char
  password : List Char
  /-- The host, which may be empty; `none` where no host can stand. -/
  host : Option (List Char)
  port : Option Nat
  path : List Char
  query : Option (List Char)
  fragment : Option (List Char)
deriving DecidableEq

namespace Url

open Text (parts percentEncode)

/-! ## Schemes -/

/-- The known schemes, each with the port that need not be written. -/
def knownSchemes : List (String × Option Nat) :=
  [("http", some 80), ("https", some 443), ("ws", some 80), ("wss", some 443), ("ftp", some 21),
    ("file", none)]

/-- Whether a scheme is a known one. -/
def isKnown (scheme : List Char) : Bool := knownSchemes.any (·.1.toList == scheme)

/-- The port that need not be written. -/
def usualPort? (scheme : List Char) : Option Nat :=
  (knownSchemes.find? (·.1.toList == scheme)).bind (·.2)

/-- Whether a scheme is the one of files. -/
def isFile (scheme : List Char) : Bool := scheme == "file".toList

/-- The scheme at the start of a text, in small letters, and what follows its colon. -/
def scheme? (s : List Char) : Option (List Char × List Char) :=
  match s.span fun c => c.isAlphanum || c == '+' || c == '-' || c == '.' with
  | (first :: rest, ':' :: after) =>
    if first.isAlpha then some ((first :: rest).map Char.toLower, after) else none
  | _ => none

/-! ## What is written with percent signs -/

/-- In a fragment. -/
def inFragment (c : Char) : Bool := isControl c || " \"<>\x60".toList.contains c

/-- In a path. -/
def inPath (c : Char) : Bool := inFragment c || "#?^\x7b\x7d".toList.contains c

/-- In the name and the password of a user. -/
def inUser (c : Char) : Bool := inPath c || "/:;=@[\\]|".toList.contains c

/-- In a query. -/
def inQuery (known : Bool) (c : Char) : Bool :=
  isControl c || " \"#<>".toList.contains c || (known && c == '\'')

/-! ## Paths -/

/-- Whether a segment means the directory itself. -/
def isDot (segment : List Char) : Bool :=
  [".", "%2e"].any (·.toList == segment.map Char.toLower)

/-- Whether a segment means the directory above. -/
def isDoubleDot (segment : List Char) : Bool :=
  ["..", ".%2e", "%2e.", "%2e%2e"].any (·.toList == segment.map Char.toLower)

/-- Whether a segment is a letter with a colon or a bar, as the name of a drive. -/
def isDrive : List Char → Bool
  | [letter, mark] => letter.isAlpha && (mark == ':' || mark == '|')
  | _ => false

/-- The segments, the last one first, without the last; the name of a drive stays. -/
def leave (file : Bool) : List (List Char) → List (List Char)
  | [] => []
  | [only] => if file && isDrive only then [only] else []
  | _ :: rest => rest

/-- The segments, the last one first, with one more; the bar of a drive becomes a colon. -/
def enter (file : Bool) (segment : List Char) (done : List (List Char)) : List (List Char) :=
  match done, segment with
  | [], letter :: _ => if file && isDrive segment then [[letter, ':']] else [segment]
  | done, segment => segment :: done

/-- Segments without dots, after those that are done, of which the last is first. -/
def settle (file : Bool) : (done : List (List Char)) → List (List Char) → List (List Char)
  | done, [] => done.reverse
  | done, [last] =>
    if isDoubleDot last then ([] :: leave file done).reverse
    else if isDot last then ([] :: done).reverse
    else (enter file last done).reverse
  | done, segment :: rest =>
    if isDoubleDot segment then settle file (leave file done) rest
    else if isDot segment then settle file done rest
    else settle file (enter file segment done) rest

/-- The path of segments that are written one after the other. -/
def settledPath (scheme s : List Char) : List Char :=
  let segments := parts '/' (percentEncode inPath s)
  let path := (settle (isFile scheme) [] segments).flatMap ('/' :: ·)
  if isFile scheme then '/' :: path.dropWhile (· == '/') else path

/-- A path below a host: one slash stands before it, and under a known scheme it is never
empty. -/
def pathBelow (scheme s : List Char) : List Char :=
  match s with
  | '/' :: rest => settledPath scheme rest
  | [] => if isKnown scheme then settledPath scheme [] else []
  | rest => settledPath scheme rest

/-! ## Users, hosts and ports -/

/-- The user's part of an authority, up to its last at sign, and the rest. -/
def splitUser (authority : List Char) : Option (List Char) × List Char :=
  let rest := (authority.reverse.takeWhile (· != '@')).reverse
  if rest.length = authority.length then (none, authority)
  else (some (authority.take (authority.length - rest.length - 1)), rest)

/-- The host's part of a text, up to a colon that is not between brackets. -/
def splitHost : (inside : Bool) → List Char → List Char × List Char
  | _, [] => ([], [])
  | inside, c :: rest =>
    if c = ':' ∧ !inside then ([], c :: rest)
    else
      let (host, after) :=
        splitHost (if c = '[' then true else if c = ']' then false else inside) rest
      (c :: host, after)

/-- The port at the start of a text, if there is one, and what follows it. -/
def port? (s : List Char) : Option (Option Nat × List Char) :=
  match s with
  | ':' :: rest =>
    let digits := rest.takeWhile Char.isDigit
    let n := Text.decimalValue digits
    let after := rest.drop digits.length
    if 65535 < n || !(after.isEmpty || after.head? = some '\\') then none
    else some (if digits.isEmpty then none else some n, after)
  | other => some (none, other)

/-- An address with what stands between two slashes and the path taken apart. -/
def ofAuthority? (scheme authority after : List Char) : Option Url :=
  let (login, place) := splitUser authority
  let (host, afterHost) := splitHost false place
  let user := (login.getD []).takeWhile (· != ':')
  let password := (login.getD []).drop (user.length + 1)
  if host.isEmpty ∧ (isKnown scheme ∨ !afterHost.isEmpty ∨ !user.isEmpty ∨ !password.isEmpty ∨
      (login.isSome ∧ !after.isEmpty)) then none
  else
    let read := if isKnown scheme then Host.known? host else Host.verbatim? host
    match read, port? afterHost with
    | some host, some (port, rest) =>
      some ⟨scheme, percentEncode inUser user, percentEncode inUser password, some host.text,
        port.filter fun n => some n != usualPort? scheme, pathBelow scheme (rest ++ after), none,
        none⟩
    | _, _ => none

/-! ## Reading and writing -/

/-- The address of a file after the scheme. -/
def ofFile? (s : List Char) : Option Url :=
  let scheme := "file".toList
  let found (host : List Char) (path : List Char) : Url :=
    ⟨scheme, [], [], some host, none, path, none, none⟩
  match s with
  | '/' :: '/' :: rest =>
    let host := rest.takeWhile (· != '/')
    let after := rest.drop host.length
    if isDrive host then some (found [] (settledPath scheme rest))
    else if host.isEmpty then some (found [] (pathBelow scheme after))
    else
      (Host.known? host).map fun h =>
        found (if h.text == "localhost".toList then [] else h.text) (pathBelow scheme after)
  | '/' :: rest => some (found [] (settledPath scheme rest))
  | rest => some (found [] (settledPath scheme rest))

/-- What a scheme leads to, without query and fragment. -/
def ofScheme? (scheme s : List Char) : Option Url :=
  let bare (path : List Char) : Url := ⟨scheme, [], [], none, none, path, none, none⟩
  let isEnd (c : Char) := c == '/'
  if isKnown scheme then
    let s := s.map fun c => if c == '\\' then '/' else c
    if isFile scheme then ofFile? s
    else
      let rest := s.dropWhile isEnd
      let authority := rest.takeWhile (!isEnd ·)
      ofAuthority? scheme authority (rest.drop authority.length)
  else
    match s with
    | '/' :: '/' :: rest =>
      let authority := rest.takeWhile (!isEnd ·)
      ofAuthority? scheme authority (rest.drop authority.length)
    | '/' :: rest => some (bare (settledPath scheme rest))
    | rest => some (bare (percentEncode isControl rest))

/-- The text without blanks and controls around it, and without tabs and breaks. -/
def cleaned (text : String) : List Char :=
  let isBlank (c : Char) := decide (c.toNat ≤ 0x20)
  let inner := ((text.toList.dropWhile isBlank).reverse.dropWhile isBlank).reverse
  inner.filter fun c => c != '\t' && c != '\n' && c != '\r'

/-- The address that a text names. -/
def read? (text : String) : Option Url :=
  match scheme? (cleaned text) with
  | none => none
  | some (scheme, s) =>
    let shown := s.takeWhile (· != '#')
    let place := shown.takeWhile (· != '?')
    let after (part whole : List Char) := (whole.drop part.length).tail?
    (ofScheme? scheme place).map fun u =>
      { u with
        query := (after place shown).map (percentEncode (inQuery (isKnown scheme)))
        fragment := (after shown s).map (percentEncode inFragment) }

/-- Whether an address leads to a host. -/
def hasHost (u : Url) : Bool := u.host.any (!·.isEmpty)

/-- The address without a user. -/
def withoutUser (u : Url) : Url := { u with user := [], password := [] }

/-- The user's part of an address, with the sign after it. -/
def loginText (u : Url) : List Char :=
  let password := if u.password.isEmpty then [] else ':' :: u.password
  if u.user.isEmpty && u.password.isEmpty then [] else u.user ++ password ++ ['@']

/-- What stands before the path. A path that begins with two slashes is kept apart from them by a
dot. -/
def authorityText (u : Url) : List Char :=
  match u.host with
  | some host =>
    '/' :: '/' :: u.loginText ++ host ++
      (match u.port with
      | some n => ':' :: Nat.toDigits 10 n
      | none => [])
  | none => if ['/', '/'].isPrefixOf u.path then ['/', '.'] else []

/-- An address as it is written. -/
def text (u : Url) : String :=
  let part (mark : Char) (s : Option (List Char)) := (s.map (mark :: ·)).getD []
  String.ofList (u.scheme ++ ':' :: u.authorityText ++ u.path ++ part '?' u.query ++
    part '#' u.fragment)

end Url

end EventFlow
