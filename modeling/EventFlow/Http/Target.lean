import EventFlow.Text.Parts
import EventFlow.Text.Percent
import EventFlow.Text.Utf8

/-!
# The target of a request

A target is a path, after a question mark a query, and after a number sign a fragment, which is
not for the server; a scheme and a host may stand before the path. In a segment of the path and in
a parameter of the query a percent sign and two hexadecimal digits stand for a byte; in a parameter
a plus sign also stands for a space.
-/

set_option autoImplicit false

namespace EventFlow.Http

/-- The text of a segment of a path. -/
def segmentText? (segment : List Char) : Option String := Utf8.strict? (Text.percentDecode segment)

/-- The text of a key or of a value in a query. -/
def parameterText (s : List Char) : String :=
  Utf8.lossy (Text.percentDecode (s.map fun c => if c == '+' then ' ' else c))

/-- The key and the value of one parameter, whose value may be missing. -/
def parameter (s : List Char) : String × String :=
  let key := s.takeWhile (· != '=')
  (parameterText key, parameterText (s.drop (key.length + 1)))

/-- The parts of a target that a server sees. -/
structure Target where
  path : List Char
  query : List Char
deriving DecidableEq

namespace Target

/-- What follows the scheme and the host, where a target names them. -/
def afterHost (s : List Char) : List Char :=
  match s.span fun c => c.isAlphanum || c == '+' || c == '-' || c == '.' with
  | (_, ':' :: '/' :: '/' :: rest) => rest.dropWhile fun c => c != '/' && c != '?' && c != '#'
  | _ => s

/-- The path and the query of a target. -/
def ofText (text : String) : Target :=
  let shown := (afterHost text.toList).takeWhile (· != '#')
  let path := shown.takeWhile (· != '?')
  ⟨path, shown.drop (path.length + 1)⟩

/-- The segments of a path after its first slash; `none` if it does not start with one. -/
def segments? (t : Target) : Option (List (List Char)) :=
  match t.path with
  | '/' :: rest => some (Text.parts '/' rest)
  | _ => none

/-- The parameters of the query, in order. -/
def parameters (t : Target) : List (String × String) :=
  ((Text.parts '&' t.query).filter (!·.isEmpty)).map parameter

end Target

end EventFlow.Http
