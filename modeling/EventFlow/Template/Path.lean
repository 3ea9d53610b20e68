import EventFlow.Json.Printer
import EventFlow.Text.Digits
import EventFlow.Text.Parts

/-!
# Paths into values

A path is a text of keys with dots between them. A key names a member of an object or, as a
decimal, the index of an item of an array. `Json.display` is the text that a value has inside
another text.
-/

set_option autoImplicit false

namespace EventFlow

namespace Path

/-- The keys of a path: what stands between the dots. -/
def keys (path : List Char) : List (List Char) := Text.parts '.' path

/-- The part of a value that one key leads to. -/
def child (v : Json) (key : List Char) : Option Json :=
  match v with
  | .object members => Assoc.find? (String.ofList key) members
  | .array items => (Text.natural? key).bind fun i => items[i]?
  | _ => none

/-- The part of a value that several keys lead to, one after the other. -/
def follow : Json → List (List Char) → Option Json
  | v, [] => some v
  | v, key :: rest => (child v key).bind fun w => follow w rest

end Path

/-- The part of a value at a path. -/
def Json.lookup (v : Json) (path : String) : Option Json := Path.follow v (Path.keys path.toList)

/-- The text of a value inside another text: a string stands for itself. -/
def Json.display : Json → String
  | .string s => s
  | v => v.compact

end EventFlow
