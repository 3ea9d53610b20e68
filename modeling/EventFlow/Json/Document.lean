import EventFlow.Json.Basic

/-!
# JSON documents

A `Document` is a text as it is written: an object keeps its members in the order of the text,
repetitions included. `ofJson` writes a value down, and `toJson?` is what a document means: of two
members with one key the later counts. A part that is well formed but stands for no value, such as
a number beyond every double, is `unreadable`; it does no harm where a reader skips it.
-/

set_option autoImplicit false

namespace EventFlow

/-- A JSON text as it is written. -/
inductive Document where
  | null
  | bool (b : Bool)
  | number (n : JsonNumber)
  | string (s : String)
  | array (items : List Document)
  | object (members : List (String × Document))
  | unreadable

namespace Document

instance : Inhabited Document := ⟨.null⟩

mutual

/-- A value written down, its members in key order. -/
def ofJson : Json → Document
  | .null => .null
  | .bool b => .bool b
  | .number n => .number n
  | .string s => .string s
  | .array items => .array (ofItems items)
  | .object members => .object (ofMembers members)

/-- The values of a list written down. -/
def ofItems : List Json → List Document
  | [] => []
  | v :: rest => ofJson v :: ofItems rest

/-- The members of an object written down. -/
def ofMembers : List (String × Json) → List (String × Document)
  | [] => []
  | (k, v) :: rest => (k, ofJson v) :: ofMembers rest

end

mutual

/-- What a document means, if every part of it is readable. -/
def toJson? : Document → Option Json
  | .null => some .null
  | .bool b => some (.bool b)
  | .number n => some (.number n)
  | .string s => some (.string s)
  | .array items => (toItems? items).map .array
  | .object members => (toMembers? members).map fun entries => .object (Assoc.ofList entries)
  | .unreadable => none

/-- What the documents of a list mean. -/
def toItems? : List Document → Option (List Json)
  | [] => some []
  | d :: rest =>
    match toJson? d, toItems? rest with
    | some v, some vs => some (v :: vs)
    | _, _ => none

/-- What the members of an object mean, in the order in which they are written. -/
def toMembers? : List (String × Document) → Option (List (String × Json))
  | [] => some []
  | (k, d) :: rest =>
    match toJson? d, toMembers? rest with
    | some v, some vs => some ((k, v) :: vs)
    | _, _ => none

end

/-- Whether every part of a document is readable. -/
def isReadable (d : Document) : Bool := d.toJson?.isSome

/-- A 64-bit word as a document. -/
def ofUInt64 (n : UInt64) : Document := .number (.integer (.ofUInt64 n))

/-- A list of texts as a document. -/
def ofStrings (texts : List String) : Document := .array (texts.map .string)

end Document

end EventFlow
