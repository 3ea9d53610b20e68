import EventFlow.Json.Document
import EventFlow.Supply
import EventFlow.Time.Rfc3339

/-!
# Records in JSON

A record is written as an object, or as a list of its fields in order of declaration. `Fields`
holds what is written for each field of either form: a known field is there at most once, unknown
members of an object are ignored, and a list is not longer than the record. Fields that are absent
take a default, which may be a clock reading or a fresh identifier, so reading draws on a
`Supply`.
-/

set_option autoImplicit false

namespace EventFlow

/-- A value that is read, drawing on a supply, or a refusal. -/
abbrev Reading (α : Type) := StateT Supply Option α

namespace Reading

variable {α : Type}

/-- The refusal of a document. -/
def refuse : Reading α := fun _ => none

/-- A value, or the refusal. -/
def ofOption : Option α → Reading α
  | some a => pure a
  | none => refuse

/-- The clock's time. -/
def now : Reading Instant := fun supply => some supply.now

/-- A fresh identifier. -/
def freshId : Reading Uuid := fun supply => some supply.freshId

end Reading

namespace Document

variable {α : Type}

/-- A text. -/
def readString : Document → Reading String
  | .string s => pure s
  | _ => .refuse

/-- The natural number below a bound that a document is. -/
def natBelow? (bound : Nat) : Document → Option Nat
  | .number (.integer n) => if 0 ≤ n.val ∧ n.val < bound then some n.val.toNat else none
  | _ => none

/-- A natural number below a bound. -/
def readNat (bound : Nat) (d : Document) : Reading Nat := .ofOption (d.natBelow? bound)

/-- A natural number of 32 bits. -/
def readUInt32 (d : Document) : Reading UInt32 := UInt32.ofNat <$> readNat UInt32.size d

/-- A natural number of 64 bits. -/
def readUInt64 (d : Document) : Reading UInt64 := UInt64.ofNat <$> readNat UInt64.size d

/-- A double; integers are rounded to one. -/
def readFloat : Document → Reading Binary64
  | .number n => pure n.toBinary64
  | _ => .refuse

/-- A free value. -/
def readJson (d : Document) : Reading Json := .ofOption d.toJson?

/-- A point of time. -/
def readInstant : Document → Reading Instant
  | .string s => .ofOption (Instant.read? s)
  | _ => .refuse

/-- An identifier. -/
def readUuid : Document → Reading Uuid
  | .string s => .ofOption (Uuid.read? s)
  | _ => .refuse

/-- Every item of a list, in order. -/
def readEach (read : Document → Reading α) : List Document → Reading (List α)
  | [] => pure []
  | d :: rest => do
    let a ← read d
    let as ← readEach read rest
    return a :: as

/-- A list. -/
def readList (read : Document → Reading α) : Document → Reading (List α)
  | .array items => readEach read items
  | _ => .refuse

/-- A value that may be `null`. -/
def readOption (read : Document → Reading α) : Document → Reading (Option α)
  | .null => pure none
  | d => some <$> read d

/-- One of several names: the name itself, or an object that binds it to `null`. -/
def readName (named : String → Option α) : Document → Reading α
  | .string s => .ofOption (named s)
  | .object [(s, .null)] => .ofOption (named s)
  | _ => .refuse

end Document

/-- What is written for the fields of a record. -/
structure Fields where
  members : List (String × Document)
  listed : Bool

namespace Fields

variable {α : Type}

/-- The fields of a record with the given names. -/
def ofDocument (names : List String) : Document → Reading Fields
  | .object members =>
    if names.all fun name => (members.filter (·.1 == name)).length ≤ 1 then
      pure ⟨members, false⟩
    else .refuse
  | .array items =>
    if items.length ≤ names.length then pure ⟨names.zip items, true⟩ else .refuse
  | _ => .refuse

/-- What is written for a field. -/
def find? (fields : Fields) (name : String) : Option Document := Assoc.find? name fields.members

/-- A field that must be there. -/
def required (fields : Fields) (name : String) (read : Document → Reading α) : Reading α :=
  match fields.find? name with
  | some d => read d
  | none => .refuse

/-- A field with a default. -/
def orElse (fields : Fields) (name : String) (read : Document → Reading α)
    (default : Reading α) : Reading α :=
  match fields.find? name with
  | some d => read d
  | none => default

/-- A field that may be `null`, or be absent from an object. -/
def optional (fields : Fields) (name : String) (read : Document → Reading α) :
    Reading (Option α) :=
  match fields.find? name with
  | some d => d.readOption read
  | none => if fields.listed then .refuse else pure none

/-- A text with a default. -/
def text (fields : Fields) (name : String) (default : String) : Reading String :=
  fields.orElse name Document.readString (pure default)

/-- A list of texts, empty by default. -/
def texts (fields : Fields) (name : String) : Reading (List String) :=
  fields.orElse name (Document.readList Document.readString) (pure [])

/-- A free value with a default. -/
def json (fields : Fields) (name : String) (default : Json) : Reading Json :=
  fields.orElse name Document.readJson (pure default)

/-- A point of time, the clock's by default. -/
def instant (fields : Fields) (name : String) : Reading Instant :=
  fields.orElse name Document.readInstant .now

end Fields

namespace Document

variable {α : Type}

/-- A point of time as a document. -/
def ofInstant (a : Instant) : Document := .string a.text

/-- A value that may be absent. -/
def ofOption (write : α → Document) : Option α → Document
  | some a => write a
  | none => .null

/-- A length or an index as a document. -/
def ofNat (n : Nat) : Document := .ofUInt64 (UInt64.ofNat n)

end Document

/-- The author of a record that names none. -/
def anonymous : String := "anonymous"

end EventFlow
