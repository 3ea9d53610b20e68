import EventFlow.Json.Record

/-!
# Events

An event of the surrounding program: its type, its data, and when it was published.
-/

set_option autoImplicit false

namespace EventFlow

/-- Something that happened. -/
structure Event where
  id : Uuid
  eventType : String
  data : Json
  publishedAt : Instant
deriving DecidableEq

namespace Event

/-- The fields of an event in order of declaration. -/
def fieldNames : List String := ["id", "event_type", "data", "published_at"]

/-- An event as it is written. -/
def document (e : Event) : Document :=
  .object [("id", .string e.id.text), ("event_type", .string e.eventType),
    ("data", .ofJson e.data), ("published_at", .ofInstant e.publishedAt)]

/-- An event that is read. -/
def read (d : Document) : Reading Event := do
  let fields ← Fields.ofDocument fieldNames d
  let id ← fields.orElse "id" Document.readUuid .freshId
  let eventType ← fields.required "event_type" Document.readString
  let data ← fields.json "data" .null
  let publishedAt ← fields.instant "published_at"
  return ⟨id, eventType, data, publishedAt⟩

/-- An event that happens now. -/
def make (eventType : String) (data : Json) (supply : Supply) : Event × Supply :=
  let (id, supply) := supply.freshId
  let (publishedAt, supply) := supply.now
  (⟨id, eventType, data, publishedAt⟩, supply)

end Event

end EventFlow
