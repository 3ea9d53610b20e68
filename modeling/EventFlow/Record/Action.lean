import EventFlow.Json.Shape

/-!
# Actions

An action describes a side effect. Its type names the handler that performs it.
-/

set_option autoImplicit false

namespace EventFlow

/-- The description of a side effect. -/
structure Action where
  id : String
  name : String
  description : String
  actionType : String
  template : String
  recipients : List Json
  config : Json
  createdAt : Instant
  createdBy : String
deriving DecidableEq

namespace Action

/-- The fields of an action in order of declaration, and what may be written for them. -/
def fieldShapes : List (String × Shape) :=
  [("id", .text), ("name", .text), ("description", .text), ("type", .text), ("template", .text),
    ("recipients", .list .free), ("config", .free), ("created_at", .instant),
    ("created_by", .text)]

/-- The fields of an action in order of declaration. -/
def fieldNames : List String := fieldShapes.map (·.1)

/-- What may be written for an action. -/
def shape : Shape := .record fieldShapes

/-- An action as it is written. -/
def document (a : Action) : Document :=
  .object [("id", .string a.id), ("name", .string a.name), ("description", .string a.description),
    ("type", .string a.actionType), ("template", .string a.template),
    ("recipients", .array (a.recipients.map .ofJson)), ("config", .ofJson a.config),
    ("created_at", .ofInstant a.createdAt), ("created_by", .string a.createdBy)]

/-- An action that is read. -/
def read (d : Document) : Reading Action := do
  let fields ← Fields.ofDocument fieldNames d
  let id ← fields.text "id" ""
  let name ← fields.required "name" Document.readString
  let description ← fields.text "description" ""
  let actionType ← fields.required "type" Document.readString
  let template ← fields.text "template" ""
  let recipients ← fields.orElse "recipients" (Document.readList Document.readJson) (pure [])
  let config ← fields.json "config" .emptyObject
  let createdAt ← fields.instant "created_at"
  let createdBy ← fields.text "created_by" anonymous
  return ⟨id, name, description, actionType, template, recipients, config, createdAt, createdBy⟩

end Action

end EventFlow
