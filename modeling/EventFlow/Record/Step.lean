import EventFlow.Json.Shape

/-!
# Steps

A step is one unit of work of a workflow. Its kind says what it does, its error policy what a
failure means for the run, and its timeout bounds one attempt at it.
-/

set_option autoImplicit false

namespace EventFlow

/-- What a step does. -/
inductive StepKind where
  | action
  | condition
  | wait
  | parallel
deriving DecidableEq

namespace StepKind

/-- The name of a kind. -/
def name : StepKind → String
  | action => "action"
  | condition => "condition"
  | wait => "wait"
  | parallel => "parallel"

/-- The kind of a name. -/
def ofName? (text : String) : Option StepKind :=
  [action, condition, wait, parallel].find? (·.name == text)

theorem ofName?_name (kind : StepKind) : ofName? kind.name = some kind := by
  cases kind <;> decide

end StepKind

/-- What a failing step does to its run. -/
inductive ErrorPolicy where
  /-- The run fails. -/
  | stop
  /-- The failure is recorded and the run goes on. -/
  | continue
  /-- The step is run up to `attempts` more times, and then the run fails. -/
  | retry (attempts : UInt32)
deriving DecidableEq

namespace ErrorPolicy

/-- The names of the policies. -/
def names : List String := ["stop", "continue", "retry"]

/-- The number of attempts that a document names. -/
def retryOf? (d : Document) : Option ErrorPolicy :=
  (d.natBelow? UInt32.size).map fun n => .retry (.ofNat n)

/-- The policy that a document stands for: an object with a tag, or a list that starts with the
tag. All that an object says must be readable. -/
def ofDocument? : Document → Option ErrorPolicy
  | .object members =>
    let others := members.filter (·.1 != "policy")
    if others.all fun m => m.2.isReadable then
      match members.filter (·.1 == "policy") with
      | [(_, .string "stop")] => some .stop
      | [(_, .string "continue")] => some .continue
      | [(_, .string "retry")] =>
        match others.filter (·.1 == "attempts") with
        | [(_, d)] => retryOf? d
        | _ => none
      | _ => none
    else none
  | .array [.string "stop"] => some .stop
  | .array [.string "continue"] => some .continue
  | .array [.string "retry", d] => retryOf? d
  | _ => none

/-- A policy that is read. -/
def read (d : Document) : Reading ErrorPolicy := .ofOption (ofDocument? d)

/-- What may be written for a policy. -/
def shape : Shape := .tagged "policy" names.contains fun d => (ofDocument? d).isSome

/-- A policy as it is written. -/
def document : ErrorPolicy → Document
  | stop => .object [("policy", .string "stop")]
  | .continue => .object [("policy", .string "continue")]
  | retry n => .object [("policy", .string "retry"), ("attempts", .ofUInt64 n.toUInt64)]

end ErrorPolicy

/-- One unit of work inside a workflow. -/
structure Step where
  id : String
  workflowId : String
  name : String
  description : String
  kind : StepKind
  actionIds : List String
  conditionIds : List String
  errorPolicy : ErrorPolicy
  timeoutMs : UInt64
  order : UInt32
  config : Json
  createdAt : Instant
  createdBy : String
deriving DecidableEq

namespace Step

/-- Five minutes, the timeout of a step that names none. -/
def defaultTimeoutMs : UInt64 := 300000

/-- The fields of a step in order of declaration, and what may be written for them. -/
def fieldShapes : List (String × Shape) :=
  [("id", .text), ("workflow_id", .text), ("name", .text), ("description", .text),
    ("kind", .oneOf StepKind.ofName?), ("action_ids", .texts), ("condition_ids", .texts),
    ("error_policy", ErrorPolicy.shape), ("timeout_ms", .natural UInt64.size),
    ("order", .natural UInt32.size), ("config", .free), ("created_at", .instant),
    ("created_by", .text)]

/-- The fields of a step in order of declaration. -/
def fieldNames : List String := fieldShapes.map (·.1)

/-- What may be written for a step. -/
def shape : Shape := .record fieldShapes

/-- A step as it is written. -/
def document (s : Step) : Document :=
  .object [("id", .string s.id), ("workflow_id", .string s.workflowId), ("name", .string s.name),
    ("description", .string s.description), ("kind", .string s.kind.name),
    ("action_ids", .ofStrings s.actionIds), ("condition_ids", .ofStrings s.conditionIds),
    ("error_policy", s.errorPolicy.document), ("timeout_ms", .ofUInt64 s.timeoutMs),
    ("order", .ofUInt64 s.order.toUInt64), ("config", .ofJson s.config),
    ("created_at", .ofInstant s.createdAt), ("created_by", .string s.createdBy)]

/-- A step that is read. -/
def read (d : Document) : Reading Step := do
  let fields ← Fields.ofDocument fieldNames d
  let id ← fields.text "id" ""
  let workflowId ← fields.required "workflow_id" Document.readString
  let name ← fields.required "name" Document.readString
  let description ← fields.text "description" ""
  let kind ← fields.required "kind" (Document.readName StepKind.ofName?)
  let actionIds ← fields.texts "action_ids"
  let conditionIds ← fields.texts "condition_ids"
  let errorPolicy ← fields.orElse "error_policy" ErrorPolicy.read (pure .stop)
  let timeoutMs ← fields.orElse "timeout_ms" Document.readUInt64 (pure defaultTimeoutMs)
  let order ← fields.orElse "order" Document.readUInt32 (pure 0)
  let config ← fields.json "config" .emptyObject
  let createdAt ← fields.instant "created_at"
  let createdBy ← fields.text "created_by" anonymous
  return ⟨id, workflowId, name, description, kind, actionIds, conditionIds, errorPolicy,
    timeoutMs, order, config, createdAt, createdBy⟩

/-- A time span in whole milliseconds, as far as 64 bits go. -/
def timeoutOfSpan (seconds nanos : Nat) : UInt64 :=
  UInt64.ofNat (min (seconds * 1000 + nanos / 1000000) (UInt64.size - 1))

end Step

end EventFlow
