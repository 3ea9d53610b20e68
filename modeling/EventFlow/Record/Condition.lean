import EventFlow.Json.Shape

/-!
# Conditions

A condition compares a field of the context with a value, evaluates an expression, or asks a
predicate that the surrounding program has registered.
-/

set_option autoImplicit false

namespace EventFlow

/-- How a field is compared with a value. -/
inductive Comparison where
  | equals
  | notEquals
  | greaterThan
  | lessThan
  | contains
  | notContains
deriving DecidableEq

namespace Comparison

/-- All comparisons, in order of declaration. -/
def all : List Comparison := [equals, notEquals, greaterThan, lessThan, contains, notContains]

/-- The name of a comparison. -/
def name : Comparison → String
  | equals => "equals"
  | notEquals => "not_equals"
  | greaterThan => "greater_than"
  | lessThan => "less_than"
  | contains => "contains"
  | notContains => "not_contains"

/-- The comparison of a name. -/
def ofName? (text : String) : Option Comparison := all.find? (·.name == text)

/-- A comparison that is read; an empty object may stand for `null` beside its name. -/
def read : Document → Reading Comparison
  | .object [(s, .object [])] => .ofOption (ofName? s)
  | d => d.readName ofName?

theorem ofName?_name (comparison : Comparison) : ofName? comparison.name = some comparison := by
  cases comparison <;> decide

end Comparison

/-- What a condition asks. -/
inductive ConditionKind where
  | fieldCompare (field : String) (operator : Comparison) (value : Json)
  | expression (source : String)
  | externalCheck (predicate : String) (config : Json)
deriving DecidableEq

/-- A named question about the context of a run. -/
structure Condition where
  id : String
  name : String
  description : String
  kind : ConditionKind
  createdAt : Instant
  createdBy : String
deriving DecidableEq

namespace ConditionKind

/-- The members that write down a kind, its tag first. -/
def members : ConditionKind → List (String × Document)
  | fieldCompare field operator value =>
    [("kind", .string "field_compare"), ("field", .string field),
      ("operator", .string operator.name), ("value", .ofJson value)]
  | expression source => [("kind", .string "expression"), ("expression", .string source)]
  | externalCheck predicate config =>
    [("kind", .string "external_check"), ("predicate", .string predicate),
      ("config", .ofJson config)]

/-- Which kind a tag stands for: its name, or its index among the kinds. -/
def tagIndex : Document → Option Nat
  | .string "field_compare" => some 0
  | .string "expression" => some 1
  | .string "external_check" => some 2
  | .number (.integer n) => if 0 ≤ n.val then some n.val.toNat else none
  | _ => none

/-- A kind that is read from the members beside a condition's own. -/
def read (members : List (String × Document)) : Reading ConditionKind := do
  let others := members.filter (·.1 != "kind")
  match (members.filter (·.1 == "kind")).map fun m => tagIndex m.2 with
  | [some 0] =>
    let fields ← Fields.ofDocument ["field", "operator", "value"] (.object others)
    let field ← fields.required "field" Document.readString
    let operator ← fields.required "operator" Comparison.read
    let value ← fields.json "value" .null
    return .fieldCompare field operator value
  | [some 1] =>
    let fields ← Fields.ofDocument ["expression"] (.object others)
    return .expression (← fields.required "expression" Document.readString)
  | [some 2] =>
    let fields ← Fields.ofDocument ["predicate", "config"] (.object others)
    let predicate ← fields.required "predicate" Document.readString
    let config ← fields.json "config" .emptyObject
    return .externalCheck predicate config
  | _ => .refuse

end ConditionKind

namespace Condition

/-- The fields of a condition beside those of its kind, and what may be written for them. -/
def fieldShapes : List (String × Shape) :=
  [("id", .text), ("name", .text), ("description", .text), ("created_at", .instant),
    ("created_by", .text)]

/-- The fields of a condition beside those of its kind. -/
def fieldNames : List String := fieldShapes.map (·.1)

/-- What may be written for a condition. -/
def shape : Shape := .extensible fieldShapes

/-- A condition as it is written. -/
def document (c : Condition) : Document :=
  .object ([("id", .string c.id), ("name", .string c.name),
    ("description", .string c.description)] ++ c.kind.members ++
    [("created_at", .ofInstant c.createdAt), ("created_by", .string c.createdBy)])

/-- A condition that is read. It must be an object, and all it says must be readable. -/
def read : Document → Reading Condition
  | .object members => do
    let others := members.filter fun m => !fieldNames.contains m.1
    if !others.all fun m => m.2.isReadable then .refuse
    let fields ← Fields.ofDocument fieldNames (.object members)
    let id ← fields.text "id" ""
    let name ← fields.required "name" Document.readString
    let description ← fields.text "description" ""
    let kind ← ConditionKind.read others
    let createdAt ← fields.instant "created_at"
    let createdBy ← fields.text "created_by" anonymous
    return ⟨id, name, description, kind, createdAt, createdBy⟩
  | _ => .refuse

end Condition

end EventFlow
