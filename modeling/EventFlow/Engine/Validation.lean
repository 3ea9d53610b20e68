import EventFlow.Condition.Evaluate
import EventFlow.Engine.Attempt

/-!
# Validation of plans

`Plan.issues` lists every problem of a plan in the order of its steps. A step that is listed twice
is looked at once. Which types of actions and which predicates are registered is only asked where
a registry is given.
-/

set_option autoImplicit false

namespace EventFlow

/-- A problem of a plan. -/
inductive Issue where
  | missingStep (stepId : String)
  | repeatedStep (stepId : String)
  | foreignStep (stepId owner : String)
  | duplicateOrder (stepId : String) (order : UInt32)
  | orderNotAscending (stepId : String) (order previous : UInt32)
  | emptyStep (stepId : String) (kind : StepKind)
  | missingAction (stepId actionId : String)
  | missingCondition (stepId conditionId : String)
  | unknownActionType (actionId actionType : String)
  | unknownPredicate (conditionId predicate : String)
  | malformedExpression (conditionId message : String)
deriving DecidableEq

namespace Issue

/-- What a reader is told. -/
def message : Issue → String
  | missingStep stepId => s!"step '{stepId}' does not exist"
  | repeatedStep stepId => s!"step '{stepId}' is listed more than once"
  | foreignStep stepId owner => s!"step '{stepId}' belongs to workflow '{owner}'"
  | duplicateOrder stepId order => s!"step '{stepId}' reuses order index {order}"
  | orderNotAscending stepId order previous =>
    s!"step '{stepId}' has order {order}, not after the previous step's {previous}"
  | emptyStep stepId kind =>
    let name := kind.name
    s!"{name} step '{stepId}' has nothing to run"
  | missingAction stepId actionId => s!"step '{stepId}' references missing action '{actionId}'"
  | missingCondition stepId conditionId =>
    s!"step '{stepId}' references missing condition '{conditionId}'"
  | unknownActionType actionId actionType =>
    s!"action '{actionId}' has unregistered type '{actionType}'"
  | unknownPredicate conditionId predicate =>
    s!"condition '{conditionId}' uses unregistered predicate '{predicate}'"
  | malformedExpression conditionId text =>
    s!"condition '{conditionId}' has a malformed expression: {text}"

/-- The members that write down an issue. -/
def members : Issue → List (String × Document)
  | missingStep stepId => [("issue", .string "missing_step"), ("step_id", .string stepId)]
  | repeatedStep stepId => [("issue", .string "repeated_step"), ("step_id", .string stepId)]
  | foreignStep stepId owner =>
    [("issue", .string "foreign_step"), ("step_id", .string stepId), ("owner", .string owner)]
  | duplicateOrder stepId order =>
    [("issue", .string "duplicate_order"), ("step_id", .string stepId),
      ("order", .ofUInt64 order.toUInt64)]
  | orderNotAscending stepId order previous =>
    [("issue", .string "order_not_ascending"), ("step_id", .string stepId),
      ("order", .ofUInt64 order.toUInt64), ("previous", .ofUInt64 previous.toUInt64)]
  | emptyStep stepId kind =>
    [("issue", .string "empty_step"), ("step_id", .string stepId), ("kind", .string kind.name)]
  | missingAction stepId actionId =>
    [("issue", .string "missing_action"), ("step_id", .string stepId),
      ("action_id", .string actionId)]
  | missingCondition stepId conditionId =>
    [("issue", .string "missing_condition"), ("step_id", .string stepId),
      ("condition_id", .string conditionId)]
  | unknownActionType actionId actionType =>
    [("issue", .string "unknown_action_type"), ("action_id", .string actionId),
      ("action_type", .string actionType)]
  | unknownPredicate conditionId predicate =>
    [("issue", .string "unknown_predicate"), ("condition_id", .string conditionId),
      ("predicate", .string predicate)]
  | malformedExpression conditionId text =>
    [("issue", .string "malformed_expression"), ("condition_id", .string conditionId),
      ("message", .string text)]

/-- An issue as it is written. -/
def document (issue : Issue) : Document := .object issue.members

end Issue

/-- What is registered: a part that is not given is not checked. -/
structure Registered where
  actionType : Option (String → Bool)
  predicate : Option (String → Bool)

namespace Plan

/-- Whether a step has nothing to run. -/
def isEmptyStep (s : Step) : Bool :=
  match s.kind with
  | .action | .parallel => s.actionIds.isEmpty
  | .condition => s.conditionIds.isEmpty
  | .wait => false

/-- The problem of a reference to an action. -/
def actionIssues (p : Plan) (registered : Registered) (s : Step) (id : String) : List Issue :=
  match p.action? id with
  | none => [.missingAction s.id id]
  | some a =>
    if registered.actionType.any fun known => !known a.actionType then
      [.unknownActionType a.id a.actionType]
    else []

/-- The problem of a condition. -/
def conditionIssues (registered : Registered) (c : Condition) : List Issue :=
  match c.kind with
  | .fieldCompare _ _ _ => []
  | .expression source =>
    match Expression.parse source with
    | .ok _ => []
    | .error e => [.malformedExpression c.id (ConditionError.malformedExpression source e).message]
  | .externalCheck predicate _ =>
    if registered.predicate.any fun known => !known predicate then
      [.unknownPredicate c.id predicate]
    else []

/-- The problem of a reference to a condition. -/
def conditionReferenceIssues (p : Plan) (registered : Registered) (s : Step) (id : String) :
    List Issue :=
  match p.condition? id with
  | none => [.missingCondition s.id id]
  | some c => conditionIssues registered c

/-- The problem of a step's order index after the indices of the steps before it. -/
def orderIssues (before : List UInt32) (s : Step) : List Issue :=
  if before.contains s.order then [.duplicateOrder s.id s.order]
  else match before.max? with
    | some previous =>
      if s.order < previous then [.orderNotAscending s.id s.order previous] else []
    | none => []

/-- The problems of a step after the order indices of the steps before it. -/
def stepIssues (p : Plan) (registered : Registered) (before : List UInt32) (s : Step) :
    List Issue :=
  (if s.workflowId = p.workflow.id then [] else [.foreignStep s.id s.workflowId]) ++
    orderIssues before s ++
    (if isEmptyStep s then [.emptyStep s.id s.kind] else []) ++
    s.actionIds.flatMap (p.actionIssues registered s) ++
    s.conditionIds.flatMap (p.conditionReferenceIssues registered s)

/-- The problems of entries after the identifiers listed and the order indices used before. -/
def entryIssues (p : Plan) (registered : Registered) :
    List String → List UInt32 → List PlanEntry → List Issue
  | _, _, [] => []
  | seen, before, entry :: rest =>
    if seen.contains entry.stepId then
      .repeatedStep entry.stepId :: entryIssues p registered seen before rest
    else match entry.step with
      | none =>
        .missingStep entry.stepId :: entryIssues p registered (entry.stepId :: seen) before rest
      | some s =>
        p.stepIssues registered before s ++
          entryIssues p registered (entry.stepId :: seen) (s.order :: before) rest

/-- Every problem of a plan, in the order of its steps. -/
def issues (p : Plan) (registered : Registered) : List Issue :=
  p.entryIssues registered [] [] p.entries

/-- The identifiers of the steps in the order they run, or every problem of the plan. -/
def validate (p : Plan) (registered : Registered) : Except (List Issue) (List String) :=
  match p.issues registered with
  | [] => .ok (p.entries.map PlanEntry.stepId)
  | problems => .error problems

end Plan

namespace Engine

variable {σ : Type}

/-- The handlers and the predicates of an engine, both of which are checked. -/
def registered (engine : Engine σ) : Registered :=
  ⟨some engine.handlers.contains, some fun name => (engine.predicates name).isSome⟩

/-- The order of a workflow's steps, or every problem that the engine would run into. -/
def validate (engine : Engine σ) (c : Collections) (w : Workflow) :
    Except (List Issue) (List String) :=
  (Plan.ofCollections c w).validate engine.registered

end Engine

end EventFlow
