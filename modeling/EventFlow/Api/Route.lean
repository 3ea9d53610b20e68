import EventFlow.Http.Target

/-!
# Routes

The paths of the interface. Segments are compared as they are written; an identifier is a segment
that is not empty, still with its percent signs.
-/

set_option autoImplicit false

namespace EventFlow.Api

/-- The collections whose records are created and replaced as a whole. -/
inductive Kind where
  | step
  | condition
  | action
deriving DecidableEq

/-- What a path leads to. -/
inductive Route where
  | workflows
  | workflow (id : List Char)
  | status (id : List Char)
  | steps (id : List Char)
  | validation (id : List Char)
  | execute (id : List Char)
  | records (kind : Kind)
  | record (kind : Kind) (id : List Char)
  | events
  | executions
  | execution (id : List Char)
  | statistics
  | exports
deriving DecidableEq

/-- The collection that a segment names. -/
def Kind.ofSegment? (segment : String) : Option Kind :=
  match segment with
  | "steps" => some .step
  | "conditions" => some .condition
  | "actions" => some .action
  | _ => none

namespace Route

/-- The route of the segments after the number of the version. -/
def ofSegments? (segments : List (List Char)) : Option Route :=
  match segments with
  | [only] =>
    match String.ofList only with
    | "workflows" => some workflows
    | "events" => some events
    | "executions" => some executions
    | "statistics" => some statistics
    | "export" => some exports
    | name => (Kind.ofSegment? name).map records
  | [first, id] =>
    if id.isEmpty then none
    else match String.ofList first with
      | "workflows" => some (workflow id)
      | "executions" => some (execution id)
      | name => (Kind.ofSegment? name).map (record · id)
  | [first, id, last] =>
    if id.isEmpty || String.ofList first != "workflows" then none
    else match String.ofList last with
      | "status" => some (status id)
      | "steps" => some (steps id)
      | "validate" => some (validation id)
      | "execute" => some (execute id)
      | _ => none
  | _ => none

/-- The route of a target. -/
def ofTarget? (t : Http.Target) : Option Route :=
  match t.segments? with
  | some (['a', 'p', 'i'] :: ['v', '1'] :: segments) => ofSegments? segments
  | _ => none

end Route

end EventFlow.Api
