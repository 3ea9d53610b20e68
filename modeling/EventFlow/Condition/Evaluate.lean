import EventFlow.Condition.Expression
import EventFlow.Record.Condition

/-!
# Evaluating conditions

A condition is true or false of data, or cannot be evaluated because its expression is malformed
or its predicate unknown.
-/

set_option autoImplicit false

namespace EventFlow

/-- A predicate of the surrounding program: a question about settings and data. -/
abbrev Predicate := Json → Json → Bool

/-- The predicates by name. -/
abbrev Predicates := String → Option Predicate

/-- Why a condition cannot be evaluated. -/
inductive ConditionError where
  | malformedExpression (source : String) (error : SyntaxError)
  | predicateNotRegistered (name : String)
deriving DecidableEq

namespace ConditionError

/-- What a caller is told. -/
def message : ConditionError → String
  | malformedExpression source error =>
    let text := error.message
    s!"malformed expression '{source}': {text}"
  | predicateNotRegistered name => s!"no external predicate registered under '{name}'"

end ConditionError

/-- Whether the expression of a source holds for data. -/
def evaluateExpression (source : String) (data : Json) : Except ConditionError Bool :=
  match Expression.parse source with
  | .ok e => .ok (e.holds data)
  | .error e => .error (.malformedExpression source e)

/-- Whether a condition holds for data. -/
def ConditionKind.evaluate (predicates : Predicates) (data : Json) :
    ConditionKind → Except ConditionError Bool
  | .fieldCompare field operator value => .ok (compareField (data.lookup field) operator value)
  | .expression source => evaluateExpression source data
  | .externalCheck name config =>
    match predicates name with
    | some check => .ok (check config data)
    | none => .error (.predicateNotRegistered name)

end EventFlow
