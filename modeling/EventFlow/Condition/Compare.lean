import EventFlow.Number.Decimal
import EventFlow.Record.Condition
import EventFlow.Template.Path
import EventFlow.Text.Blank
import EventFlow.Text.Lowercase

/-!
# Comparing values

Two numbers are equal when they round to the same double; all other values are compared part by
part, and there an integer and a double differ. Order is defined between numbers and texts that
are decimals. A field that is missing is equal to nothing and contains nothing.
-/

set_option autoImplicit false

namespace EventFlow

namespace Json

mutual

/-- Whether two values have the same parts: integers and doubles differ, the two zeros do not. -/
def alike : Json → Json → Bool
  | .null, .null => true
  | .bool a, .bool b => a == b
  | .number (.integer a), .number (.integer b) => decide (a = b)
  | .number (.float a), .number (.float b) => a.eq b
  | .string a, .string b => a == b
  | .array a, .array b => alikeItems a b
  | .object a, .object b => alikeMembers a b
  | _, _ => false

/-- Whether two lists have the same parts. -/
def alikeItems : List Json → List Json → Bool
  | [], [] => true
  | a :: r, b :: s => alike a b && alikeItems r s
  | _, _ => false

/-- Whether two member lists have the same keys and the same parts. -/
def alikeMembers : List (String × Json) → List (String × Json) → Bool
  | [], [] => true
  | (k, a) :: r, (l, b) :: s => k == l && alike a b && alikeMembers r s
  | _, _ => false

end

/-- Whether two values are equal; two numbers are compared as doubles. -/
def strictEq : Json → Json → Bool
  | .number a, .number b => a.toBinary64.eq b.toBinary64
  | a, b => alike a b

/-- The double that a number or a text stands for. -/
def asNumber : Json → Option Binary64
  | .number n => some n.toBinary64
  | .string s => (Decimal.read? (Text.trim s.toList)).bind Binary64.Rounded.toFinite?
  | _ => none

/-- Whether a relation between doubles holds for two values that are numbers. -/
def numeric (relation : Binary64 → Binary64 → Bool) (a b : Json) : Bool :=
  match a.asNumber, b.asNumber with
  | some x, some y => relation x y
  | _, _ => false

/-- Whether the text of one value occurs in the text of another. -/
def hasText (a b : Json) : Bool := Text.occursIn b.display.toList a.display.toList

end Json

/-- Whether a field, `none` if it is missing, compares with a value as asked. -/
def compareField (actual : Option Json) (operator : Comparison) (expected : Json) : Bool :=
  match operator with
  | .equals => actual.any (·.strictEq expected)
  | .notEquals => !actual.any (·.strictEq expected)
  | .greaterThan => actual.any (Json.numeric (fun x y => y.lt x) · expected)
  | .lessThan => actual.any (Json.numeric Binary64.lt · expected)
  | .contains => actual.any (·.hasText expected)
  | .notContains => !actual.any (·.hasText expected)

end EventFlow
