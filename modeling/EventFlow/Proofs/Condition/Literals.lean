import EventFlow.Proofs.Condition.Gates
import EventFlow.Proofs.Condition.Integers
import EventFlow.Proofs.Json.Scanning
import EventFlow.Proofs.Number.Decimal
import EventFlow.Proofs.Number.Shortest

/-!
# Integers in gates

An integer in an expression is a literal for the double nearest to it, and a number is compared as
such a double wherever it stands. So a gate with an integer for its operand says what the comparison
of the field with the integer says, but for `contains`: the text of the double ends in `.0`, which
that of the integer does not (`integer_gates_agree`). The numeral of a gate is read by
`Expression.ofNumber` (`EventFlow.Condition.Expression`); the comparison of the field is
`compareField` (`EventFlow.Condition.Compare`).
-/

set_option autoImplicit false

namespace EventFlow

namespace Text

/-- A text occurs in another if it is a contiguous part of it. -/
theorem occursIn_iff {part : List Char} : ∀ {s : List Char}, occursIn part s = true ↔ part <:+: s
  | [] => by rw [occursIn, List.isEmpty_iff, List.infix_nil]
  | c :: rest => by
    rw [occursIn, Bool.or_eq_true, List.isPrefixOf_iff_prefix, occursIn_iff, List.infix_cons_iff]

end Text

/-! ## Reading -/

namespace Binary64

/-- A decimal without an exponent is a ratio. -/
theorem ofDecimal_zero (negative : Bool) {m : Nat} (h : m < 2 ^ 64) :
    ofDecimal negative m 0 = ofRatio negative m 1 := by
  unfold ofDecimal
  have short : decimalLength m ≤ 20 :=
    (Nat.length_toDigits_le_iff (by decide) (by decide)).2 (Nat.lt_trans h (by decide))
  dsimp only
  split
  · next none =>
    subst none
    cases negative <;> decide +kernel
  · rw [if_neg (by omega), if_neg (by omega), if_pos (Int.le_refl 0)]
    exact congrArg (ofRatio negative · 1) (Nat.mul_one m)

end Binary64

namespace Decimal

variable {digits : List Char}

theorem sign_digits (all : ∀ c ∈ digits, c.isDigit = true) : sign digits = (false, digits) :=
  sign_eq_self fun c first => ne_sign_of_isDigit (.inl (all c (List.mem_of_mem_head? first)))

/-- Digits after an optional minus sign are read as the double nearest to their number. -/
theorem read?_digits (negative : Bool) {m : Nat} (h : m < 2 ^ 64) :
    read? ((if negative then ['-'] else []) ++ Nat.toDigits 10 m) =
      some (Binary64.ofRatio negative m 1) := by
  have all := Text.isDigit_of_mem_toDigits m
  have signed : sign ((if negative then ['-'] else []) ++ Nat.toDigits 10 m) =
      (negative, Nat.toDigits 10 m) := by
    cases negative
    · exact sign_digits all
    · rfl
  have some_digit : ¬ (Nat.toDigits 10 m).isEmpty = true := by
    rw [List.isEmpty_iff]
    exact Nat.toDigits_ne_nil
  rw [read?_whole signed all, if_neg some_digit, Text.decimalValue_toDigits,
    Binary64.ofDecimal_zero negative h]

end Decimal

namespace JsonInteger

variable (n : JsonInteger)

theorem toList_toString :
    (toString n.val).toList =
      (if decide (n.val < 0) then ['-'] else []) ++ Nat.toDigits 10 n.val.natAbs := by
  refine (Document.toList_integer n).trans ?_
  by_cases natural : 0 ≤ n.val
  · rw [if_pos natural, if_neg (by simpa using natural), List.nil_append]
    congr 1
    omega
  · rw [if_neg natural, if_pos (by simpa using natural), List.cons_append, List.nil_append]
    congr 2
    omega

/-- The double of an integer as a value. -/
def double : Json := .number (.float (JsonNumber.integer n).toBinary64)

theorem read?_toString :
    Decimal.read? (toString n.val).toList = some (.finite (JsonNumber.integer n).toBinary64) := by
  rw [toList_toString, Decimal.read?_digits _ n.natAbs_lt, ← n.ofInt_val]
  rfl

/-- An integer is a literal for its double. -/
theorem spelling_toString :
    Token.Spelling (.number (.finite (JsonNumber.integer n).toBinary64))
      (toString n.val).toList := by
  have value := n.read?_toString
  have digits := Text.isDigit_of_mem_toDigits n.val.natAbs
  rw [toList_toString] at value ⊢
  refine .number ?_ (fun c among => .inl (digits c among)) ?_ value
  · split
    · exact .inr rfl
    · exact .inl rfl
  · cases all : Nat.toDigits 10 n.val.natAbs with
    | nil => exact absurd all Nat.toDigits_ne_nil
    | cons c rest =>
      have digit := digits c (by rw [all]; exact List.mem_cons_self)
      split
      · show Token.startsNumber '-' (some c) = true
        simp [Token.startsNumber, digit]
      · show Token.startsNumber c rest.head? = true
        simp [Token.startsNumber, digit]

/-- The text of an integer and that of its double are the same but for the zero after the point. -/
theorem display_json : n.json.display = toString n.val := by
  show String.ofList (JsonNumber.integer n).text.toList = toString n.val
  exact String.ofList_toList

theorem toBinary64_eq :
    (JsonNumber.integer n).toBinary64 = ⟨decide (n.val < 0), Binary64.roundRatio n.val.natAbs 1,
      Binary64.roundRatio_lt n.natAbs_lt⟩ := by
  have rounded : Binary64.ofInt n.val = .finite ⟨decide (n.val < 0), _, _⟩ :=
    dif_pos (Binary64.roundRatio_lt n.natAbs_lt)
  exact Binary64.Rounded.finite.inj (n.ofInt_val.symm.trans rounded)

theorem display_double (small : n.val.natAbs ≤ 2 ^ 53) :
    n.double.display.toList = (toString n.val).toList ++ ['.', '0'] := by
  have worth : Binary64.unitsOf (JsonNumber.integer n).toBinary64.magnitude =
      n.val.natAbs * Binary64.one := by
    rw [toBinary64_eq]
    exact Binary64.unitsOf_roundRatio_of_le small
  have negative : (JsonNumber.integer n).toBinary64.negative = decide (n.val < 0) := by
    rw [toBinary64_eq]
  show (String.ofList (jsonFloats.text (JsonNumber.integer n).toBinary64).toList).toList = _
  rw [String.ofList_toList, jsonFloats.toList_text_whole (by decide) worth small, negative,
    toList_toString, List.append_assoc]

/-! ## Comparing -/

/-- To be compared with an integer is to be compared with its double, but for the text. -/
theorem compareField_double (a : Json) {c : Comparison} {r : Relation}
    (asks : c.relation? = some r) (other : c ≠ .contains) :
    compareField (some a) c n.double = compareField (some a) c n.json := by
  have same : a.strictEq n.double = a.strictEq n.json := by
    cases a <;> rfl
  have number : n.double.asNumber = n.json.asNumber := rfl
  have ordered (relation : Binary64 → Binary64 → Bool) :
      a.numeric relation n.double = a.numeric relation n.json := by
    rw [Json.numeric, Json.numeric, number]
  cases c with
  | equals | notEquals => rw [compareField, compareField, Option.any_some, Option.any_some, same]
  | greaterThan | lessThan =>
    rw [compareField, compareField, Option.any_some, Option.any_some, ordered]
  | contains => exact absurd rfl other
  | notContains => cases asks

end JsonInteger

theorem compareField_contains_iff (a b : Json) :
    compareField (some a) .contains b = true ↔ b.display.toList <:+: a.display.toList := by
  rw [compareField, Option.any_some, Json.hasText, Text.occursIn_iff]

/-- Where its field is there, a gate with an integer for its operand is true or false, and says what
the comparison of the field with the integer says, unless it asks for a part of the field's text:
then the gate looks for the integer with a zero after the point, and the comparison for the integer
as it is. -/
theorem Gate.integer_gates_agree (g : Gate) {c : Comparison} (asks : c.relation? = some g.relation)
    (spaced : g.after ≠ "") (n : JsonInteger) (predicates : Predicates) {data a : Json}
    (found : data.lookup g.path = some a) :
    ∃ answer, (ConditionKind.expression (g.source (toString n.val))).evaluate predicates data =
        .ok answer ∧
      (c ≠ .contains →
        (ConditionKind.fieldCompare g.path c n.json).evaluate predicates data = .ok answer) ∧
      (c = .contains → n.val.natAbs ≤ 2 ^ 53 →
        (answer = true ↔ (toString n.val).toList ++ ['.', '0'] <:+: a.display.toList) ∧
        ((ConditionKind.fieldCompare g.path c n.json).evaluate predicates data = .ok true ↔
          (toString n.val).toList <:+: a.display.toList)) := by
  have evaluated := g.evaluate_source (l := .number (.finite (JsonNumber.integer n).toBinary64))
    n.spelling_toString (.inl spaced) predicates data
  have operand : Expression.compareOperands g.relation (data.lookup g.path)
      (some n.double) = compareField (some a) c n.double := by
    rw [found, compareOperands_eq asks]
  refine ⟨_, evaluated.trans (congrArg Except.ok operand), fun other => ?_, ?_⟩
  · rw [ConditionKind.evaluate, found, n.compareField_double a asks other]
  · rintro rfl small
    refine ⟨?_, ?_⟩
    · rw [compareField_contains_iff, n.display_double small]
    · rw [ConditionKind.evaluate, found, Except.ok.injEq, compareField_contains_iff,
        n.display_json]

/-- A gate that looks for a number among the digits of a code. -/
def Gate.coded : Gate where
  path := "code"
  filled := by decide
  trimmed := by decide +kernel
  closed := by decide +kernel
  relation := .contains
  form := "contains"
  listed := by decide
  before := " "
  blank_before := List.all_eq_true.1 (by decide +kernel)
  after := " "
  blank_after := List.all_eq_true.1 (by decide +kernel)

/-- The code `12345` contains `234` as a value, but not as a literal. -/
theorem Gate.integer_gates_agree_coded :
    let part : JsonInteger := ⟨234, by decide, by decide⟩
    let code : JsonInteger := ⟨12345, by decide, by decide⟩
    let data := Json.object [("code", code.json)]
    (ConditionKind.expression "\x7b\x7b code \x7d\x7d contains 234").evaluate (fun _ => none) data =
        .ok false ∧
      (ConditionKind.fieldCompare "code" .contains part.json).evaluate (fun _ => none) data =
        .ok true := by
  intro part code data
  have asks : Comparison.contains.relation? = some coded.relation := rfl
  have found : data.lookup coded.path = some code.json := by decide +kernel
  have written : coded.source (toString part.val) = "\x7b\x7b code \x7d\x7d contains 234" := by
    decide +kernel
  have pointed : ¬ (toString part.val).toList ++ ['.', '0'] <:+: code.json.display.toList := by
    decide +kernel
  have plain : (toString part.val).toList <:+: code.json.display.toList := by decide +kernel
  obtain ⟨answer, evaluated, -, texts⟩ :=
    integer_gates_agree coded asks (by decide) part (fun _ => none) found
  obtain ⟨literal, value⟩ := texts rfl (by decide +kernel)
  have closed : answer = false := Bool.eq_false_iff.2 fun opened => pointed (literal.1 opened)
  rw [written, closed] at evaluated
  exact ⟨evaluated, value.2 plain⟩

end EventFlow
