import EventFlow.Condition.Compare
import EventFlow.Proofs.Number.Whole

/-!
# Comparing integers

Integers are compared as the doubles nearest to them, so by their 53 leading bits
(`compares_nearest`). Up to `2 ^ 53` that is how the integers themselves compare. Beyond, no
comparison says of two integers what is true of them the other way round, but neighbours may be
equal (`integers_compare_rounded_twins`). A field is compared by `compareField`
(`EventFlow.Condition.Compare`), which takes every integer through `JsonNumber.toBinary64`.
-/

set_option autoImplicit false

namespace EventFlow

/-- An integer as a value. -/
def JsonInteger.json (n : JsonInteger) : Json := .number (.integer n)

/-- Two values compare as two integers do. -/
structure Json.ComparesAs (a b : Json) (m n : Int) : Prop where
  strictEq : a.strictEq b = true ↔ m = n
  equals : compareField (some a) .equals b = true ↔ m = n
  notEquals : compareField (some a) .notEquals b = true ↔ m ≠ n
  greaterThan : compareField (some a) .greaterThan b = true ↔ n < m
  lessThan : compareField (some a) .lessThan b = true ↔ m < n

namespace JsonInteger

open Binary64 (nearest)

variable {x y : JsonInteger}

/-- Numbers are related as their doubles are. -/
theorem numeric_number (relation : Binary64 → Binary64 → Bool) (a b : JsonNumber) :
    (Json.number a).numeric relation (.number b) = relation a.toBinary64 b.toBinary64 := by
  have view (n : JsonNumber) : (Json.number n).asNumber = some n.toBinary64 := rfl
  rw [Json.numeric, view, view]

theorem compares_nearest (x y : JsonInteger) :
    x.json.ComparesAs y.json (nearest x.val) (nearest y.val) := by
  have unit : (0 : Int) < Binary64.one := Int.natCast_pos.2 Binary64.one_pos
  have less (x y : JsonInteger) : (JsonNumber.integer x).toBinary64.lt
      (JsonNumber.integer y).toBinary64 = true ↔ nearest x.val < nearest y.val := by
    rw [Binary64.lt_iff_units, units_toBinary64, units_toBinary64, Int.mul_lt_mul_right unit]
  have same : x.json.strictEq y.json = true ↔ nearest x.val = nearest y.val := by
    rw [json, json, Json.strictEq, Binary64.eq_iff_units, units_toBinary64, units_toBinary64,
      Int.mul_eq_mul_right_iff (Int.ne_of_gt unit)]
  refine ⟨same, ?_, ?_, ?_, ?_⟩
  · rw [compareField, Option.any_some, same]
  · rw [compareField, Option.any_some, Bool.not_eq_true', ← Bool.not_eq_true, same]
  · rw [compareField, Option.any_some, json, json, numeric_number, less]
  · rw [compareField, Option.any_some, json, json, numeric_number, less]

/-- Next to an integer below `2 ^ 53` no difference is rounded away. -/
theorem nearest_lt_nearest {m n : Int} (h : m < n)
    (small : m.natAbs < 2 ^ 53 ∨ n.natAbs < 2 ^ 53 ∨ m.natAbs = 2 ^ 53 ∧ n.natAbs = 2 ^ 53) :
    nearest m < nearest n := by
  rcases small with low | high | ⟨low, high⟩
  · have next := Binary64.nearest_mono (show m + 1 ≤ n from h)
    rw [Binary64.nearest_eq_self (show (m + 1).natAbs ≤ 2 ^ 53 by omega)] at next
    rw [Binary64.nearest_eq_self (Nat.le_of_lt low)]
    exact next
  · have last := Binary64.nearest_mono (show m ≤ n - 1 by omega)
    rw [Binary64.nearest_eq_self (show (n - 1).natAbs ≤ 2 ^ 53 by omega)] at last
    rw [Binary64.nearest_eq_self (Nat.le_of_lt high)]
    omega
  · rw [Binary64.nearest_eq_self (Nat.le_of_eq low), Binary64.nearest_eq_self (Nat.le_of_eq high)]
    exact h

theorem lt_of_nearest_lt {m n : Int} (h : nearest m < nearest n) : m < n :=
  Int.not_le.1 fun more => Int.not_le.2 h (Binary64.nearest_mono more)

/-- Numbers that keep their differences when they are rounded are compared as they are. -/
theorem comparesAs_of_faithful {m n : Int}
    (rounded : x.json.ComparesAs y.json (nearest m) (nearest n))
    (less : m < n → nearest m < nearest n) (more : n < m → nearest n < nearest m) :
    x.json.ComparesAs y.json m n := by
  have same : nearest m = nearest n ↔ m = n := by
    refine ⟨fun h => ?_, congrArg nearest⟩
    rcases Int.lt_trichotomy m n with below | equal | above
    · exact absurd h (Int.ne_of_lt (less below))
    · exact equal
    · exact absurd h (Int.ne_of_gt (more above))
  exact ⟨rounded.strictEq.trans same, rounded.equals.trans same,
    rounded.notEquals.trans (not_congr same),
    rounded.greaterThan.trans ⟨lt_of_nearest_lt, more⟩,
    rounded.lessThan.trans ⟨lt_of_nearest_lt, less⟩⟩

/-- Of two values that compare as integers do, one is equal to, greater or less than the other. -/
theorem existsUnique_comparison {a b : Json} {m n : Int} (h : a.ComparesAs b m n) :
    ∃! c, c ∈ [Comparison.equals, .greaterThan, .lessThan] ∧ compareField (some a) c b = true := by
  have which (c : Comparison) (listed : c ∈ [Comparison.equals, .greaterThan, .lessThan])
      (holds : compareField (some a) c b = true) :
      c = .equals ∧ m = n ∨ c = .greaterThan ∧ n < m ∨ c = .lessThan ∧ m < n := by
    simp only [List.mem_cons, List.not_mem_nil, or_false] at listed
    rcases listed with rfl | rfl | rfl
    · exact .inl ⟨rfl, h.equals.1 holds⟩
    · exact .inr (.inl ⟨rfl, h.greaterThan.1 holds⟩)
    · exact .inr (.inr ⟨rfl, h.lessThan.1 holds⟩)
  rcases Int.lt_trichotomy m n with below | equal | above
  · refine ⟨.lessThan, ⟨by decide, h.lessThan.2 below⟩, fun c ⟨listed, holds⟩ => ?_⟩
    rcases which c listed holds with ⟨-, _⟩ | ⟨-, _⟩ | ⟨rfl, _⟩ <;> first | rfl | omega
  · refine ⟨.equals, ⟨by decide, h.equals.2 equal⟩, fun c ⟨listed, holds⟩ => ?_⟩
    rcases which c listed holds with ⟨rfl, _⟩ | ⟨-, _⟩ | ⟨-, _⟩ <;> first | rfl | omega
  · refine ⟨.greaterThan, ⟨by decide, h.greaterThan.2 above⟩, fun c ⟨listed, holds⟩ => ?_⟩
    rcases which c listed holds with ⟨-, _⟩ | ⟨rfl, _⟩ | ⟨-, _⟩ <;> first | rfl | omega

/-- Integers compare as they do with their 53 leading bits. So no comparison contradicts the
integers, and each is right where one of them is below `2 ^ 53` or both are at it. -/
theorem integers_compare_rounded (x y : JsonInteger) :
    x.json.ComparesAs y.json (nearest x.val) (nearest y.val) ∧
      (compareField (some x.json) .lessThan y.json = true → x.val < y.val) ∧
      (compareField (some x.json) .greaterThan y.json = true → y.val < x.val) ∧
      (x.val = y.val → compareField (some x.json) .equals y.json = true) ∧
      (∃! c, c ∈ [Comparison.equals, .greaterThan, .lessThan] ∧
        compareField (some x.json) c y.json = true) ∧
      (x.val.natAbs < 2 ^ 53 ∨ y.val.natAbs < 2 ^ 53 ∨
          x.val.natAbs = 2 ^ 53 ∧ y.val.natAbs = 2 ^ 53 →
        x.json.ComparesAs y.json x.val y.val) := by
  have rounded := compares_nearest x y
  refine ⟨rounded, fun less => lt_of_nearest_lt (rounded.lessThan.1 less),
    fun more => lt_of_nearest_lt (rounded.greaterThan.1 more),
    fun same => rounded.equals.2 (congrArg nearest same),
    existsUnique_comparison rounded, fun small => ?_⟩
  exact comparesAs_of_faithful rounded (fun less => nearest_lt_nearest less small)
    (fun more => nearest_lt_nearest more (by omega))

/-- `2 ^ 53 + 1` and `2 ^ 53` are equal, and neither is greater. From `2 ^ 53 - 1` both are told
apart. -/
theorem integers_compare_rounded_twins :
    let twin : JsonInteger := ⟨9007199254740993, by decide, by decide⟩
    let other : JsonInteger := ⟨9007199254740992, by decide, by decide⟩
    let below : JsonInteger := ⟨9007199254740991, by decide, by decide⟩
    twin ≠ other ∧ twin.json.strictEq other.json = true ∧
      compareField (some twin.json) .greaterThan other.json ≠ true ∧
      twin.json.ComparesAs below.json twin.val below.val ∧
      other.json.ComparesAs below.json other.val below.val := by
  intro twin other below
  have same : nearest twin.val = nearest other.val := by decide +kernel
  have small : below.val.natAbs < 2 ^ 53 := by decide +kernel
  have twins := (integers_compare_rounded twin other).1
  refine ⟨by decide +kernel, twins.strictEq.2 same, fun greater => ?_,
    (integers_compare_rounded twin below).2.2.2.2.2 (.inr (.inl small)),
    (integers_compare_rounded other below).2.2.2.2.2 (.inr (.inl small))⟩
  exact Int.ne_of_lt (twins.greaterThan.1 greater) same.symm

end JsonInteger

end EventFlow
