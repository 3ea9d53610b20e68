import EventFlow.Data.Assoc
import EventFlow.Number.Binary64

/-!
# JSON values

`Json` is what a text means: the order of an object's members and their repetitions are gone, and
an object is a list of members in ascending key order (`Json.Canonical`). Integers and doubles are
different numbers, as `1` and `1.0` are written differently.
-/

set_option autoImplicit false

namespace EventFlow

/-- An integer that a JSON number keeps exactly: at least `-2 ^ 63` and less than `2 ^ 64`. -/
structure JsonInteger where
  val : Int
  lower : -9223372036854775808 ≤ val
  upper : val < 18446744073709551616
deriving DecidableEq

namespace JsonInteger

instance : Inhabited JsonInteger := ⟨⟨0, by decide, by decide⟩⟩

/-- An integer, if it is in the range that is kept exactly. -/
def ofInt? (n : Int) : Option JsonInteger :=
  if h : -9223372036854775808 ≤ n ∧ n < 18446744073709551616 then some ⟨n, h.1, h.2⟩ else none

/-- A 64-bit word as an integer. -/
def ofUInt64 (n : UInt64) : JsonInteger :=
  ⟨n.toNat, by omega, by have := n.toNat_lt; omega⟩

end JsonInteger

/-- A JSON number. -/
inductive JsonNumber where
  | integer (n : JsonInteger)
  | float (x : Binary64)
deriving DecidableEq

namespace JsonNumber

/-- The double nearest to a number; integers in range never overflow. -/
def toBinary64 : JsonNumber → Binary64
  | .integer n => (Binary64.ofInt n.val).toFinite?.getD Binary64.zero
  | .float x => x

/-- A number that is a natural below `2 ^ 64` and written as an integer. -/
def toUInt64? : JsonNumber → Option UInt64
  | .integer n => if 0 ≤ n.val then some (UInt64.ofNat n.val.toNat) else none
  | .float _ => none

theorem toUInt64?_eq_some_iff {x : JsonNumber} {n : UInt64} :
    x.toUInt64? = some n ↔ x = .integer (.ofUInt64 n) := by
  cases x with
  | float x => simp [toUInt64?]
  | integer i =>
    obtain ⟨i, lower, upper⟩ := i
    rw [toUInt64?, integer.injEq, JsonInteger.ofUInt64, JsonInteger.mk.injEq]
    constructor
    · intro h
      split at h
      · next natural =>
        cases h
        have small : i.toNat < 2 ^ 64 := by omega
        rw [UInt64.toNat_ofNat_of_lt' small]
        exact (Int.toNat_of_nonneg natural).symm
      · cases h
    · rintro rfl
      simp

end JsonNumber

/-- A JSON value. -/
inductive Json where
  | null
  | bool (b : Bool)
  | number (n : JsonNumber)
  | string (s : String)
  | array (items : List Json)
  | object (members : List (String × Json))

namespace Json

instance : Inhabited Json := ⟨.null⟩

/-- The object without members. -/
def emptyObject : Json := .object []

/-- A 64-bit word as a value. -/
def ofUInt64 (n : UInt64) : Json := .number (.integer (.ofUInt64 n))

/-- A length or an index as a value. -/
def ofNat (n : Nat) : Json := ofUInt64 (UInt64.ofNat n)

/-- An object with the given members, in whatever order they are given. -/
def ofMembers (members : List (String × Json)) : Json := .object (Assoc.ofList members)

/-- The member of an object under a key. -/
def get? (key : String) : Json → Option Json
  | .object members => Assoc.find? key members
  | _ => none

/-- The text of a string value. -/
def asString? : Json → Option String
  | .string s => some s
  | _ => none

theorem asString?_eq_some_iff {v : Json} {s : String} : v.asString? = some s ↔ v = .string s := by
  cases v <;> simp [asString?]

/-- The value as a natural below `2 ^ 64`. -/
def asUInt64? : Json → Option UInt64
  | .number n => n.toUInt64?
  | _ => none

theorem asUInt64?_eq_some_iff {v : Json} {n : UInt64} : v.asUInt64? = some n ↔ v = ofUInt64 n := by
  cases v with
  | number x =>
    rw [asUInt64?, ofUInt64, number.injEq]
    exact JsonNumber.toUInt64?_eq_some_iff
  | _ => simp [asUInt64?, ofUInt64]

/-- Whether a value is an object. -/
def isObject : Json → Bool
  | .object _ => true
  | _ => false

/-! ## Equality -/

mutual

/-- Whether two values are the same value. -/
def same : Json → Json → Bool
  | .null, .null => true
  | .bool a, .bool b => a == b
  | .number a, .number b => decide (a = b)
  | .string a, .string b => a == b
  | .array a, .array b => sameItems a b
  | .object a, .object b => sameMembers a b
  | _, _ => false

/-- Whether two lists hold the same values. -/
def sameItems : List Json → List Json → Bool
  | [], [] => true
  | a :: r, b :: s => same a b && sameItems r s
  | _, _ => false

/-- Whether two member lists hold the same keys and values. -/
def sameMembers : List (String × Json) → List (String × Json) → Bool
  | [], [] => true
  | (k, a) :: r, (l, b) :: s => k == l && same a b && sameMembers r s
  | _, _ => false

end

mutual

theorem same_iff : ∀ a b : Json, same a b = true ↔ a = b
  | a, b => by cases a <;> cases b <;> simp [same, sameItems_iff, sameMembers_iff]

theorem sameItems_iff : ∀ a b : List Json, sameItems a b = true ↔ a = b
  | [], [] => by simp [sameItems]
  | [], _ :: _ => by simp [sameItems]
  | _ :: _, [] => by simp [sameItems]
  | a :: r, b :: s => by simp [sameItems, same_iff a b, sameItems_iff r s]

theorem sameMembers_iff : ∀ a b : List (String × Json), sameMembers a b = true ↔ a = b
  | [], [] => by simp [sameMembers]
  | [], _ :: _ => by simp [sameMembers]
  | _ :: _, [] => by simp [sameMembers]
  | (k, a) :: r, (l, b) :: s => by
    simp [sameMembers, same_iff a b, sameMembers_iff r s, and_assoc]

end

instance : DecidableEq Json := fun a b => decidable_of_iff _ (same_iff a b)

/-! ## Canonical values -/

mutual

/-- The members of every object inside the value ascend strictly by key. -/
def Canonical : Json → Prop
  | .array items => CanonicalItems items
  | .object members => Assoc.Ascending members ∧ CanonicalMembers members
  | _ => True

/-- Every value of the list is canonical. -/
def CanonicalItems : List Json → Prop
  | [] => True
  | v :: rest => Canonical v ∧ CanonicalItems rest

/-- Every member's value is canonical. -/
def CanonicalMembers : List (String × Json) → Prop
  | [] => True
  | (_, v) :: rest => Canonical v ∧ CanonicalMembers rest

end

end Json

end EventFlow
