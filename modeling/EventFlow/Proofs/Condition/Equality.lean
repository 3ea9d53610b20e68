import EventFlow.Condition.Compare
import EventFlow.Proofs.Data.Assoc
import EventFlow.Proofs.Number.Whole

/-!
# Equal values

Two values are equal if they have the same content (`Json.strictEq_iff_content`): that of a number
is what its double is worth, and that of any other value is all of it, but for the signs of zeros.
So equality is an equivalence. Inside arrays and objects no double is taken of an integer, which is
there equal to itself alone. So arrays are equal if their items are, and objects if their members
are, unless the parts at one place are numbers of two forms (`Json.strictEq_parts_of_one_form`).
Values are compared by `Json.strictEq`, and their parts by `Json.alike`
(`EventFlow.Condition.Compare`).
-/

set_option autoImplicit false

namespace EventFlow

namespace Binary64

/-- A double with the sign of a zero taken away. -/
def unsigned (x : Binary64) : Binary64 := if x.magnitude = 0 then zero else x

theorem magnitude_eq_natAbs (x : Binary64) : x.magnitude = x.rank.natAbs := by
  unfold rank
  split <;> omega

/-- The sign of a double that is no zero can be told from its position. -/
theorem negative_iff_rank {x : Binary64} (h : x.magnitude ≠ 0) :
    x.negative = true ↔ x.rank < 0 := by
  unfold rank
  split
  · next below => exact iff_of_true below (by omega)
  · next above => exact iff_of_false above (by omega)

theorem rank_unsigned (x : Binary64) : x.unsigned.rank = x.rank := by
  unfold unsigned
  split
  · next nothing => exact (Int.natAbs_eq_zero.1 (x.magnitude_eq_natAbs ▸ nothing)).symm
  · rfl

theorem eq_iff_unsigned {x y : Binary64} : x.eq y = true ↔ x.unsigned = y.unsigned := by
  rw [eq_iff_rank]
  constructor
  · intro same
    have size : x.magnitude = y.magnitude := by rw [magnitude_eq_natAbs, magnitude_eq_natAbs, same]
    unfold unsigned
    by_cases nothing : x.magnitude = 0
    · rw [if_pos nothing, if_pos (size ▸ nothing)]
    · have something : y.magnitude ≠ 0 := size ▸ nothing
      have sign : x.negative = y.negative := by
        rw [Bool.eq_iff_iff, negative_iff_rank nothing, negative_iff_rank something, same]
      rw [if_neg nothing, if_neg something]
      obtain ⟨negative, m, finite⟩ := x
      obtain ⟨negative', n, finite'⟩ := y
      exact Binary64.mk.injEq .. ▸ ⟨sign, size⟩
  · intro same
    rw [← rank_unsigned x, same, rank_unsigned]

end Binary64

namespace JsonNumber

/-- A number with the sign of a zero taken away. -/
def unsigned : JsonNumber → JsonNumber
  | integer n => .integer n
  | float x => .float x.unsigned

/-- Two numbers are of one form: they are doubles, or one integer. -/
def OneForm : JsonNumber → JsonNumber → Prop
  | integer m, integer n => m = n
  | float _, float _ => True
  | _, _ => False

end JsonNumber

namespace Json

/-! ## Contents -/

mutual

/-- A value with the signs of the zeros in it taken away. -/
def unsigned : Json → Json
  | .number n => .number n.unsigned
  | .array items => .array (unsignedItems items)
  | .object members => .object (unsignedMembers members)
  | other => other

/-- Values with the signs of the zeros in them taken away. -/
def unsignedItems : List Json → List Json
  | [] => []
  | v :: rest => unsigned v :: unsignedItems rest

/-- Members with the signs of the zeros in their values taken away. -/
def unsignedMembers : List (String × Json) → List (String × Json)
  | [] => []
  | (k, v) :: rest => (k, unsigned v) :: unsignedMembers rest

end

mutual

theorem alike_iff_unsigned : ∀ a b : Json, a.alike b = true ↔ a.unsigned = b.unsigned
  | a, b => by
    rcases a with _ | _ | (_ | _) | _ | _ | _ <;> rcases b with _ | _ | (_ | _) | _ | _ | _ <;>
      simp [alike, unsigned, JsonNumber.unsigned, Binary64.eq_iff_unsigned, alikeItems_iff_unsigned,
        alikeMembers_iff_unsigned]

theorem alikeItems_iff_unsigned :
    ∀ xs ys : List Json, alikeItems xs ys = true ↔ unsignedItems xs = unsignedItems ys
  | [], [] => by simp [alikeItems]
  | [], _ :: _ => by simp [alikeItems, unsignedItems]
  | _ :: _, [] => by simp [alikeItems, unsignedItems]
  | x :: xs, y :: ys => by
    simp [alikeItems, unsignedItems, alike_iff_unsigned x y, alikeItems_iff_unsigned xs ys]

theorem alikeMembers_iff_unsigned :
    ∀ ms ns : List (String × Json),
      alikeMembers ms ns = true ↔ unsignedMembers ms = unsignedMembers ns
  | [], [] => by simp [alikeMembers]
  | [], _ :: _ => by simp [alikeMembers, unsignedMembers]
  | _ :: _, [] => by simp [alikeMembers, unsignedMembers]
  | (k, v) :: ms, (l, w) :: ns => by
    simp [alikeMembers, unsignedMembers, alike_iff_unsigned v w, alikeMembers_iff_unsigned ms ns,
      and_assoc]

end

/-- What equal values have in common: what the double of a number is worth, in units of
`2 ^ -1074`, and all of another value but the signs of zeros. -/
def content : Json → Int ⊕ Json
  | .number n => .inl n.toBinary64.units
  | v => .inr v.unsigned

theorem strictEq_iff_content {a b : Json} : a.strictEq b = true ↔ a.content = b.content := by
  cases a <;> cases b
  case number.number m n => simp [strictEq, content, Binary64.eq_iff_units]
  all_goals simp [strictEq, content, alike_iff_unsigned, unsigned]

/-- Equality is an equivalence, as it is sameness of contents. -/
theorem equivalence_strictEq : Equivalence fun a b : Json => a.strictEq b = true where
  refl _ := strictEq_iff_content.2 rfl
  symm h := strictEq_iff_content.2 (strictEq_iff_content.1 h).symm
  trans h h' :=
    strictEq_iff_content.2 ((strictEq_iff_content.1 h).trans (strictEq_iff_content.1 h'))

/-! ## Parts -/

/-- Two values are of one form if they are numbers. -/
def OneForm : Json → Json → Prop
  | .number m, .number n => m.OneForm n
  | _, _ => True

/-- Two values are equal, and of one form if they are numbers. -/
def EqualInForm (a b : Json) : Prop := a.strictEq b = true ∧ a.OneForm b

theorem alike_iff_equalInForm {a b : Json} : a.alike b = true ↔ a.EqualInForm b := by
  unfold EqualInForm
  rcases a with _ | _ | (_ | _) | _ | _ | _ <;> rcases b with _ | _ | (_ | _) | _ | _ | _ <;>
    simp +contextual [alike, strictEq, OneForm, JsonNumber.OneForm, JsonNumber.toBinary64,
      Binary64.eq_refl]

theorem alikeItems_iff {xs ys : List Json} :
    alikeItems xs ys = true ↔ List.Forall₂ EqualInForm xs ys := by
  induction xs generalizing ys with
  | nil => cases ys <;> simp [alikeItems]
  | cons x xs ih => cases ys <;> simp [alikeItems, ih, alike_iff_equalInForm]

theorem alikeMembers_iff {ms ns : List (String × Json)} :
    alikeMembers ms ns = true ↔
      List.Forall₂ (fun m n => m.1 = n.1 ∧ m.2.EqualInForm n.2) ms ns := by
  induction ms generalizing ns with
  | nil => cases ns <;> simp [alikeMembers]
  | cons m ms ih => cases ns <;> simp [alikeMembers, ih, alike_iff_equalInForm]

/-- Equality is an equivalence, under which numbers are what their doubles are worth. Two arrays are
equal if they are of one length and equal item by item, and two objects if they have the same keys
and equal values under them, but for parts that are numbers of two forms: an array or an object with
an integer in it is not equal to one with a double there, nor to one with another integer. -/
theorem strictEq_parts_of_one_form (xs ys : List Json) {ms ns : List (String × Json)}
    (h : Assoc.Ascending ms) (h' : Assoc.Ascending ns) :
    (Equivalence fun a b : Json => a.strictEq b = true) ∧
      (∀ m n : JsonNumber, (number m).strictEq (number n) = true ↔
        m.toBinary64.units = n.toBinary64.units) ∧
      ((array xs).strictEq (array ys) = true ↔ List.Forall₂ EqualInForm xs ys) ∧
      ((object ms).strictEq (object ns) = true ↔
        ∀ key, Option.Rel EqualInForm (Assoc.find? key ms) (Assoc.find? key ns)) :=
  ⟨equivalence_strictEq, fun _ _ => Binary64.eq_iff_units, alikeItems_iff,
    alikeMembers_iff.trans (Assoc.forall₂_iff_find? h h')⟩

/-- One bell, counted in an integer and in a double: the counts are equal, but nothing that they are
in. Two zeros of different signs are equal anywhere. -/
theorem strictEq_parts_of_one_form_bells :
    let one := number (.integer ⟨1, by decide, by decide⟩)
    let double := number (.float ⟨false, 0x3FF0000000000000, by decide⟩)
    let zero (negative : Bool) := number (.float ⟨negative, 0, by decide⟩)
    one.strictEq double = true ∧ (array [one]).strictEq (array [double]) = false ∧
      (object [("bells", one)]).strictEq (object [("bells", double)]) = false ∧
      (array [zero true]).strictEq (array [zero false]) = true ∧
      (object [("bells", double), ("lost", array [zero true])]).strictEq
        (object [("bells", double), ("lost", array [zero false])]) = true := by
  intro one double zero
  have apart : ¬ one.EqualInForm double := fun equal => equal.2
  have single (v : Json) : Assoc.Ascending [("bells", v)] := List.pairwise_singleton _ _
  have pair (v w : Json) : Assoc.Ascending [("bells", v), ("lost", w)] := by
    refine List.pairwise_cons.2 ⟨fun entry among => ?_, List.pairwise_singleton _ _⟩
    rw [List.mem_singleton.1 among]
    exact (by decide : "bells" < "lost")
  obtain ⟨-, numbers, counted, told⟩ :=
    strictEq_parts_of_one_form [one] [double] (single one) (single double)
  obtain ⟨-, -, lost, both⟩ := strictEq_parts_of_one_form [zero true] [zero false]
    (pair double (array [zero true])) (pair double (array [zero false]))
  have zeros : (zero true).EqualInForm (zero false) :=
    ⟨(numbers _ _).2 (by decide +kernel), trivial⟩
  have none_left : (array [zero true]).strictEq (array [zero false]) = true :=
    lost.2 (.cons zeros .nil)
  refine ⟨(numbers _ _).2 (by decide +kernel), ?_, ?_, none_left, ?_⟩
  · refine Bool.eq_false_iff.2 fun equal => ?_
    cases counted.1 equal with
    | cons first rest => exact apart first
  · refine Bool.eq_false_iff.2 fun equal => ?_
    cases told.1 equal "bells" with
    | some first => exact apart first
  · refine both.2 fun key => ?_
    simp only [Assoc.find?]
    split
    · exact .some ⟨(numbers _ _).2 rfl, trivial⟩
    · split
      · exact .some ⟨none_left, trivial⟩
      · exact .none

end Json

end EventFlow
