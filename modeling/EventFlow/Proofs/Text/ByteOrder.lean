import Mathlib.Data.String.Basic

/-!
# The order of bytes

Texts are ordered by their characters. This is the order of their bytes in UTF-8 (`lt_iff_bytes`):
of two characters the one with the smaller code has the smaller bytes, whatever comes after them.
Identifiers are put in this order by `Assoc.insert` (`EventFlow.Data.Assoc`).
-/

set_option autoImplicit false

namespace EventFlow.Text

/-- The bytes of a text in UTF-8. -/
def bytes (s : String) : List UInt8 := s.toUTF8.data.toList

theorem bytes_eq (s : String) : bytes s = s.toList.flatMap String.utf8EncodeChar := by
  rw [bytes, String.toUTF8, ← String.utf8Encode_toList, List.utf8Encode,
    List.toList_data_toByteArray]

theorem ofNat_lt_ofNat {m n : Nat} (hm : m < 256) (hn : n < 256) :
    UInt8.ofNat m < UInt8.ofNat n ↔ m < n := by
  rw [UInt8.lt_iff_toNat_lt, UInt8.toNat_ofNat_of_lt' hm, UInt8.toNat_ofNat_of_lt' hn]

theorem ofNat_eq_ofNat {m n : Nat} (hm : m < 256) (hn : n < 256) :
    UInt8.ofNat m = UInt8.ofNat n ↔ m = n := by
  rw [← UInt8.toNat_inj, UInt8.toNat_ofNat_of_lt' hm, UInt8.toNat_ofNat_of_lt' hn]

/-- A smaller character has smaller bytes, whatever follows. -/
theorem utf8EncodeChar_append_lt {c d : Char} (h : c < d) (s t : List UInt8) :
    String.utf8EncodeChar c ++ s < String.utf8EncodeChar d ++ t := by
  have less : c.val.toNat < d.val.toNat := UInt32.lt_iff_toNat_lt.1 h
  have small : d.val.toNat < 0x110000 := by
    have := d.valid
    simp only [UInt32.isValidChar, Nat.isValidChar] at this
    omega
  unfold String.utf8EncodeChar
  generalize c.val.toNat = m at less
  generalize d.val.toNat = n at less small
  -- Each byte holds six bits more than the one before it.
  have nested (k : Nat) : k / 4096 = k / 64 / 64 ∧ k / 262144 = k / 64 / 64 / 64 := by omega
  simp only [(nested m).1, (nested m).2, (nested n).1, (nested n).2]
  split_ifs <;>
    simp (disch := omega) only [List.cons_append, List.nil_append, List.cons_lt_cons_iff,
      ofNat_lt_ofNat, ofNat_eq_ofNat] <;>
    omega

theorem flatMap_utf8EncodeChar_lt {s t : List Char} (h : s < t) :
    s.flatMap String.utf8EncodeChar < t.flatMap String.utf8EncodeChar := by
  induction s generalizing t with
  | nil =>
    cases t with
    | nil => exact absurd h (List.lt_irrefl [])
    | cons d t =>
      have some_byte : String.utf8EncodeChar d ≠ [] := by
        unfold String.utf8EncodeChar
        dsimp only
        split_ifs <;> exact List.cons_ne_nil _ _
      obtain ⟨b, rest, first⟩ := List.exists_cons_of_ne_nil some_byte
      rw [List.flatMap_nil, List.flatMap_cons, first, List.cons_append]
      exact List.nil_lt_cons b _
  | cons c s ih =>
    cases t with
    | nil => exact absurd h (List.not_lt_nil _)
    | cons d t =>
      rw [List.flatMap_cons, List.flatMap_cons]
      rcases List.cons_lt_cons_iff.1 h with less | ⟨rfl, rest⟩
      · exact utf8EncodeChar_append_lt less _ _
      · exact List.append_left_lt (ih rest)

/-- The order of texts is the order of their bytes. -/
theorem lt_iff_bytes {s t : String} : s < t ↔ bytes s < bytes t := by
  have forward {s t : String} (h : s < t) : bytes s < bytes t := by
    rw [bytes_eq, bytes_eq]
    exact flatMap_utf8EncodeChar_lt (String.lt_iff_toList_lt.1 h)
  refine ⟨forward, fun h => ?_⟩
  rcases lt_trichotomy s t with less | rfl | greater
  · exact less
  · exact absurd h (List.lt_irrefl _)
  · exact absurd h (List.lt_asymm (forward greater))

/-- A text whose bytes do not come after those of another. -/
def InByteOrder (s t : String) : Prop := bytes s ≤ bytes t

theorem inByteOrder_iff {s t : String} : InByteOrder s t ↔ s ≤ t := by
  rw [InByteOrder, ← List.not_lt, ← lt_iff_bytes, not_lt]

instance : DecidableRel InByteOrder := fun _ _ => decidable_of_iff _ inByteOrder_iff.symm

instance : IsTrans String InByteOrder where
  trans _ _ _ h h' := inByteOrder_iff.2 (le_trans (inByteOrder_iff.1 h) (inByteOrder_iff.1 h'))

instance : Std.Antisymm InByteOrder where
  antisymm _ _ h h' := le_antisymm (inByteOrder_iff.1 h) (inByteOrder_iff.1 h')

instance : Std.Total InByteOrder where
  total _ _ := (le_total _ _).imp inByteOrder_iff.2 inByteOrder_iff.2

end EventFlow.Text
