import EventFlow.Data.Uuid
import EventFlow.Proofs.Text.Digits

/-!
# Identifiers are read back

The digits of a number in base 16 tell it (`Text.hexValue_toDigits`), so an identifier that is
written in hexadecimal digits, with its hyphens, is read back, and identifiers that are written
alike are the same. Those of version 4 are as many as the bits that the version leaves free can
number (`Uuid.ofIndex_inj`). The writer is `Uuid.text` and the reader `Uuid.read?`, in
`EventFlow.Data.Uuid`.
-/

set_option autoImplicit false

namespace EventFlow

namespace Text

/-- The value of a run of hexadecimal digits, after a number that was read before. -/
def hexValue (n : Nat) (digits : List Char) : Option Nat :=
  digits.foldlM (fun n c => (hexDigit? c).map (n * 16 + ·)) n

theorem hexValue_append (n : Nat) (first second : List Char) :
    hexValue n (first ++ second) = (hexValue n first).bind (hexValue · second) :=
  List.foldlM_append

theorem hexValue_digitChar (n : Nat) {k : Nat} (h : k < 16) :
    hexValue n [Nat.digitChar k] = some (n * 16 + k) := by
  rw [hexValue, List.foldlM_cons, hexDigit?_digitChar h]
  rfl

theorem hexValue_replicate_zero (k : Nat) : hexValue 0 (List.replicate k '0') = some 0 := by
  induction k with
  | zero => rfl
  | succ k ih => exact ih

theorem hexValue_toDigits (n : Nat) : hexValue 0 (Nat.toDigits 16 n) = some n := by
  induction n using Nat.strongRecOn with
  | ind n ih =>
    rw [Nat.toDigits_eq_if (by decide)]
    split
    · next small =>
      rw [hexValue_digitChar 0 small]
      simp
    · next large =>
      rw [hexValue_append, ih (n / 16) (by omega), Option.bind_some,
        hexValue_digitChar _ (Nat.mod_lt n (by decide))]
      congr 1
      omega

theorem exists_digitChar_of_mem {n : Nat} :
    ∀ c ∈ Nat.toDigits 16 n, ∃ k < 16, c = Nat.digitChar k := by
  induction n using Nat.strongRecOn with
  | ind n ih =>
    intro c hc
    rw [Nat.toDigits_eq_if (by decide)] at hc
    split at hc
    · next small =>
      exact ⟨n, small, List.mem_singleton.1 hc⟩
    · next large =>
      rcases List.mem_append.1 hc with front | last
      · exact ih (n / 16) (by omega) c front
      · exact ⟨n % 16, Nat.mod_lt n (by decide), List.mem_singleton.1 last⟩

end Text

namespace Uuid

open Text

theorem length_digits (u : Uuid) : u.digits.length = 32 := by
  have short : (Nat.toDigits 16 u.bits.toNat).length ≤ 32 :=
    (Nat.length_toDigits_le_iff (by decide) (by decide)).2 u.bits.isLt
  rw [digits, List.length_append, List.length_replicate]
  omega

theorem exists_digitChar_of_mem_digits {u : Uuid} :
    ∀ c ∈ u.digits, ∃ k < 16, c = Nat.digitChar k := by
  intro c hc
  rcases List.mem_append.1 hc with zero | digit
  · exact ⟨0, by decide, List.eq_of_mem_replicate zero⟩
  · exact exists_digitChar_of_mem c digit

theorem hexValue_digits (u : Uuid) : hexValue 0 u.digits = some u.bits.toNat := by
  rw [digits, hexValue_append, hexValue_replicate_zero, Option.bind_some, hexValue_toDigits]

theorem ofDigits?_digits (u : Uuid) : ofDigits? u.digits = some u := by
  have value := u.hexValue_digits
  unfold hexValue at value
  rw [ofDigits?, if_pos u.length_digits, value]
  simp

/-- Five groups of digits with hyphens between them are read as the digits without. -/
theorem ofHyphenated?_groups {a b c d e : List Char} (ha : a.length = 8) (hb : b.length = 4)
    (hc : c.length = 4) (hd : d.length = 4) (he : e.length = 12) :
    ofHyphenated? (a ++ '-' :: (b ++ '-' :: (c ++ '-' :: (d ++ '-' :: e)))) =
      ofDigits? (a ++ b ++ c ++ d ++ e) := by
  have hyphens : ([8, 13, 18, 23].all fun i =>
      (a ++ '-' :: (b ++ '-' :: (c ++ '-' :: (d ++ '-' :: e))))[i]? == some '-') = true := by
    simp [List.getElem?_append, List.getElem?_cons, ha, hb, hc, hd]
  have length : (a ++ '-' :: (b ++ '-' :: (c ++ '-' :: (d ++ '-' :: e)))).length = 36 := by
    simp [ha, hb, hc, hd, he]
  rw [ofHyphenated?]
  simp only [hyphens, length, and_self, if_true]
  congr 1
  simp [List.drop_append, List.drop_eq_nil_of_le, ha, hb, hc, hd]

theorem toList_text (u : Uuid) :
    u.text.toList = u.digits.take 8 ++ '-' :: ((u.digits.drop 8).take 4 ++
      '-' :: ((u.digits.drop 12).take 4 ++ '-' :: ((u.digits.drop 16).take 4 ++
        '-' :: u.digits.drop 20))) := by
  simp [text]

/-- What is written begins with a digit, and with nothing that other forms begin with. -/
theorem exists_toList_text_eq_cons (u : Uuid) : ∃ c rest, u.text.toList = c :: rest ∧
    c ≠ '\x7b' ∧ c.toLower ≠ 'u' := by
  have length := u.length_digits
  cases hdigits : u.digits with
  | nil => simp [hdigits] at length
  | cons c rest =>
    obtain ⟨k, hk, rfl⟩ := u.exists_digitChar_of_mem_digits c (by simp [hdigits])
    refine ⟨Nat.digitChar k, (u.text.toList).tail, ?_, ?_, ?_⟩
    · rw [toList_text, hdigits]
      rfl
    · have all : ∀ k < 16, Nat.digitChar k ≠ '\x7b' := by decide
      exact all k hk
    · have all : ∀ k < 16, (Nat.digitChar k).toLower ≠ 'u' := by decide
      exact all k hk

theorem ofHyphenated?_text (u : Uuid) : ofHyphenated? u.text.toList = some u := by
  have length := u.length_digits
  have whole : u.digits.take 8 ++ (u.digits.drop 8).take 4 ++ (u.digits.drop 12).take 4 ++
      (u.digits.drop 16).take 4 ++ u.digits.drop 20 = u.digits := by
    have h12 : u.digits.drop 12 = (u.digits.drop 8).drop 4 := by rw [List.drop_drop]
    have h16 : u.digits.drop 16 = (u.digits.drop 12).drop 4 := by rw [List.drop_drop]
    have h20 : u.digits.drop 20 = (u.digits.drop 16).drop 4 := by rw [List.drop_drop]
    rw [h20, List.append_assoc, List.take_append_drop, h16, List.append_assoc,
      List.take_append_drop, h12, List.append_assoc, List.take_append_drop, List.take_append_drop]
  rw [toList_text, ofHyphenated?_groups, whole, ofDigits?_digits] <;> simp [length]

/-- An identifier that is written is read back. -/
theorem read?_text (u : Uuid) : read? u.text = some u := by
  have length : u.text.toList.length = 36 := by simp [toList_text, u.length_digits]
  obtain ⟨c, rest, htext, no_brace, no_prefix⟩ := u.exists_toList_text_eq_cons
  have hyphenated := u.ofHyphenated?_text
  rw [htext] at length hyphenated
  unfold read?
  rw [htext]
  dsimp only
  split
  · next heq =>
    cases heq
    exact absurd rfl no_brace
  · have other : ((c :: rest).take 9).map Char.toLower ≠ "urn:uuid:".toList := by
      intro h
      have head := congrArg List.head? h
      simp at head
      exact no_prefix head
    rw [if_neg (by omega), if_neg other, hyphenated]

/-! ## Different identifiers -/

theorem simple_inj {u v : Uuid} (h : u.simple = v.simple) : u = v := by
  have same := hexValue_digits u
  rw [String.ofList_inj.1 h, hexValue_digits v] at same
  have bits : u.bits = v.bits := BitVec.eq_of_toNat_eq (Option.some.inj same).symm
  cases u
  cases v
  rw [Uuid.mk.injEq]
  exact bits

theorem append_inj {w v : Nat} {a b : BitVec w} {c d : BitVec v} (h : a ++ c = b ++ d) :
    a = b ∧ c = d := by
  have low := congrArg (BitVec.setWidth v) h
  have high := congrArg (BitVec.extractLsb' v w) h
  simp only [BitVec.setWidth_append_eq_right, BitVec.extractLsb'_append_eq_left] at low high
  exact ⟨high, low⟩

/-- Numbers of 122 bits number different identifiers. -/
theorem ofIndex_inj {n m : Nat} (hn : n < 2 ^ 122) (hm : m < 2 ^ 122)
    (h : ofIndex n = ofIndex m) : n = m := by
  obtain ⟨front, low⟩ := append_inj (congrArg Uuid.bits h)
  obtain ⟨front, -⟩ := append_inj front
  obtain ⟨front, middle⟩ := append_inj front
  obtain ⟨high, -⟩ := append_inj front
  have low := congrArg BitVec.toNat low
  have middle := congrArg BitVec.toNat middle
  have high := congrArg BitVec.toNat high
  simp only [BitVec.toNat_ofNat, Nat.shiftRight_eq_div_pow] at low middle high
  omega

end Uuid

end EventFlow
