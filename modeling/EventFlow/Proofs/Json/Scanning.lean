import EventFlow.Json.Printer
import EventFlow.Json.Reader
import EventFlow.Proofs.Text.Digits

/-!
# Texts and numbers are read back

A text between quotes is read as itself, whatever it holds: a character is written as it is, or
escaped in one of three ways (`readQuoted_quote`). A reader of a number looks at what follows the
number, too, so numbers are read back only in front of something that does not go on with them
(`Ends`), as a comma, a closing bracket or a new line does not. Integers of 64 bits always are
(`readNumber_integer`). Doubles need not be, since their digits are not rounded as a double's own
are; one that is read back alone is read back everywhere (`Binary64.ReadsBack`, `readNumber_text`).
Texts are written by `Document.quote` (`EventFlow.Json.Printer`) and read by `Document.readQuoted`
(`EventFlow.Json.Reader`).
-/

set_option autoImplicit false

namespace EventFlow

namespace Document

/-! ## Texts -/

theorem hexValue_controlDigits {c : Char} (control : c.toNat < 0x20) :
    hexValue '0' '0' (Nat.digitChar (c.toNat / 16)) (Nat.digitChar (c.toNat % 16)) =
      some c.toNat := by
  have all : ∀ n < 0x20, hexValue '0' '0' (Nat.digitChar (n / 16)) (Nat.digitChar (n % 16)) =
      some n := by decide
  exact all c.toNat control

/-- A character that is escaped is read as itself. -/
theorem readQuoted_escape (c : Char) (read : List Char) (whole : Bool) (s : List Char) :
    readQuoted read whole (escape c ++ s) = readQuoted (c :: read) whole s := by
  unfold escape
  iterate 7
    split
    · next h =>
      subst h
      simp [readQuoted, escaped]
  split
  · next control =>
    have leading : isLeading c.toNat = false := by
      simp only [isLeading, decide_eq_false_iff_not]
      omega
    have trailing : isTrailing c.toNat = false := by
      simp only [isTrailing, decide_eq_false_iff_not]
      omega
    have itself : Char.ofNat c.toNat = c := Char.ofNat_toNat c
    simp [controlDigits, readQuoted, hexValue_controlDigits control, leading, trailing, itself]
  · next quote backslash _ _ _ _ _ plain =>
    rw [List.cons_append, List.nil_append, readQuoted]
    · rw [if_neg plain]
    · exact quote
    · intro _ _ _ _ _ h
      exact absurd h backslash
    · intro _ _ h
      exact absurd h backslash

/-- A text between quotes is read as itself. -/
theorem readQuoted_quote (text : String) (s : List Char) :
    readQuoted [] true (text.toList.flatMap escape ++ '"' :: s) = some ((true, text), s) := by
  have read (cs read : List Char) : readQuoted read true (cs.flatMap escape ++ '"' :: s) =
      some ((true, String.ofList (read.reverse ++ cs)), s) := by
    induction cs generalizing read with
    | nil => simp [readQuoted]
    | cons c rest ih =>
      rw [List.flatMap_cons, List.append_assoc, readQuoted_escape, ih]
      simp
  rw [read]
  simp

/-! ## Numbers -/

/-- What follows a number does not go on with it. -/
def Ends (s : List Char) : Prop :=
  ∀ c ∈ s.head?, c.isDigit = false ∧ c ≠ '.' ∧ c ≠ 'e' ∧ c ≠ 'E'

/-- A text may end behind a number. -/
theorem ends_nil : Ends [] := by
  intro c h
  cases h

/-- Behind a number there is no digit. -/
theorem Ends.noDigitAhead {s : List Char} (h : Ends s) : Text.NoDigitAhead s :=
  fun c hc => (h c hc).1

/-- The digits of a number end where they did, whatever comes behind the number. -/
theorem span_append {s rest : List Char} (ends : Ends rest) :
    (s ++ rest).span Char.isDigit =
      ((s.span Char.isDigit).1, (s.span Char.isDigit).2 ++ rest) := by
  rw [List.span_eq_takeWhile_dropWhile, List.span_eq_takeWhile_dropWhile]
  induction s with
  | nil =>
    cases rest with
    | nil => rfl
    | cons c t => simp [(ends c rfl).1]
  | cons c t ih =>
    by_cases digit : c.isDigit
    · simpa [digit] using ih
    · simp [digit]

theorem exponentSign_append {s : List Char} (some_char : s ≠ []) (rest : List Char) :
    exponentSign (s ++ rest) = ((exponentSign s).1, (exponentSign s).2 ++ rest) := by
  cases s with
  | nil => exact absurd rfl some_char
  | cons c t =>
    rw [List.cons_append]
    by_cases plus : c = '+'
    · subst plus
      rfl
    · by_cases minus : c = '-'
      · subst minus
        rfl
      · simp [exponentSign, plus, minus]

/-- Where a number ends, it is what its digits say. -/
theorem readExponent_ends (negative isFloat : Bool) (n : Scaled) {rest : List Char}
    (ends : Ends rest) : readExponent negative isFloat n rest =
      some (ofNumber? (if isFloat then n.toFloat? negative else n.toNumber? negative), rest) := by
  cases rest with
  | nil => cases isFloat <;> simp [readExponent]
  | cons c t =>
    obtain ⟨-, -, small, large⟩ := ends c rfl
    cases isFloat <;> simp [readExponent, small, large]

/-- An exponent is read alike, whatever comes behind the number. -/
theorem readExponent_append {negative isFloat : Bool} {n : Scaled} {s : List Char} {d : Document}
    (h : readExponent negative isFloat n s = some (d, [])) {rest : List Char} (ends : Ends rest) :
    readExponent negative isFloat n (s ++ rest) = some (d, rest) := by
  cases s with
  | nil =>
    have here := readExponent_ends negative isFloat n ends_nil
    rw [h] at here
    rw [List.nil_append, readExponent_ends negative isFloat n ends]
    simp only [Option.some.injEq, Prod.mk.injEq, and_true] at here ⊢
    exact here.symm
  | cons c t =>
    rw [List.cons_append]
    simp only [readExponent] at h ⊢
    split at h
    · next exponent =>
      rw [if_pos exponent]
      have some_char : t ≠ [] := by
        rintro rfl
        simp [exponentSign, List.span, List.span.loop] at h
      rw [exponentSign_append some_char]
      simp only [span_append ends]
      split at h
      · cases h
      · next ds after some_digit spanned =>
        simp only [Option.some.injEq, Prod.mk.injEq] at h
        obtain ⟨rfl, rfl⟩ := h
        rw [spanned]
        split
        · next no_digit =>
          simp only [Prod.mk.injEq] at no_digit
          exact absurd no_digit.1 some_digit
        · next heq =>
          simp only [Prod.mk.injEq] at heq
          obtain ⟨rfl, rfl⟩ := heq
          rfl
    · split at h <;> simp at h

theorem readFraction_of_ne {c : Char} (h : c ≠ '.') (negative : Bool) (n : Scaled) (s : List Char) :
    readFraction negative n (c :: s) = readExponent negative false n (c :: s) := by
  rw [readFraction]
  intro rest heq
  cases heq
  exact h rfl

/-- Where a number ends, it has no fraction. -/
theorem readFraction_ends (negative : Bool) (n : Scaled) {rest : List Char} (ends : Ends rest) :
    readFraction negative n rest = some (ofNumber? (n.toNumber? negative), rest) := by
  have here := readExponent_ends negative false n ends
  rw [if_neg (by decide)] at here
  cases rest with
  | nil => exact here
  | cons c t => rw [readFraction_of_ne (ends c rfl).2.1, here]

/-- A fraction is read alike, whatever comes behind the number. -/
theorem readFraction_append {negative : Bool} {n : Scaled} {s : List Char} {d : Document}
    (h : readFraction negative n s = some (d, [])) {rest : List Char} (ends : Ends rest) :
    readFraction negative n (s ++ rest) = some (d, rest) := by
  cases s with
  | nil =>
    rw [List.nil_append, readFraction_ends negative n ends]
    rw [readFraction_ends negative n ends_nil] at h
    simp only [Option.some.injEq, Prod.mk.injEq, and_true] at h ⊢
    exact h
  | cons c t =>
    by_cases point : c = '.'
    · subst point
      rw [List.cons_append]
      simp only [readFraction, span_append ends] at h ⊢
      split at h
      · cases h
      · next ds after some_digit spanned =>
        rw [spanned]
        split
        · next no_digit =>
          simp only [Prod.mk.injEq] at no_digit
          exact absurd no_digit.1 some_digit
        · next heq =>
          simp only [Prod.mk.injEq] at heq
          obtain ⟨rfl, rfl⟩ := heq
          exact readExponent_append h ends
    · rw [readFraction_of_ne point] at h
      rw [List.cons_append, readFraction_of_ne point, ← List.cons_append]
      exact readExponent_append h ends

/-- What is read of a number with nothing left is read of it in front of what does not go on with
it. -/
theorem readUnsigned_append {negative : Bool} {s : List Char} {d : Document}
    (h : readUnsigned negative s = some (d, [])) {rest : List Char} (ends : Ends rest) :
    readUnsigned negative (s ++ rest) = some (d, rest) := by
  rw [readUnsigned] at h ⊢
  rw [span_append ends]
  split at h
  · cases h
  · cases h
  · next ds after some_digit no_zero spanned =>
    rw [spanned]
    split
    · next heq =>
      simp only [Prod.mk.injEq] at heq
      exact absurd heq.1 some_digit
    · next heq =>
      simp only [Prod.mk.injEq] at heq
      exact absurd heq.1 (no_zero _ _)
    · next heq =>
      simp only [Prod.mk.injEq] at heq
      obtain ⟨rfl, rfl⟩ := heq
      exact readFraction_append h ends

/-! ## Integers -/

/-- Digits that tell a number of 64 bits are all gathered. -/
theorem wholeDigits_eq (digits : List Char) (n : Scaled)
    (fits : digits.foldl (fun n d => n * 10 + digitValue d) n.significand < UInt64.size) :
    wholeDigits n digits =
      ⟨digits.foldl (fun n d => n * 10 + digitValue d) n.significand, n.power⟩ := by
  induction digits generalizing n with
  | nil => rfl
  | cons d rest ih =>
    have grows (ds : List Char) (k : Nat) :
        k ≤ ds.foldl (fun n d => n * 10 + digitValue d) k := by
      induction ds generalizing k with
      | nil => exact Nat.le_refl k
      | cons d ds ih =>
        have := ih (k * 10 + digitValue d)
        rw [List.foldl_cons]
        omega
    rw [List.foldl_cons] at fits ⊢
    have first := Nat.lt_of_le_of_lt (grows rest _) fits
    rw [wholeDigits, if_pos (by simpa [Scaled.fits] using first)]
    exact ih _ fits

/-- The decimal digits of a number of 64 bits are read as the number. -/
theorem wholeDigits_toDigits {m : Nat} (fits : m < UInt64.size) :
    wholeDigits ⟨0, 0⟩ (Nat.toDigits 10 m) = ⟨m, 0⟩ := by
  have value := Text.decimalValue_toDigits m
  unfold Text.decimalValue at value
  have all := wholeDigits_eq (Nat.toDigits 10 m) ⟨0, 0⟩
  simp only [digitValue] at all
  rw [value] at all
  exact all fits

/-- The digits of a number of 64 bits are read as it. -/
theorem readUnsigned_toDigits (negative : Bool) {m : Nat} (fits : m < UInt64.size)
    {rest : List Char} (ends : Ends rest) :
    readUnsigned negative (Nat.toDigits 10 m ++ rest) =
      some (ofNumber? ((Scaled.mk m 0).toNumber? negative), rest) := by
  rw [readUnsigned, Text.span_digits (Text.isDigit_of_mem_toDigits m) ends.noDigitAhead]
  split
  · next heq =>
    simp only [Prod.mk.injEq] at heq
    exact absurd heq.1 Nat.toDigits_ne_nil
  · next heq =>
    simp only [Prod.mk.injEq] at heq
    have long := congrArg List.length heq.1
    have zero := congrArg List.head? heq.1
    by_cases pos : 0 < m
    · exact absurd zero (Text.head?_toDigits_ne_zero pos)
    · have : m = 0 := by omega
      subst this
      simp at long
  · next heq =>
    simp only [Prod.mk.injEq] at heq
    obtain ⟨rfl, rfl⟩ := heq
    rw [wholeDigits_toDigits fits, readFraction_ends negative _ ends]

/-- A number, with its sign. -/
def readNumber : List Char → Option (Document × List Char)
  | '-' :: rest => readUnsigned true rest
  | s => readUnsigned false s

/-- An integer is written with its sign and its decimal digits. -/
theorem toList_integer (n : JsonInteger) : (JsonNumber.integer n).text.toList =
    if 0 ≤ n.val then Nat.toDigits 10 n.val.toNat else '-' :: Nat.toDigits 10 (-n.val).toNat := by
  show (toString n.val).toList = _
  rw [Int.toString_eq_repr, Int.repr_eq_if]
  split
  · rw [Nat.repr_eq_ofList_toDigits, String.toList_ofList]
  · rw [Nat.repr_eq_ofList_toDigits, String.toList_append, String.toList_ofList,
      String.toList_ofList]
    rfl

theorem readNumber_of_isDigit {c : Char} (h : c.isDigit = true) (s : List Char) :
    readNumber (c :: s) = readUnsigned false (c :: s) := by
  rw [readNumber]
  intro rest heq
  cases heq
  exact absurd h (by decide)

/-- An integer of a document is within its bounds. -/
theorem ofInt?_val (n : JsonInteger) : JsonInteger.ofInt? n.val = some n := by
  rw [JsonInteger.ofInt?, dif_pos ⟨n.lower, n.upper⟩]

/-- The number of the digits of an integer is the integer. -/
theorem toNumber?_of_nonneg {n : JsonInteger} (h : 0 ≤ n.val) :
    (Scaled.mk n.val.toNat 0).toNumber? false = some (.integer n) := by
  have back : (n.val.toNat : Int) = n.val := by omega
  unfold Scaled.toNumber?
  rw [if_pos rfl, if_neg (by decide)]
  simp only [back, ofInt?_val, Option.map_some]

/-- A negative integer is read as one. -/
theorem toNumber?_of_neg {n : JsonInteger} (h : ¬ 0 ≤ n.val) :
    (Scaled.mk (-n.val).toNat 0).toNumber? true = some (.integer n) := by
  have back : -((-n.val).toNat : Int) = n.val := by omega
  have nonzero : (-n.val).toNat ≠ 0 := by omega
  unfold Scaled.toNumber?
  rw [if_pos rfl, if_pos rfl, if_neg nonzero]
  simp only [back, ofInt?_val]

/-- An integer is read back, whatever comes behind it. -/
theorem readNumber_integer (n : JsonInteger) {rest : List Char} (ends : Ends rest) :
    readNumber ((JsonNumber.integer n).text.toList ++ rest) =
      some (.number (.integer n), rest) := by
  have lower := n.lower
  have upper := n.upper
  rw [toList_integer]
  by_cases natural : 0 ≤ n.val
  · have fits : n.val.toNat < UInt64.size := by
      show n.val.toNat < 18446744073709551616
      omega
    have read := readUnsigned_toDigits false fits ends
    rw [if_pos natural]
    cases digits : Nat.toDigits 10 n.val.toNat with
    | nil => exact absurd digits Nat.toDigits_ne_nil
    | cons c s =>
      have digit := Text.isDigit_of_mem_toDigits n.val.toNat c (by simp [digits])
      rw [digits] at read
      rw [List.cons_append] at read ⊢
      rw [readNumber_of_isDigit digit, read, toNumber?_of_nonneg natural, ofNumber?]
  · have fits : (-n.val).toNat < UInt64.size := by
      show (-n.val).toNat < 18446744073709551616
      omega
    rw [if_neg natural, List.cons_append, readNumber, readUnsigned_toDigits true fits ends,
      toNumber?_of_neg natural, ofNumber?]

/-! ## Doubles -/

/-- A character that a number may begin with, as far as reading it is concerned: other values do not
begin so. -/
def BeginsNumber (c : Char) : Prop := c.isDigit = true ∨ c = '-' ∨ c = 'e'

/-- No number begins with a blank. -/
theorem BeginsNumber.not_isBlank {c : Char} (h : BeginsNumber c) : isBlank c = false := by
  rcases h with digit | rfl | rfl
  · have not_blank (d : Char) (hd : d.isDigit = false) : c ≠ d := by
      rintro rfl
      rw [digit] at hd
      cases hd
    simp [isBlank, not_blank]
  · decide
  · decide

/-- Where a number begins, a number is read. -/
theorem readValue_number {c : Char} (h : BeginsNumber c) (fuel nesting : Nat) (s : List Char) :
    readValue (fuel + 1) nesting (c :: s) = readNumber (c :: s) := by
  rcases h with digit | rfl | rfl
  · rw [readNumber_of_isDigit digit, readValue]
    · intro heq
      cases heq
    all_goals
      intro _ heq
      cases heq
      exact absurd digit (by decide)
  · rw [readValue, readNumber]
  · rw [readValue, readNumber]
    · intro _ heq
      cases heq
    · intro heq
      cases heq
    all_goals
      intro _ heq
      cases heq

theorem exists_plain_eq_cons {digits : List Char} (hdigits : ∀ c ∈ digits, c.isDigit = true)
    (point : Int) : ∃ c s, FloatLayout.plain digits point = c :: s ∧ c.isDigit = true := by
  unfold FloatLayout.plain
  split
  · exact ⟨'0', _, rfl, by decide⟩
  · next pos =>
    dsimp only
    split
    · cases digits with
      | nil =>
        have zeros : ∃ k, point.toNat = k + 1 := ⟨point.toNat - 1, by omega⟩
        obtain ⟨k, hk⟩ := zeros
        exact ⟨'0', List.replicate k '0' ++ ['.', '0'], by simp [hk, List.replicate_succ],
          by decide⟩
      | cons c s => exact ⟨c, _, rfl, hdigits c List.mem_cons_self⟩
    · next long =>
      cases digits with
      | nil => simp at long
      | cons c s =>
        have some_digit : ∃ k, point.toNat = k + 1 := ⟨point.toNat - 1, by omega⟩
        obtain ⟨k, hk⟩ := some_digit
        exact ⟨c, s.take k ++ '.' :: (c :: s).drop (k + 1), by simp [hk],
          hdigits c List.mem_cons_self⟩

theorem exists_scientific_eq_cons (layout : FloatLayout) {digits : List Char}
    (hdigits : ∀ c ∈ digits, c.isDigit = true) (power : Int) :
    ∃ c s, layout.scientific digits power = c :: s ∧ BeginsNumber c := by
  unfold FloatLayout.scientific
  match digits, hdigits with
  | [], _ => exact ⟨'e', _, rfl, .inr (.inr rfl)⟩
  | [d], hdigits => exact ⟨d, _, rfl, .inl (hdigits d List.mem_cons_self)⟩
  | d :: e :: rest, hdigits => exact ⟨d, _, rfl, .inl (hdigits d List.mem_cons_self)⟩

theorem isDigit_of_mem_dropZeros {digits : List Char} (hdigits : ∀ c ∈ digits, c.isDigit = true)
    (exponent : Int) : ∀ c ∈ (FloatLayout.dropZeros digits exponent).1, c.isDigit = true := by
  intro c hc
  have kept := List.mem_reverse.1 hc
  exact hdigits c (List.mem_reverse.1 ((List.dropWhile_suffix _).subset kept))

/-- What is written for a double begins like a number. -/
theorem exists_float_eq_cons (layout : FloatLayout) (x : Binary64) :
    ∃ c s, (layout.text x).toList = c :: s ∧ BeginsNumber c := by
  have sign (body : List Char) (h : ∃ c s, body = c :: s ∧ BeginsNumber c) :
      ∃ c s, (if x.negative then ['-'] else []) ++ body = c :: s ∧ BeginsNumber c := by
    by_cases negative : x.negative
    · rw [if_pos negative]
      exact ⟨'-', body, rfl, .inr (.inl rfl)⟩
    · rw [if_neg negative]
      exact h
  unfold FloatLayout.text
  dsimp only
  split
  · rw [String.toList_ofList]
    exact sign _ ⟨'0', ['.', '0'], rfl, .inl (by decide)⟩
  · rw [String.toList_ofList]
    apply sign
    have hdigits := isDigit_of_mem_dropZeros
      (Text.isDigit_of_mem_toDigits (Binary64.shortest x.magnitude).digits)
      (Binary64.shortest x.magnitude).exponent
    split
    · obtain ⟨c, s, h, digit⟩ := exists_plain_eq_cons hdigits _
      exact ⟨c, s, h, .inl digit⟩
    · exact exists_scientific_eq_cons layout hdigits _

end Document

/-- What is written for a double is read as the double. -/
def Binary64.ReadsBack (x : Binary64) : Prop :=
  Document.readPart (jsonFloats.text x).toList = some (.number (.float x), [])

/-- What is written for a number is read as the number: integers always are. -/
def JsonNumber.ReadsBack : JsonNumber → Prop
  | .integer _ => True
  | .float x => x.ReadsBack

namespace Document

/-- The text of a number is not empty and begins like one. -/
theorem exists_number_eq_cons (n : JsonNumber) :
    ∃ c s, n.text.toList = c :: s ∧ BeginsNumber c := by
  cases n with
  | integer n =>
    rw [toList_integer]
    split
    · cases digits : Nat.toDigits 10 n.val.toNat with
      | nil => exact absurd digits Nat.toDigits_ne_nil
      | cons c s =>
        exact ⟨c, s, rfl, .inl (Text.isDigit_of_mem_toDigits n.val.toNat c (by simp [digits]))⟩
    · exact ⟨'-', _, rfl, .inr (.inl rfl)⟩
  | float x => exact exists_float_eq_cons jsonFloats x

theorem skipBlanks_cons {c : Char} (h : isBlank c = false) (s : List Char) :
    skipBlanks (c :: s) = c :: s := by
  simp [skipBlanks, h]

/-- A number that reads back is read in front of what does not go on with it. -/
theorem readNumber_text {n : JsonNumber} (h : n.ReadsBack) {rest : List Char} (ends : Ends rest) :
    readNumber (n.text.toList ++ rest) = some (.number n, rest) := by
  cases n with
  | integer n => exact readNumber_integer n ends
  | float x =>
    obtain ⟨c, s, text, begins⟩ := exists_float_eq_cons jsonFloats x
    have alone : readNumber (c :: s) = some (.number (.float x), []) := by
      have h : readPart (jsonFloats.text x).toList = some (.number (.float x), []) := h
      rw [text, readPart, skipBlanks_cons begins.not_isBlank, readValue_number begins] at h
      exact h
    show readNumber ((jsonFloats.text x).toList ++ rest) = _
    rw [text]
    by_cases negative : c = '-'
    · subst negative
      exact readUnsigned_append alone ends
    · have plain (s : List Char) : readNumber (c :: s) = readUnsigned false (c :: s) := by
        rw [readNumber]
        intro _ heq
        cases heq
        exact negative rfl
      rw [plain] at alone
      rw [List.cons_append, plain, ← List.cons_append]
      exact readUnsigned_append alone ends

end Document

end EventFlow
