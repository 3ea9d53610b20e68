import EventFlow.Number.Decimal
import EventFlow.Proofs.Number.Range
import EventFlow.Proofs.Text.Digits

/-!
# Numerals as ratios

A run of digits with at most a point among them is read as the double nearest to the ratio of its
digits to a power of ten (`Decimal.eq_ofDecimal_of_read?`). So it is read as a finite double exactly
if it fits (`Decimal.Fits`), and as zero exactly if it vanishes (`Decimal.Vanishes`). The reader is
`Decimal.read?`, in `EventFlow.Number.Decimal`.
-/

set_option autoImplicit false

namespace EventFlow.Decimal

/-- The digits of a numeral, as one number. -/
def digits (s : List Char) : Nat := Text.decimalValue (s.filter Char.isDigit)

/-- How many digits of a numeral stand behind its point. -/
def places (s : List Char) : Nat := (s.dropWhile (· != '.')).length - 1

/-- A numeral is below what is beyond every double. -/
def Fits (s : List Char) : Prop := digits s < Binary64.beyond * 10 ^ places s

/-- A numeral is at most half of the least double. -/
def Vanishes (s : List Char) : Prop := 2 * (digits s * Binary64.one) ≤ 10 ^ places s

variable {s run whole fraction : List Char} {n : Binary64.Rounded} {negative : Bool}

theorem sign_eq_self (unsigned : ∀ c ∈ s.head?, c ≠ '-' ∧ c ≠ '+') : sign s = (false, s) := by
  unfold sign
  split
  · exact absurd rfl (unsigned '-' rfl).1
  · exact absurd rfl (unsigned '+' rfl).2
  · rfl

theorem ne_sign_of_isDigit {c : Char} (h : c.isDigit = true ∨ c = '.') : c ≠ '-' ∧ c ≠ '+' := by
  constructor <;> rintro rfl <;> revert h <;> decide

theorem exists_whole (all : ∀ c ∈ run, c.isDigit = true ∨ c = '.') :
    ∃ whole, (∀ c ∈ whole, c.isDigit = true) ∧
      (run = whole ∨ ∃ after, run = whole ++ '.' :: after) := by
  induction run with
  | nil => exact ⟨[], nofun, .inl rfl⟩
  | cons c rest ih =>
    obtain ⟨first, others⟩ := List.forall_mem_cons.1 all
    rcases first with digit | rfl
    · obtain ⟨whole, digits, rfl | ⟨after, rfl⟩⟩ := ih others
      · exact ⟨c :: rest, List.forall_mem_cons.2 ⟨digit, digits⟩, .inl rfl⟩
      · exact ⟨c :: whole, List.forall_mem_cons.2 ⟨digit, digits⟩, .inr ⟨after, rfl⟩⟩
    · exact ⟨[], nofun, .inr ⟨rest, rfl⟩⟩

theorem dropWhile_digits (hw : ∀ c ∈ whole, c.isDigit = true) (after : List Char) :
    (whole ++ after).dropWhile (· != '.') = after.dropWhile (· != '.') := by
  refine List.dropWhile_append_of_pos fun c among => ?_
  have digit := hw c among
  rw [bne_iff_ne]
  rintro rfl
  cases digit

theorem digits_whole (hw : ∀ c ∈ whole, c.isDigit = true) :
    digits whole = Text.decimalValue whole := by
  rw [digits, List.filter_eq_self.2 hw]

theorem digits_pointed (hw : ∀ c ∈ whole, c.isDigit = true)
    (hf : ∀ c ∈ fraction, c.isDigit = true) :
    digits (whole ++ '.' :: fraction) = Text.decimalValue (whole ++ fraction) := by
  have skipped : ('.' :: fraction).filter Char.isDigit = fraction := List.filter_eq_self.2 hf
  rw [digits, List.filter_append, List.filter_eq_self.2 hw, skipped]

theorem places_whole (hw : ∀ c ∈ whole, c.isDigit = true) : places whole = 0 := by
  have none := dropWhile_digits hw []
  rw [List.append_nil] at none
  rw [places, none]
  rfl

theorem places_pointed (hw : ∀ c ∈ whole, c.isDigit = true) :
    places (whole ++ '.' :: fraction) = fraction.length := by
  rw [places, dropWhile_digits hw]
  rfl

theorem read?_whole (signed : sign s = (negative, whole)) (hw : ∀ c ∈ whole, c.isDigit = true) :
    read? s = if whole.isEmpty then none
      else some (Binary64.ofDecimal negative (Text.decimalValue whole) 0) := by
  have cut := Text.span_digits (s := []) hw nofun
  rw [List.append_nil] at cut
  unfold read?
  rw [signed]
  dsimp only
  rw [cut]
  dsimp only
  rw [List.append_nil, List.isEmpty_nil, Bool.and_true]
  rfl

theorem read?_pointed {after : List Char} (signed : sign s = (negative, whole ++ '.' :: after))
    (hw : ∀ c ∈ whole, c.isDigit = true) {rest : List Char}
    (cut : after.span Char.isDigit = (fraction, rest)) :
    read? s = if whole.isEmpty && fraction.isEmpty then none
      else (exponent? rest).map fun power =>
        Binary64.ofDecimal negative (Text.decimalValue (whole ++ fraction))
          (power - (fraction.length : Int)) := by
  have ends := Text.span_digits hw (Text.noDigitAhead_cons (c := '.') (s := after) rfl)
  obtain ⟨rfl, rfl⟩ :
      fraction = (after.span Char.isDigit).1 ∧ rest = (after.span Char.isDigit).2 := by
    rw [cut]
    exact ⟨rfl, rfl⟩
  unfold read?
  rw [signed]
  dsimp only
  rw [ends]
  rfl

/-- A run of digits with at most a point among them is read as the ratio of its digits. -/
theorem eq_ofDecimal_of_read? (signed : sign s = (negative, run))
    (all : ∀ c ∈ run, c.isDigit = true ∨ c = '.') (value : read? s = some n) :
    n = Binary64.ofDecimal negative (digits run) (-places run) := by
  obtain ⟨whole, hw, rfl | ⟨after, rfl⟩⟩ := exists_whole all
  · rw [read?_whole signed hw] at value
    rw [digits_whole hw, places_whole hw]
    split at value
    · cases value
    · exact (Option.some.inj value).symm
  · obtain ⟨fraction, hf, rfl | ⟨more, rfl⟩⟩ :=
      exists_whole fun c among => all c (List.mem_append_right _ (List.mem_cons_of_mem _ among))
    · have cut := Text.span_digits (s := []) hf nofun
      rw [List.append_nil] at cut
      rw [read?_pointed signed hw cut] at value
      rw [digits_pointed hw hf, places_pointed hw]
      split at value
      · cases value
      · rw [← Int.zero_sub]
        exact (Option.some.inj value).symm
    · -- No exponent begins with a second point.
      have cut := Text.span_digits hf (Text.noDigitAhead_cons (c := '.') (s := more) rfl)
      rw [read?_pointed signed hw cut] at value
      split at value <;> cases value

/-- A numeral is rounded as the ratio that it is. -/
theorem roundsAs_of_read? (signed : sign s = (negative, run))
    (all : ∀ c ∈ run, c.isDigit = true ∨ c = '.') (value : read? s = some n) :
    Binary64.RoundsAs negative (digits run) (10 ^ places run) n := by
  rw [eq_ofDecimal_of_read? signed all value]
  exact Binary64.roundsAs_ofDecimal negative _ _

end EventFlow.Decimal
