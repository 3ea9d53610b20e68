import EventFlow.Proofs.Condition.Positions

/-!
# Scanning inverts spelling

`Token.scan` reads every text that spells tokens with a blank between any two of them, and what it
reads from any text is spelled by that text, where blanks are only needed between some tokens
(`-1-1` spells two numbers, `!!` two signs). One step of the scanner takes a blank or a spelling
away (`scanFrom_blanks`, `scanFrom_spelling`); both directions are inductions over such steps. The
step is `Token.next` and the loop `Token.scanFrom`, both in `EventFlow.Condition.Token`.
-/

set_option autoImplicit false

namespace EventFlow.Token

open Text (isBlank)

variable {Next : List Char → Prop} {ts : List Token} {t : Token}
variable {blanks source s rest after : List Char} {c : Char} {fuel position : Nat}

/-! ## Reading what is spelled -/

theorem scanFrom_blanks (blank : ∀ c ∈ blanks, isBlank c = Bool.true) :
    scanFrom (blanks.length + fuel) position (blanks ++ rest) =
      scanFrom fuel (position + blanks.length) rest := by
  induction blanks generalizing position with
  | nil => rw [List.length_nil, Nat.zero_add, List.nil_append, Nat.add_zero]
  | cons c blanks ih =>
    obtain ⟨first, others⟩ := List.forall_mem_cons.1 blank
    rw [List.length_cons, Nat.add_right_comm, List.cons_append, scanFrom, if_pos first, ih others,
      Nat.add_assoc, Nat.add_comm 1]

/-- Where the scanner reads a token up to the end of its spelling, it goes on from there. -/
theorem scanFrom_spelling (spelling : Spelling t s)
    (read : next position (s ++ after) = .ok (t, s.length)) :
    scanFrom (fuel + 1) position (s ++ after) =
      (scanFrom fuel (position + s.length) after).map (t :: ·) := by
  have rest : (s ++ after).drop s.length = after := List.drop_left
  obtain ⟨c, tail, rfl, visible⟩ := spelling.exists_cons
  rw [List.cons_append] at read rest ⊢
  rw [scanFrom, if_neg (by rw [visible]; exact Bool.false_ne_true), read]
  dsimp only
  rw [rest]

/-- A text is read as some tokens, wherever it stands in a source. -/
def Scans (ts : List Token) (source : List Char) : Prop :=
  ∀ fuel position, source.length ≤ fuel → scanFrom fuel position source = .ok ts

theorem scans_blanks (blank : ∀ c ∈ blanks, isBlank c = Bool.true) : Scans [] blanks := by
  intro fuel position enough
  obtain ⟨more, rfl⟩ := Nat.exists_eq_add_of_le enough
  rw [← List.append_nil blanks, List.length_append, List.length_nil, Nat.add_zero,
    scanFrom_blanks blank]
  cases more <;> rfl

/-- One more token may stand in front, with blanks before it. -/
theorem Scans.token (rest : Scans ts after) (blank : ∀ c ∈ blanks, isBlank c = Bool.true)
    (spelling : Spelling t s)
    (read : ∀ position, next position (s ++ after) = .ok (t, s.length)) :
    Scans (t :: ts) (blanks ++ (s ++ after)) := by
  intro fuel position enough
  have some_character : 0 < s.length := by
    obtain ⟨c, tail, rfl, -⟩ := spelling.exists_cons
    exact Nat.succ_pos _
  rw [List.length_append, List.length_append] at enough
  obtain ⟨more, rfl⟩ := Nat.exists_eq_add_of_le (show blanks.length + 1 ≤ fuel by omega)
  rw [Nat.add_assoc, scanFrom_blanks blank, Nat.add_comm 1, scanFrom_spelling spelling (read _),
    rest _ _ (by omega)]
  rfl

theorem scans_of_spelled (h : Spelled Apart ts source) : Scans ts source := by
  induction h with
  | done blanks blank => exact scans_blanks blank
  | more blanks blank spelling apart rest ih =>
    exact ih.token blank spelling fun position => next_of_spelling position spelling apart

theorem scanFrom_of_spelled (h : Spelled Apart ts source) (enough : source.length ≤ fuel) :
    scanFrom fuel position source = .ok ts :=
  scans_of_spelled h fuel position enough

/-! ## What is read is spelled -/

/-- One more blank may stand in front. -/
theorem Spelled.blank (first : isBlank c = Bool.true) (h : Spelled Next ts rest) :
    Spelled Next ts (c :: rest) := by
  cases h with
  | done _ blank => exact .done (c :: rest) (List.forall_mem_cons.2 ⟨first, blank⟩)
  | more blanks blank spelling next rest =>
    exact .more (c :: blanks) (List.forall_mem_cons.2 ⟨first, blank⟩) spelling next rest

theorem spelled_of_scanFrom (enough : source.length ≤ fuel)
    (h : scanFrom fuel position source = .ok ts) : Spelled (fun _ => True) ts source := by
  induction fuel generalizing position source ts with
  | zero =>
    obtain rfl := List.eq_nil_of_length_eq_zero (Nat.le_zero.1 enough)
    cases h
    exact .done [] nofun
  | succ fuel ih =>
    cases source with
    | nil =>
      cases h
      exact .done [] nofun
    | cons c rest =>
      rw [scanFrom] at h
      split at h
      · next blank => exact (ih (Nat.le_of_succ_le_succ enough) h).blank blank
      · split at h
        · cases h
        · next token n read =>
          obtain ⟨s, after, begins, rfl, spelling⟩ := spelling_of_next read
          rw [begins, List.drop_left] at h
          -- Every token takes a character, so the fuel lasts.
          have shorter : after.length ≤ fuel := by
            obtain ⟨d, tail, rfl, -⟩ := spelling.exists_cons
            have lengths := congrArg List.length begins
            simp only [List.length_cons, List.length_append] at lengths enough
            omega
          cases later : scanFrom fuel (position + s.length) after with
          | error e =>
            rw [later] at h
            cases h
          | ok others =>
            rw [later] at h
            cases h
            rw [begins]
            exact .more [] nofun spelling trivial (ih shorter later)

/-! ## Both directions -/

/-- A text that spells tokens with blanks between them is read as those tokens; a text that is read
as some tokens spells them, with blanks between them or not; and the scanner that goes by positions
answers the same and looks at no position outside of the text. -/
theorem scan_inverts_spelling (source : List Char) (ts : List Token) :
    (Spelled Apart ts source → scan source = .ok ts) ∧
      (scan source = .ok ts → Spelled (fun _ => True) ts source) ∧
      Positions.scan source.toArray = some (scan source) :=
  ⟨fun spelled => scanFrom_of_spelled spelled (Nat.le_refl _),
    spelled_of_scanFrom (Nat.le_refl _), Positions.scan_eq source.toArray⟩

theorem scan_inverts_spelling_quoted :
    let source := ['\'', '\\', '\'', 's', '\'', ' ', '=', '=', '=', '\t', '-', '.', '5']
    let half := Binary64.Rounded.finite ⟨Bool.true, 0x3FE0000000000000, by decide⟩
    let tokens := [.text "'s", .relation .equal, .number half]
    Spelled Apart tokens source ∧ scan source = .ok tokens ∧
      Spelled (fun _ => True) tokens source ∧
      Positions.scan source.toArray = some (.ok tokens) := by
  intro source half tokens
  have digits : ∀ c ∈ ['.', '5'], c.isDigit = Bool.true ∨ c = '.' := by
    rw [List.forall_mem_cons, List.forall_mem_singleton]
    exact ⟨.inr rfl, .inl rfl⟩
  have value : Decimal.read? (['-'] ++ ['.', '5']) = some half := by decide +kernel
  have starts : StartsNumber (['-'] ++ ['.', '5']) := Eq.refl Bool.true
  have quoted : Escaped '\'' ['\\', '\'', 's'] ['\'', 's'] :=
    .escaped '\'' (.plain (by decide) (by decide) .nil)
  have apart {c : Char} {rest : List Char} (h : isBlank c = Bool.true) : Apart (c :: rest) := by
    rintro d same
    cases same
    exact h
  have number : Spelled Apart [.number half] ['\t', '-', '.', '5'] :=
    .more ['\t'] (List.forall_mem_singleton.2 rfl) (.number (.inr rfl) digits starts value) nofun
      (.done [] nofun)
  have relation : Spelled Apart [.relation .equal, .number half]
      [' ', '=', '=', '=', '\t', '-', '.', '5'] :=
    .more [' '] (List.forall_mem_singleton.2 rfl) (.form (s := "===") (by decide)) (apart rfl)
      number
  have spelled : Spelled Apart tokens source :=
    .more [] nofun (.text (.inl rfl) quoted) (apart rfl) relation
  have inverse := scan_inverts_spelling source tokens
  have read := inverse.1 spelled
  exact ⟨spelled, read, inverse.2.1 read, inverse.2.2.trans (congrArg some read)⟩

end EventFlow.Token
