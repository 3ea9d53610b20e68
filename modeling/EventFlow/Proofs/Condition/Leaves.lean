import EventFlow.Proofs.Condition.Parsing
import EventFlow.Proofs.Condition.Scanning
import EventFlow.Proofs.Number.Decimal

/-!
# The leaves of an expression

The leaves of a syntax tree are the operands among the tokens of its source, in their order
(`Phrase.leaves_tree`). A numeral is one of them: a JSON number if it is below what is beyond every
double, and `null` if it is not (`Expression.literals_of_parse`). So a number counts as false, or is
equal to `null`, only if it is rounded to zero or has more than 308 digits before the point. A
numeral becomes a leaf in `Expression.primary`, by way of `Expression.ofNumber`
(`EventFlow.Condition.Expression`).
-/

set_option autoImplicit false

namespace EventFlow

/-! ## Spelled numerals -/

namespace Token

variable {t : Token} {s source : List Char} {ts : List Token} {n : Binary64.Rounded}

/-- A numeral is read as the ratio that it is. -/
theorem Spelling.roundsAs (h : Spelling (.number n) s) :
    Binary64.RoundsAs (s.head? == some '-') (Decimal.digits s) (10 ^ Decimal.places s) n := by
  cases h with
  | form listed => cases listed
  | @number sign run signed digits starts _ value =>
    rcases signed with rfl | rfl
    · rw [List.nil_append] at value ⊢
      have unsigned : ∀ c ∈ run.head?, c ≠ '-' ∧ c ≠ '+' := fun c first =>
        Decimal.ne_sign_of_isDigit (digits c (List.mem_of_mem_head? first))
      have positive : (run.head? == some '-') = Bool.false := by
        rw [beq_eq_false_iff_ne]
        exact fun minus => (unsigned '-' minus).1 rfl
      rw [positive]
      exact Decimal.roundsAs_of_read? (Decimal.sign_eq_self unsigned) digits value
    · -- The sign adds no digit and no place.
      have rounds : Binary64.RoundsAs Bool.true (Decimal.digits run) (10 ^ Decimal.places run) n :=
        Decimal.roundsAs_of_read? rfl digits value
      exact rounds

theorem exists_spelling {Next : List Char → Prop} (h : Spelled Next ts source) (among : t ∈ ts) :
    ∃ s, s <:+: source ∧ Spelling t s := by
  induction h with
  | done blanks blank => cases among
  | @more blanks s after t ts blank spelling next rest ih =>
    rcases List.mem_cons.1 among with rfl | later
    · exact ⟨s, ⟨blanks, after, List.append_assoc _ _ _⟩, spelling⟩
    · obtain ⟨s', inside, spelling'⟩ := ih later
      refine ⟨s', inside.trans ?_, spelling'⟩
      rw [← List.append_assoc]
      exact (List.suffix_append _ _).isInfix

end Token

/-! ## Operands -/

/-- The leaf that a token becomes in a syntax tree, if it is an operand. -/
def Token.leaf? : Token → Option Expression
  | .field path => some (.field path)
  | .text s => some (.text s)
  | .number n => some (.literal (Expression.ofNumber n))
  | .true => some (.literal (.bool Bool.true))
  | .false => some (.literal (.bool Bool.false))
  | .null => some (.literal .null)
  | _ => none

/-- The leaves of a syntax tree, from the left. -/
def Expression.leaves : Expression → List Expression
  | field path => [field path]
  | text s => [text s]
  | literal v => [literal v]
  | not e => e.leaves
  | and l r => l.leaves ++ r.leaves
  | or l r => l.leaves ++ r.leaves
  | compare l _ r => l.leaves ++ r.leaves

theorem Leaf.leaves_tree (l : Leaf) : l.tree.leaves = [l.token].filterMap Token.leaf? := by
  cases l with
  | number n => cases n <;> rfl
  | _ => rfl

/-- No operand of a phrase is lost, and none comes from elsewhere. -/
theorem Phrase.leaves_tree {k : Category} (p : Phrase k) :
    p.tree.leaves = p.tokens.filterMap Token.leaf? := by
  induction p with
  | leaf l => exact l.leaves_tree
  | alone p ih | plain p ih | conjunct p ih | disjunct p ih => exact ih
  | group p ih =>
    rw [tokens, List.filterMap_cons_none rfl, List.filterMap_append, ← ih]
    exact (List.append_nil _).symm
  | negated p ih => exact ih
  | related l r q ihl ihr | both l r ihl ihr | either l r ihl ihr =>
    rw [tokens, List.filterMap_append, List.filterMap_cons_none rfl, ← ihl, ← ihr]
    rfl

/-! ## Numerals among them -/

namespace Expression

variable {s : List Char} {n : Binary64.Rounded} {source : String} {e : Expression}

/-- What a numeral is worth as an operand. -/
structure Worth (s : List Char) (v : Json) : Prop where
  number_iff : (∃ x, v = .number (.float x)) ↔ Decimal.Fits s
  null_iff : v = .null ↔ ¬ Decimal.Fits s
  equal_null_iff : relates .equal v .null = true ↔ ¬ Decimal.Fits s
  null_equal_iff : relates .equal .null v = true ↔ ¬ Decimal.Fits s
  falsy_iff : isTruthy (some v) = false ↔ Decimal.Vanishes s ∨ ¬ Decimal.Fits s

theorem worth_ofNumber (h : Token.Spelling (.number n) s) : Worth s (ofNumber n) := by
  cases h.roundsAs with
  | @finite x below zero =>
    have fits : Decimal.Fits s := below
    have differs : relates .equal (.number (.float x)) .null = false := rfl
    have differs' : relates .equal .null (.number (.float x)) = false := rfl
    have falsy : isTruthy (some (.number (.float x))) = false ↔ x.isZero = true :=
      Iff.of_eq (Bool.not_eq_false' _)
    exact {
      number_iff := iff_of_true ⟨x, rfl⟩ fits
      null_iff := iff_of_false nofun (not_not_intro fits)
      equal_null_iff := iff_of_false (Bool.eq_false_iff.1 differs) (not_not_intro fits)
      null_equal_iff := iff_of_false (Bool.eq_false_iff.1 differs') (not_not_intro fits)
      falsy_iff := falsy.trans (zero.trans (or_iff_left (not_not_intro fits)).symm) }
  | infinite above =>
    have vast : ¬ Decimal.Fits s := Nat.not_lt.2 above
    exact {
      number_iff := iff_of_false nofun vast
      null_iff := iff_of_true rfl vast
      equal_null_iff := iff_of_true rfl vast
      null_equal_iff := iff_of_true rfl vast
      falsy_iff := iff_of_true rfl (.inr vast) }

theorem parse_eq_ofTokens {ts : List Token} (scanned : Token.scan source.toList = .ok ts) :
    parse source = ofTokens ts := by
  unfold parse
  rw [scanned]

/-- The leaves of an expression are the operands among the tokens of its source. Every numeral
among them that is below what is beyond every double becomes a JSON number, equal to nothing that
is `null` and false only if it is rounded to zero; every other numeral becomes `null`. A leaf that
is `null` comes from the word or from such a numeral. -/
theorem literals_of_parse (parsed : parse source = .ok e) :
    ∃ ts, Token.scan source.toList = .ok ts ∧ e.leaves = ts.filterMap Token.leaf? ∧
      (∀ n, .number n ∈ ts → ∃ s, s <:+: source.toList ∧ Token.Spelling (.number n) s ∧
        Worth s (ofNumber n)) ∧
      ∀ t ∈ ts, t.leaf? = some (.literal .null) → t = .null ∨
        ∃ s, s <:+: source.toList ∧ Token.Spelling t s ∧ ¬ Decimal.Fits s := by
  unfold parse at parsed
  split at parsed
  · next ts scanned =>
    have spelled := Token.spelled_of_scanFrom (Nat.le_refl _) scanned
    obtain ⟨-, -, p, rfl, -, rfl⟩ := ofTokens_eq_ok_iff.1 parsed
    have numeral (n) (among : .number n ∈ p.tokens) :
        ∃ s, s <:+: source.toList ∧ Token.Spelling (.number n) s ∧ Worth s (ofNumber n) := by
      obtain ⟨s, inside, spelling⟩ := Token.exists_spelling spelled among
      exact ⟨s, inside, spelling, worth_ofNumber spelling⟩
    refine ⟨_, scanned, p.leaves_tree, numeral, fun t among null => ?_⟩
    cases t with
    | null => exact .inl rfl
    | number n =>
      obtain ⟨s, inside, spelling, worth⟩ := numeral n among
      have same : ofNumber n = .null := by
        injection null with null
        injection null
      exact .inr ⟨s, inside, spelling, worth.null_iff.1 same⟩
    | _ => cases null
  · cases parsed

/-- A numeral of 310 digits. -/
def nines : List Char := List.replicate 310 '9'

/-- A source that compares the numeral with `null`. -/
def vast : String := String.ofList (nines ++ " == null || 0.5".toList)

theorem scan_vast : Token.scan vast.toList = .ok
    [.number (.infinite false), .relation .equal, .null, .or,
      .number (.finite ⟨false, 0x3FE0000000000000, by decide⟩)] := by
  rw [vast, String.toList_ofList]
  decide +kernel

/-- The numeral is equal to `null`. -/
theorem literals_of_parse_vast :
    let half := Json.number (.float ⟨false, 0x3FE0000000000000, by decide⟩)
    let e := Expression.or (.compare (.literal .null) .equal (.literal .null)) (.literal half)
    parse vast = .ok e ∧ ¬ Decimal.Fits nines ∧ e.holds .null = true ∧
      ∃ ts, Token.scan vast.toList = .ok ts ∧
        [.literal .null, .literal .null, .literal half] = ts.filterMap Token.leaf? := by
  intro half e
  have parsed : parse vast = .ok e := (parse_eq_ofTokens scan_vast).trans rfl
  have beyond : ¬ Decimal.Fits nines := by
    unfold Decimal.Fits Binary64.beyond
    decide +kernel
  obtain ⟨ts, scanned, leaves, -⟩ := literals_of_parse parsed
  exact ⟨parsed, beyond, rfl, ts, scanned, leaves⟩

end Expression

end EventFlow
