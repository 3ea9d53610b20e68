import EventFlow.Condition.Evaluate
import EventFlow.Proofs.Condition.Grammar

/-!
# The parser reads the grammar

`Expression.parserOf n k` is the part of the parser that reads phrases of a kind whose tokens lie at
most `n` levels deep. What it reads is such a phrase (`sound_parserOf`), and it reads every such
phrase up to its end (`parserOf_tokens`). So a source has an expression exactly if its tokens denote
one, and no tokens have two syntax trees (`parse_eq_ok_iff_of_scan`). The parser is the one of
`EventFlow.Condition.Expression`, from `Expression.primary` up to `Expression.chain`.
-/

set_option autoImplicit false

namespace EventFlow.Expression

variable {n : Nat} {j k : Category}

/-- The parser of phrases of a kind, inside of which so many levels may open. -/
def parserOf (n : Nat) : Category → Parser
  | .operand => primary (level n).2
  | .comparison => comparison (primary (level n).2)
  | .negation => (level (n + 1)).1
  | .conjunction => chain .and .and (level (n + 1)).1
  | .disjunction => (level (n + 1)).2

/-- How phrases of one kind are chains of phrases of another: one operand, or a chain with one more
operand after the separator. -/
structure Chained (separator : Token) (join : Expression → Expression → Expression)
    (one : Phrase j → Phrase k) (more : Phrase k → Phrase j → Phrase k) : Prop where
  tokens_one (p : Phrase j) : (one p).tokens = p.tokens
  tree_one (p : Phrase j) : (one p).tree = p.tree
  within_one (n : Nat) (p : Phrase j) : (one p).Within n ↔ p.Within n
  tokens_more (l : Phrase k) (r : Phrase j) : (more l r).tokens = l.tokens ++ separator :: r.tokens
  tree_more (l : Phrase k) (r : Phrase j) : (more l r).tree = join l.tree r.tree
  within_more (n : Nat) (l : Phrase k) (r : Phrase j) :
    (more l r).Within n ↔ l.Within n ∧ r.Within n

theorem chained_conjunction : Chained .and .and .conjunct .both :=
  ⟨fun _ => rfl, fun _ => rfl, fun _ _ => Phrase.within_conjunct, fun _ _ => rfl, fun _ _ => rfl,
    fun _ _ _ => Phrase.within_both⟩

theorem chained_disjunction : Chained .or .or .disjunct .either :=
  ⟨fun _ => rfl, fun _ => rfl, fun _ _ => Phrase.within_disjunct, fun _ _ => rfl, fun _ _ => rfl,
    fun _ _ _ => Phrase.within_either⟩

/-! ## What is read is a phrase -/

/-- Whatever a parser reads is a phrase of some kind, and fits. -/
def Sound (k : Category) (fits : Phrase k → Prop) (parser : Parser) : Prop :=
  ∀ ts e after, parser ts = .ok (e, after) →
    ∃ p : Phrase k, p.tokens ++ after = ts ∧ p.tree = e ∧ fits p

/-- A phrase may stand inside one more level. -/
def Below (n : Nat) (p : Phrase k) : Prop := ∃ m, n = m + 1 ∧ p.Within m

theorem sound_primary {inside : Parser} (h : Sound .disjunction (Below n) inside) :
    Sound .operand (Phrase.Within n) (primary inside) := by
  have leaf (l : Leaf) (ts : List Token) (e : Expression) (after : List Token)
      (hts : l.token :: after = ts) (he : l.tree = e) :
      ∃ p : Phrase .operand, p.tokens ++ after = ts ∧ p.tree = e ∧ p.Within n :=
    ⟨.leaf l, hts, he, Phrase.within_leaf n l⟩
  intro ts e after parsed
  unfold primary at parsed
  split at parsed
  · next rest =>
    split at parsed
    · next inner later hinside =>
      cases parsed
      obtain ⟨p, rfl, rfl, below⟩ := h _ _ _ hinside
      exact ⟨.group p, by simp [Phrase.tokens], rfl, Phrase.within_group.2 below⟩
    · cases parsed
    · cases parsed
  · cases parsed; exact leaf (.field _) _ _ _ rfl rfl
  · cases parsed; exact leaf (.text _) _ _ _ rfl rfl
  · next number _ =>
    cases parsed
    exact leaf (.number number) _ _ _ rfl (by cases number <;> rfl)
  · cases parsed; exact leaf .true _ _ _ rfl rfl
  · cases parsed; exact leaf .false _ _ _ rfl rfl
  · cases parsed; exact leaf .null _ _ _ rfl rfl
  · cases parsed
  · cases parsed

theorem sound_comparison {operand : Parser}
    (h : Sound .operand (Phrase.Within n) operand) :
    Sound .comparison (Phrase.Within n) (comparison operand) := by
  intro ts e after parsed
  unfold comparison at parsed
  split at parsed
  · next left r rest hleft =>
    obtain ⟨l, rfl, rfl, within_l⟩ := h _ _ _ hleft
    split at parsed
    · next right later hright =>
      cases parsed
      obtain ⟨q, rfl, rfl, within_q⟩ := h _ _ _ hright
      exact ⟨.related l r q, by simp [Phrase.tokens], rfl,
        Phrase.within_related.2 ⟨within_l, within_q⟩⟩
    · cases parsed
  · obtain ⟨p, hts, he, within⟩ := h _ _ _ parsed
    exact ⟨.alone p, hts, he, Phrase.within_alone.2 within⟩

theorem sound_negation {negated compared : Parser}
    (hn : Sound .negation (Below n) negated)
    (hc : Sound .comparison (Phrase.Within n) compared) :
    Sound .negation (Phrase.Within n) (negation negated compared) := by
  intro ts e after parsed
  unfold negation at parsed
  split at parsed
  · split at parsed
    · next inner later hinner =>
      cases parsed
      obtain ⟨p, rfl, rfl, below⟩ := hn _ _ _ hinner
      exact ⟨.negated p, rfl, rfl, Phrase.within_negated.2 below⟩
    · cases parsed
  · obtain ⟨p, hts, he, within⟩ := hc _ _ _ parsed
    exact ⟨.plain p, hts, he, Phrase.within_plain.2 within⟩

section Chain

variable {separator : Token} {join : Expression → Expression → Expression}
variable {one : Phrase j → Phrase k} {more : Phrase k → Phrase j → Phrase k} {operand : Parser}

/-- A chain that is read so far stays a chain when more operands are read. -/
theorem sound_chainFrom (chained : Chained separator join one more)
    (h : Sound j (Phrase.Within n) operand) (fuel : Nat) {l : Phrase k} (within_l : l.Within n)
    {ts : List Token} {e : Expression} {after : List Token}
    (parsed : chainFrom separator join operand fuel l.tree ts = .ok (e, after)) :
    ∃ p : Phrase k, p.tokens ++ after = l.tokens ++ ts ∧ p.tree = e ∧ p.Within n := by
  induction fuel generalizing l ts with
  | zero =>
    cases parsed
    exact ⟨l, rfl, rfl, within_l⟩
  | succ fuel ih =>
    cases ts with
    | nil =>
      cases parsed
      exact ⟨l, rfl, rfl, within_l⟩
    | cons t ts =>
      unfold chainFrom at parsed
      split at parsed
      · next same =>
        split at parsed
        · next right later hright =>
          obtain ⟨r, rfl, rfl, within_r⟩ := h _ _ _ hright
          rw [← chained.tree_more] at parsed
          obtain ⟨p, htokens, rest⟩ :=
            ih ((chained.within_more n l r).2 ⟨within_l, within_r⟩) parsed
          exact ⟨p, by simp [htokens, chained.tokens_more, same], rest⟩
        · cases parsed
      · cases parsed
        exact ⟨l, rfl, rfl, within_l⟩

theorem sound_chain (chained : Chained separator join one more)
    (h : Sound j (Phrase.Within n) operand) :
    Sound k (Phrase.Within n) (chain separator join operand) := by
  intro ts e after parsed
  unfold chain at parsed
  split at parsed
  · next left rest hleft =>
    obtain ⟨l, rfl, rfl, within⟩ := h _ _ _ hleft
    rw [← chained.tree_one, ← chained.tokens_one] at *
    exact sound_chainFrom chained h _ ((chained.within_one n l).2 within) parsed
  · cases parsed

end Chain

/-- What the parser of a kind reads is a phrase of the kind. -/
theorem sound_parserOf (n : Nat) (k : Category) :
    Sound k (Phrase.Within n) (parserOf n k) := by
  induction n generalizing k with
  | zero =>
    have nothing (k : Category) : Sound k (Below 0) fun _ => .error .tooDeep :=
      fun _ _ _ parsed => nomatch parsed
    have operand := sound_primary (nothing .disjunction)
    have compared := sound_comparison operand
    have negated := sound_negation (nothing .negation) compared
    have joined := sound_chain chained_conjunction negated
    cases k with
    | operand => exact operand
    | comparison => exact compared
    | negation => exact negated
    | conjunction => exact joined
    | disjunction => exact sound_chain chained_disjunction joined
  | succ n ih =>
    have deeper (k : Category) : Sound k (Below (n + 1)) (parserOf n k) := by
      intro ts e after parsed
      obtain ⟨p, hts, he, within⟩ := ih k ts e after parsed
      exact ⟨p, hts, he, n, rfl, within⟩
    have operand := sound_primary (deeper .disjunction)
    have compared := sound_comparison operand
    have negated := sound_negation (deeper .negation) compared
    have joined := sound_chain chained_conjunction negated
    cases k with
    | operand => exact operand
    | comparison => exact compared
    | negation => exact negated
    | conjunction => exact joined
    | disjunction => exact sound_chain chained_disjunction joined

/-! ## Every phrase is read -/

/-- What follows a phrase of a kind does not make it longer. -/
def Ends : Category → List Token → Prop
  | .operand, _ => True
  | .comparison, rest => ∀ r, rest.head? ≠ some (.relation r)
  | .negation, rest => ∀ r, rest.head? ≠ some (.relation r)
  | .conjunction, rest => (∀ r, rest.head? ≠ some (.relation r)) ∧ rest.head? ≠ some .and
  | .disjunction, rest =>
    (∀ r, rest.head? ≠ some (.relation r)) ∧ rest.head? ≠ some .and ∧ rest.head? ≠ some .or

theorem ends_nil (k : Category) : Ends k [] := by
  cases k <;> simp [Ends]

theorem chainFrom_of_ends {separator : Token} (join : Expression → Expression → Expression)
    (operand : Parser) (fuel : Nat) (left : Expression) {rest : List Token}
    (h : rest.head? ≠ some separator) :
    chainFrom separator join operand fuel left rest = .ok (left, rest) := by
  cases fuel with
  | zero => rfl
  | succ fuel =>
    cases rest with
    | nil => rfl
    | cons t rest =>
      have other : t ≠ separator := by simpa using h
      simp [chainFrom, other]

/-- A phrase without operators does not start with a negation. -/
theorem exists_head (p : Phrase .comparison) : ∃ t ts, p.tokens = t :: ts ∧ t ≠ .not := by
  have operand (q : Phrase .operand) : ∃ t ts, q.tokens = t :: ts ∧ t ≠ .not := by
    cases q with
    | leaf l => exact ⟨l.token, [], rfl, by cases l <;> simp [Leaf.token]⟩
    | group p => exact ⟨.leftParen, _, rfl, by simp⟩
  cases p with
  | alone q => exact operand q
  | related l r q =>
    obtain ⟨t, ts, hl, ht⟩ := operand l
    exact ⟨t, _, by simp only [Phrase.tokens, hl]; rfl, ht⟩

/-- What reading a phrase comes to, whatever follows it. A chain is read up to its last operand, and
from there on as long as there are more: only what follows decides where it ends. -/
def IsRead (n : Nat) : (k : Category) → Phrase k → Prop
  | .conjunction, p => ∀ rest, Ends .negation rest → ∃ fuel, rest.length ≤ fuel ∧
    parserOf n .conjunction (p.tokens ++ rest) =
      chainFrom .and .and (parserOf n .negation) fuel p.tree rest
  | .disjunction, p => ∀ rest, Ends .conjunction rest → ∃ fuel, rest.length ≤ fuel ∧
    parserOf n .disjunction (p.tokens ++ rest) =
      chainFrom .or .or (parserOf n .conjunction) fuel p.tree rest
  | k, p => ∀ rest, Ends k rest → parserOf n k (p.tokens ++ rest) = .ok (p.tree, rest)

theorem IsRead.to_end {p : Phrase k} (h : IsRead n k p) {rest : List Token} (ends : Ends k rest) :
    parserOf n k (p.tokens ++ rest) = .ok (p.tree, rest) := by
  cases k with
  | operand => exact h rest ends
  | comparison => exact h rest ends
  | negation => exact h rest ends
  | conjunction =>
    obtain ⟨fuel, _, hread⟩ := h rest ends.1
    rw [hread, chainFrom_of_ends _ _ _ _ ends.2]
  | disjunction =>
    obtain ⟨fuel, _, hread⟩ := h rest ⟨ends.1, ends.2.1⟩
    rw [hread, chainFrom_of_ends _ _ _ _ ends.2.2]

/-- One more operand of a chain is read. -/
theorem chainFrom_step {separator : Token} (join : Expression → Expression → Expression)
    {operand : Parser} {fuel : Nat} (left : Expression) {right : Expression} {ts rest : List Token}
    (enough : (separator :: (ts ++ rest)).length ≤ fuel)
    (hright : operand (ts ++ rest) = .ok (right, rest)) :
    ∃ less, rest.length ≤ less ∧
      chainFrom separator join operand fuel left (separator :: (ts ++ rest)) =
        chainFrom separator join operand less (join left right) rest := by
  cases fuel with
  | zero => simp at enough
  | succ fuel =>
    refine ⟨fuel, ?_, by simp [chainFrom, hright]⟩
    simp only [List.length_cons, List.length_append] at enough
    omega

theorem isRead_of_within (p : Phrase k) (within : p.Within n) : IsRead n k p := by
  -- Levels open inside the phrase, so the induction is over phrases, for every number of levels.
  induction p generalizing n with
  | leaf l =>
    intro rest _
    cases l with
    | number x => cases x <;> rfl
    | _ => rfl
  | group p ih =>
    intro rest _
    obtain ⟨m, rfl, within_m⟩ := Phrase.within_group.1 within
    have inside : (level (m + 1)).2 (p.tokens ++ .rightParen :: rest) =
        .ok (p.tree, .rightParen :: rest) := (ih within_m).to_end (by simp [Ends])
    simp [parserOf, primary, Phrase.tokens, Phrase.tree, inside]
  | alone p ih =>
    intro rest ends
    have operand : primary (level n).2 (p.tokens ++ rest) = .ok (p.tree, rest) :=
      (ih within).to_end trivial
    change comparison (primary (level n).2) (p.tokens ++ rest) = .ok (p.tree, rest)
    unfold comparison
    split
    · next r more hmore =>
      rw [operand] at hmore
      cases hmore
      exact absurd rfl (ends r)
    · exact operand
  | related l r q ihl ihq =>
    intro rest _
    obtain ⟨within_l, within_q⟩ := Phrase.within_related.1 within
    have left : primary (level n).2 (l.tokens ++ .relation r :: (q.tokens ++ rest)) =
        .ok (l.tree, .relation r :: (q.tokens ++ rest)) := (ihl within_l).to_end trivial
    have right : primary (level n).2 (q.tokens ++ rest) = .ok (q.tree, rest) :=
      (ihq within_q).to_end trivial
    simp [parserOf, comparison, Phrase.tokens, Phrase.tree, left, right]
  | plain p ih =>
    intro rest ends
    have compared := (ih within).to_end ends
    obtain ⟨t, ts, htokens, ht⟩ := exists_head p
    change negation (level n).1 (parserOf n .comparison) (p.tokens ++ rest) = .ok (p.tree, rest)
    rw [htokens, List.cons_append] at compared ⊢
    unfold negation
    split
    · next h => exact absurd (List.cons.inj h).1 ht
    · exact compared
  | negated p ih =>
    intro rest ends
    obtain ⟨m, rfl, within_m⟩ := Phrase.within_negated.1 within
    have inner : (level (m + 1)).1 (p.tokens ++ rest) = .ok (p.tree, rest) :=
      (ih within_m).to_end ends
    change negation (level (m + 1)).1 (parserOf (m + 1) .comparison)
      (.not :: (p.tokens ++ rest)) = _
    simp [negation, inner, Phrase.tree]
  | conjunct p ih =>
    intro rest ends
    have operand := (ih within).to_end ends
    refine ⟨rest.length, Nat.le_refl _, ?_⟩
    change chain .and .and (parserOf n .negation) (p.tokens ++ rest) = _
    simp [chain, operand, Phrase.tree]
  | both l r ihl ihr =>
    intro rest ends
    obtain ⟨within_l, within_r⟩ := Phrase.within_both.1 within
    obtain ⟨fuel, enough, chained⟩ := ihl within_l (.and :: (r.tokens ++ rest)) (by simp [Ends])
    obtain ⟨less, bound, step⟩ := chainFrom_step .and l.tree enough ((ihr within_r).to_end ends)
    refine ⟨less, bound, ?_⟩
    simpa [Phrase.tokens, Phrase.tree] using chained.trans step
  | disjunct p ih =>
    intro rest ends
    have operand := (ih within).to_end ends
    refine ⟨rest.length, Nat.le_refl _, ?_⟩
    change chain .or .or (parserOf n .conjunction) (p.tokens ++ rest) = _
    simp [chain, operand, Phrase.tree]
  | either l r ihl ihr =>
    intro rest ends
    obtain ⟨within_l, within_r⟩ := Phrase.within_either.1 within
    obtain ⟨fuel, enough, chained⟩ := ihl within_l (.or :: (r.tokens ++ rest)) (by simp [Ends])
    obtain ⟨less, bound, step⟩ := chainFrom_step .or l.tree enough ((ihr within_r).to_end ends)
    refine ⟨less, bound, ?_⟩
    simpa [Phrase.tokens, Phrase.tree] using chained.trans step

/-- Every phrase that is not nested too deep is read up to its end. -/
theorem parserOf_tokens (p : Phrase k) (within : p.Within n) {rest : List Token}
    (ends : Ends k rest) : parserOf n k (p.tokens ++ rest) = .ok (p.tree, rest) :=
  (isRead_of_within p within).to_end ends

/-! ## Expressions -/

/-- No tokens have two syntax trees, however deep they are nested. -/
theorem tree_eq_of_tokens_eq {p q : Phrase k} (same : p.tokens = q.tokens) : p.tree = q.tree := by
  obtain ⟨m, hp⟩ := p.exists_within
  obtain ⟨n, hq⟩ := q.exists_within
  have read_p := parserOf_tokens p (hp.mono (Nat.le_max_left m n)) (ends_nil k)
  have read_q := parserOf_tokens q (hq.mono (Nat.le_max_right m n)) (ends_nil k)
  rw [same, read_q] at read_p
  exact ((Prod.mk.inj (Except.ok.inj read_p)).1).symm

theorem whole_eq_parserOf : whole = parserOf 64 .disjunction := rfl

/-- The tokens of a source have an expression exactly if they denote one. -/
theorem ofTokens_eq_ok_iff {ts : List Token} {e : Expression} :
    ofTokens ts = .ok e ↔ Denotes ts e := by
  constructor
  · intro parsed
    unfold ofTokens at parsed
    split at parsed
    · cases parsed
    · next some_token =>
      split at parsed
      · cases parsed
      · next short =>
        split at parsed
        · next hwhole =>
          cases parsed
          rw [whole_eq_parserOf] at hwhole
          obtain ⟨p, htokens, htree, within⟩ := sound_parserOf 64 .disjunction _ _ _ hwhole
          rw [List.append_nil] at htokens
          have long := List.length_pos_iff.2 p.tokens_ne_nil
          rw [htokens] at long
          exact ⟨long, Nat.not_lt.1 short, p, htokens, within, htree⟩
        · cases parsed
        · cases parsed
  · rintro ⟨_, short, p, rfl, within, rfl⟩
    have parsed := parserOf_tokens p within (ends_nil _)
    rw [List.append_nil] at parsed
    have some_token : p.tokens.isEmpty = false := by simpa using p.tokens_ne_nil
    have short : ¬ maxTokens < p.tokens.length := Nat.not_lt.2 short
    simp [ofTokens, some_token, short, whole_eq_parserOf, parsed]

/-- The parser accepts the grammar and nothing else, and the grammar is unambiguous: a source that
has tokens has an expression exactly if they denote it, any two derivations of them have one syntax
tree, and where they denote nothing, whoever evaluates the source is told that it is malformed. -/
theorem parse_eq_ok_iff_of_scan {source : String} {ts : List Token}
    (scanned : Token.scan source.toList = .ok ts) :
    (∀ e, parse source = .ok e ↔ Denotes ts e) ∧
      (∀ p q : Phrase .disjunction, p.tokens = ts → q.tokens = ts → p.tree = q.tree) ∧
      ((¬ ∃ e, Denotes ts e) → ∃ error, parse source = .error error ∧
        ∀ data, evaluateExpression source data = .error (.malformedExpression source error)) := by
  have accepts (e : Expression) : parse source = .ok e ↔ Denotes ts e := by
    rw [← ofTokens_eq_ok_iff]
    simp [parse, scanned]
  refine ⟨accepts, fun p q hp hq => tree_eq_of_tokens_eq (hp.trans hq.symm), ?_⟩
  intro nothing
  cases parsed : parse source with
  | ok e => exact absurd ⟨e, (accepts e).1 parsed⟩ nothing
  | error error => exact ⟨error, rfl, fun data => by simp [evaluateExpression, parsed]⟩

/-- A derivation with every kind of phrase: a negated group beside a comparison. -/
def sample : Phrase .disjunction :=
  .disjunct (.both
    (.conjunct (.negated (.plain (.alone (.group (.either
      (.disjunct (.conjunct (.plain (.alone (.leaf (.field "a"))))))
      (.conjunct (.plain (.alone (.leaf .true))))))))))
    (.plain (.related (.leaf (.field "b")) .contains (.leaf (.text "x")))))

theorem parse_eq_ok_iff_of_scan_sample :
    Token.scan "!({{a}} || true) && {{b}} contains 'x'".toList = .ok sample.tokens ∧
      parse "!({{a}} || true) && {{b}} contains 'x'" = .ok sample.tree := by
  have scanned :
      Token.scan "!({{a}} || true) && {{b}} contains 'x'".toList = .ok sample.tokens := by
    rfl
  exact ⟨scanned, ((parse_eq_ok_iff_of_scan scanned).1 sample.tree).2
    ⟨by decide, by decide, sample, rfl, by decide, rfl⟩⟩

end EventFlow.Expression
