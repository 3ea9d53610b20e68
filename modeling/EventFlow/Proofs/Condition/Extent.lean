import EventFlow.Proofs.Condition.Descent

/-!
# The size of an expression

A syntax tree has no more nodes than its source has tokens (`Phrase.size_tree_le`), and on a way
from its root to a leaf there are no more negations than levels (`Phrase.countP_isNegation_le`). The
evaluator goes down such ways (`Expression.exists_way_of_isChain`). So neither the parser nor the
evaluator goes deeper than a fixed bound, whatever the source (`Expression.recursion_is_bounded`).
The two are `Expression.parse` and `Expression.eval`, in `EventFlow.Condition.Expression`.
-/

set_option autoImplicit false

namespace EventFlow

namespace Expression

/-! ## Trees -/

/-- The number of nodes of a syntax tree. -/
def size : Expression → Nat
  | not e => e.size + 1
  | and l r => l.size + r.size + 1
  | or l r => l.size + r.size + 1
  | compare l _ r => l.size + r.size + 1
  | _ => 1

/-- The expressions right below the root. -/
def operands : Expression → List Expression
  | not e => [e]
  | and l r => [l, r]
  | or l r => [l, r]
  | compare l _ r => [l, r]
  | _ => []

def isNegation : Expression → Bool
  | not _ => true
  | _ => false

/-- `Way e way`: from the root of `e` down to a leaf there are these nodes. -/
inductive Way : Expression → List Expression → Prop where
  | leaf {e : Expression} (last : e.operands = []) : Way e [e]
  | down {e x : Expression} {way : List Expression} (below : x ∈ e.operands) (rest : Way x way) :
      Way e (e :: way)

/-- `Evaluates data e x`: to evaluate `e`, its operand `x` is evaluated. The right operand of `&&`
and `||` is only if the left one does not decide. -/
inductive Evaluates (data : Json) : Expression → Expression → Prop where
  | not (e : Expression) : Evaluates data (.not e) e
  | andLeft (l r : Expression) : Evaluates data (.and l r) l
  | andRight (l r : Expression) (undecided : isTruthy (eval data l) = true) :
      Evaluates data (.and l r) r
  | orLeft (l r : Expression) : Evaluates data (.or l r) l
  | orRight (l r : Expression) (undecided : isTruthy (eval data l) = false) :
      Evaluates data (.or l r) r
  | compareLeft (l : Expression) (c : Relation) (r : Expression) :
      Evaluates data (.compare l c r) l
  | compareRight (l : Expression) (c : Relation) (r : Expression) :
      Evaluates data (.compare l c r) r

variable {e x : Expression} {way : List Expression} {data : Json}

theorem size_lt_of_mem_operands (h : x ∈ e.operands) : x.size < e.size := by
  cases e with
  | field path | text s | literal v => cases h
  | not e =>
    rw [List.mem_singleton.1 h]
    exact Nat.lt_succ_self _
  | and l r | or l r | compare l c r =>
    simp only [operands, List.mem_cons, List.not_mem_nil, or_false] at h
    rcases h with rfl | rfl <;> simp only [size] <;> omega

theorem size_pos (e : Expression) : 0 < e.size := by
  cases e <;> simp [size]

theorem Way.length_le_size (h : Way e way) : way.length ≤ e.size := by
  induction h with
  | @leaf e last => exact e.size_pos
  | down below rest ih =>
    have := size_lt_of_mem_operands below
    simp only [List.length_cons]
    omega

theorem exists_way (e : Expression) : ∃ way, Way e (e :: way) := by
  induction e with
  | field path | text s | literal v => exact ⟨[], .leaf rfl⟩
  | not e ih =>
    obtain ⟨way, h⟩ := ih
    exact ⟨_, .down (List.mem_singleton_self e) h⟩
  | and l r ih | or l r ih | compare l c r ih =>
    obtain ⟨way, h⟩ := ih
    exact ⟨_, .down List.mem_cons_self h⟩

theorem Evaluates.mem_operands (h : Evaluates data e x) : x ∈ e.operands := by
  cases h <;> simp [operands]

/-- Evaluations that are under way, each for the sake of the one before it, lie on a way down. -/
theorem exists_way_of_isChain {later : List Expression}
    (h : (e :: later).IsChain (Evaluates data)) : ∃ way, Way e way ∧ e :: later <+: way := by
  induction later generalizing e with
  | nil =>
    obtain ⟨way, down⟩ := exists_way e
    exact ⟨_, down, way, rfl⟩
  | cons x rest ih =>
    obtain ⟨first, others⟩ := List.isChain_cons_cons.1 h
    obtain ⟨way, down, front⟩ := ih others
    exact ⟨e :: way, .down first.mem_operands down, List.cons_prefix_cons.2 ⟨rfl, front⟩⟩

end Expression

/-! ## Phrases -/

namespace Phrase

open Expression

variable {k : Category}

/-- Every node comes from a token of its own. -/
theorem size_tree_le (p : Phrase k) : p.tree.size ≤ p.tokens.length := by
  induction p with
  | leaf l => cases l with
    | number n => cases n <;> exact le_rfl
    | _ => exact le_rfl
  | alone p ih | plain p ih | conjunct p ih | disjunct p ih => exact ih
  | group p ih =>
    simp only [tree, tokens, List.length_cons, List.length_append]
    omega
  | negated p ih => exact Nat.succ_le_succ ih
  | related l r q ihl ihr | both l r ihl ihr | either l r ihl ihr =>
    simp only [tree, tokens, size, List.length_cons, List.length_append]
    omega

/-- No more negations lie on a way to a leaf than its token has levels. -/
theorem countP_isNegation_le (p : Phrase k) {n : Nat} (within : p.Within n)
    {way : List Expression} (down : Way p.tree way) : way.countP isNegation ≤ n := by
  induction p generalizing n way with
  | leaf l =>
    have none : l.tree.operands = [] ∧ l.tree.isNegation = false := by
      cases l with
      | number x => cases x <;> exact ⟨rfl, rfl⟩
      | _ => exact ⟨rfl, rfl⟩
    cases down with
    | leaf last => simp [tree, none.2]
    | down below rest =>
      rw [tree, none.1] at below
      cases below
  | alone p ih | plain p ih | conjunct p ih | disjunct p ih => exact ih within down
  | group p ih =>
    obtain ⟨m, rfl, inner⟩ := within_group.1 within
    exact (ih inner down).trans (Nat.le_succ m)
  -- Only a negation counts, and it takes a level away.
  | negated p ih =>
    obtain ⟨m, rfl, inner⟩ := within_negated.1 within
    cases down with
    | leaf last => cases last
    | down below rest =>
      rw [List.mem_singleton.1 below] at rest
      rw [List.countP_cons_of_pos rfl]
      exact Nat.succ_le_succ (ih inner rest)
  | related l r q ihl ihr | both l r ihl ihr | either l r ihl ihr =>
    simp only [within_related, within_both, within_either] at within
    cases down with
    | leaf last => cases last
    | down below rest =>
      rw [List.countP_cons_of_neg Bool.false_ne_true]
      simp only [tree, operands, List.mem_cons, List.not_mem_nil, or_false] at below
      rcases below with rfl | rfl
      · exact ihl within.1 rest
      · exact ihr within.2 rest

end Phrase

/-! ## Sources -/

namespace Expression

variable {source : String}

/-- The syntax tree of a source is the tree of a phrase. -/
theorem exists_phrase_of_parse {e : Expression} (parsed : parse source = .ok e) :
    ∃ p : Phrase .disjunction, Token.scan source.toList = .ok p.tokens ∧
      p.tokens.length ≤ 4096 ∧ p.Within 64 ∧ p.tree = e := by
  cases scanned : Token.scan source.toList with
  | error error =>
    rw [parse, scanned] at parsed
    cases parsed
  | ok ts =>
    rw [parse_eq_ofTokens scanned] at parsed
    obtain ⟨-, short, p, rfl, within, tree⟩ := ofTokens_eq_ok_iff.1 parsed
    exact ⟨p, rfl, short, within, tree⟩

/-- While a source is parsed, no more than five activations are open on each of 65 levels, whether
it is accepted or not. A syntax tree has no more nodes than its source has tokens, so the
evaluations under way are never more than 4096, and no way down to a leaf has more than 64
negations. -/
theorem recursion_is_bounded (source : String) :
    (∀ ts, Token.scan source.toList = .ok ts →
      (∀ s, Descent.Reaches (.start ts) s → s.opened ≤ 325) ∧
      (ts ≠ [] → ts.length ≤ 4096 →
        ∃ last, Descent.Reaches (.start ts) last ∧ last.verdict? = some (parse source))) ∧
    ∀ e, parse source = .ok e →
      (∃ ts, Token.scan source.toList = .ok ts ∧ e.size ≤ ts.length) ∧
      (∀ way, Way e way → way.length ≤ 4096 ∧ way.countP isNegation ≤ 64) ∧
      ∀ data later, (e :: later).IsChain (Evaluates data) → (e :: later).length ≤ 4096 := by
  constructor
  · intro ts scanned
    constructor
    · intro s path
      exact Descent.opened_le_of_reaches path
    · intro some_token short
      rw [parse_eq_ofTokens scanned]
      exact Descent.exists_verdict some_token short
  · intro e parsed
    obtain ⟨p, scanned, short, within, rfl⟩ := exists_phrase_of_parse parsed
    have small : p.tree.size ≤ 4096 := p.size_tree_le.trans short
    refine ⟨⟨_, scanned, p.size_tree_le⟩, ?_, ?_⟩
    · intro way down
      exact ⟨down.length_le_size.trans small, p.countP_isNegation_le within down⟩
    · intro data later chain
      obtain ⟨way, down, front⟩ := exists_way_of_isChain chain
      exact front.length_le.trans (down.length_le_size.trans small)

/-- As many groups as there may be, one inside the other. -/
def pitText : List Char :=
  List.replicate 64 '(' ++ "{{a}} && null".toList ++ List.replicate 64 ')'

def pit : String := String.ofList pitText

def pitTokens : List Token :=
  List.replicate 64 .leftParen ++ [.field "a", .and, .null] ++ List.replicate 64 .rightParen

theorem scan_pit : Token.scan pit.toList = .ok pitTokens := by
  rw [pit, String.toList_ofList]
  decide +kernel

/-- The bound on the activations is reached. -/
theorem recursion_is_bounded_pit :
    let e := Expression.and (.field "a") (.literal .null)
    (∃ s, Descent.Reaches (.start pitTokens) s ∧ s.opened = 325 ∧ s.opened ≤ 325) ∧
      (∃ last, Descent.Reaches (.start pitTokens) last ∧ last.verdict? = some (parse pit)) ∧
      parse pit = .ok e ∧ (∃ ts, Token.scan pit.toList = .ok ts ∧ e.size ≤ ts.length) ∧
      Way e [e, .literal .null] ∧ [e, .literal .null].countP isNegation ≤ 64 ∧
      [e, .field "a"].IsChain (Evaluates .null) ∧ [e, .field "a"].length ≤ 4096 := by
  intro e
  have parsed : parse pit = .ok e := by
    rw [parse_eq_ofTokens scan_pit]
    decide +kernel
  have down : Way e [e, .literal .null] := .down (by decide) (.leaf rfl)
  have chain : [e, .field "a"].IsChain (Evaluates .null) := by
    simpa using Evaluates.andLeft (.field "a") (.literal .null)
  obtain ⟨reading, tree⟩ := recursion_is_bounded pit
  obtain ⟨open_le, ends⟩ := reading pitTokens scan_pit
  obtain ⟨small, ways, evaluations⟩ := tree e parsed
  have path : Descent.Reaches (.start pitTokens) (Descent.after 324 (.start pitTokens)) :=
    Descent.reaches_after 324 _
  have full : (Descent.after 324 (.start pitTokens)).opened = 325 := by decide +kernel
  have verdict := ends (by decide +kernel) (by decide +kernel)
  exact ⟨⟨_, path, full, open_le _ path⟩, verdict, parsed, small, down, (ways _ down).2, chain,
    evaluations _ _ chain⟩

end Expression

end EventFlow
