import EventFlow.Condition.Expression

/-!
# The grammar of expressions

    disjunction := conjunction ("||" conjunction)*
    conjunction := negation ("&&" negation)*
    negation    := "!" negation | comparison
    comparison  := operand (relation operand)?
    operand     := "(" disjunction ")" | leaf

A `Phrase` is a derivation in this grammar. It knows the tokens it stands for (`Phrase.tokens`), in
how many negated operands and parentheses each of them lies (`Phrase.depths`), and the syntax tree
it means (`Phrase.tree`). `Expression.Denotes` puts the three together with the two bounds on the
size of an expression. It is the grammar of `Expression.ofTokens`, in
`EventFlow.Condition.Expression`.
-/

set_option autoImplicit false

namespace EventFlow

/-- The kinds of phrases, from the strongest binding to the weakest. -/
inductive Category where
  | operand
  | comparison
  | negation
  | conjunction
  | disjunction

/-- A token that is an operand by itself. -/
inductive Leaf where
  | field (path : String)
  | text (s : String)
  | number (n : Binary64.Rounded)
  | true
  | false
  | null

namespace Leaf

/-- The token of a leaf. -/
def token : Leaf → Token
  | field path => .field path
  | text s => .text s
  | number n => .number n
  | true => .true
  | false => .false
  | null => .null

/-- The syntax tree of a leaf. A number beyond every double is the literal `null`. -/
def tree : Leaf → Expression
  | field path => .field path
  | text s => .text s
  | number (.finite x) => .literal (.number (.float x))
  | number (.infinite _) => .literal .null
  | true => .literal (.bool Bool.true)
  | false => .literal (.bool Bool.false)
  | null => .literal .null

end Leaf

/-- A derivation. Operands with a separator between them are put together from the left: a longer
chain is a chain with one more operand. -/
inductive Phrase : Category → Type where
  | leaf (l : Leaf) : Phrase .operand
  | group (inside : Phrase .disjunction) : Phrase .operand
  | alone (p : Phrase .operand) : Phrase .comparison
  | related (left : Phrase .operand) (r : Relation) (right : Phrase .operand) : Phrase .comparison
  | plain (p : Phrase .comparison) : Phrase .negation
  | negated (p : Phrase .negation) : Phrase .negation
  | conjunct (p : Phrase .negation) : Phrase .conjunction
  | both (left : Phrase .conjunction) (right : Phrase .negation) : Phrase .conjunction
  | disjunct (p : Phrase .conjunction) : Phrase .disjunction
  | either (left : Phrase .disjunction) (right : Phrase .conjunction) : Phrase .disjunction

namespace Phrase

variable {k : Category}

/-- The tokens of a phrase. -/
def tokens : {k : Category} → Phrase k → List Token
  | _, leaf l => [l.token]
  | _, group p => .leftParen :: (p.tokens ++ [.rightParen])
  | _, alone p => p.tokens
  | _, related l r q => l.tokens ++ .relation r :: q.tokens
  | _, plain p => p.tokens
  | _, negated p => .not :: p.tokens
  | _, conjunct p => p.tokens
  | _, both l r => l.tokens ++ .and :: r.tokens
  | _, disjunct p => p.tokens
  | _, either l r => l.tokens ++ .or :: r.tokens

/-- For each token of a phrase, in how many negated operands and parentheses of the phrase it
lies. -/
def depths : {k : Category} → Phrase k → List Nat
  | _, leaf _ => [0]
  | _, group p => 0 :: (p.depths.map (· + 1) ++ [0])
  | _, alone p => p.depths
  | _, related l _ q => l.depths ++ 0 :: q.depths
  | _, plain p => p.depths
  | _, negated p => 0 :: p.depths.map (· + 1)
  | _, conjunct p => p.depths
  | _, both l r => l.depths ++ 0 :: r.depths
  | _, disjunct p => p.depths
  | _, either l r => l.depths ++ 0 :: r.depths

/-- The syntax tree of a phrase: parentheses leave no node. -/
def tree : {k : Category} → Phrase k → Expression
  | _, leaf l => l.tree
  | _, group p => p.tree
  | _, alone p => p.tree
  | _, related l r q => .compare l.tree r q.tree
  | _, plain p => p.tree
  | _, negated p => .not p.tree
  | _, conjunct p => p.tree
  | _, both l r => .and l.tree r.tree
  | _, disjunct p => p.tree
  | _, either l r => .or l.tree r.tree

/-- No token lies deeper than some level. -/
def Within (n : Nat) (p : Phrase k) : Prop := ∀ d ∈ p.depths, d ≤ n

/-- Each token of a phrase has a depth. -/
theorem length_depths (p : Phrase k) : p.depths.length = p.tokens.length := by
  induction p <;> simp_all [depths, tokens]

/-- No phrase is empty. -/
theorem tokens_ne_nil (p : Phrase k) : p.tokens ≠ [] := by
  induction p <;> simp_all [tokens]

/-- A phrase has tokens, and these have depths. -/
theorem exists_mem_depths (p : Phrase k) : ∃ d, d ∈ p.depths := by
  have h := List.length_pos_iff.2 p.tokens_ne_nil
  rw [← length_depths] at h
  exact ⟨_, List.getElem_mem h⟩

/-- A phrase fits into more levels if it fits into fewer. -/
theorem Within.mono {m n : Nat} {p : Phrase k} (h : p.Within m) (le : m ≤ n) : p.Within n :=
  fun d hd => Nat.le_trans (h d hd) le

@[simp] theorem within_leaf (n : Nat) (l : Leaf) : (leaf l).Within n :=
  List.forall_mem_singleton.2 (Nat.zero_le n)

/-- What is one level deeper needs one level more. -/
theorem within_map_succ {n : Nat} {p : Phrase k} :
    (∀ d ∈ p.depths.map (· + 1), d ≤ n) ↔ ∃ m, n = m + 1 ∧ p.Within m := by
  cases n with
  | zero =>
    obtain ⟨d, hd⟩ := p.exists_mem_depths
    constructor
    · intro h
      have := h (d + 1) (List.mem_map_of_mem hd)
      omega
    · rintro ⟨m, h, _⟩
      cases h
  | succ m => simp [Within]

/-- A token that lies in no phrase inside is not too deep. -/
theorem within_cons {n : Nat} {ds : List Nat} :
    (∀ d ∈ 0 :: ds, d ≤ n) ↔ ∀ d ∈ ds, d ≤ n := by
  simp

/-- Phrases with a token between them lie side by side. -/
theorem within_append {n : Nat} {ds es : List Nat} :
    (∀ d ∈ ds ++ 0 :: es, d ≤ n) ↔ (∀ d ∈ ds, d ≤ n) ∧ ∀ d ∈ es, d ≤ n := by
  simp [or_imp, forall_and]

/-- A group takes one level. -/
@[simp] theorem within_group {n : Nat} {p : Phrase .disjunction} :
    (group p).Within n ↔ ∃ m, n = m + 1 ∧ p.Within m := by
  rw [← within_map_succ]
  exact within_cons.trans (within_append.trans (and_iff_left nofun))

/-- A negation takes one level. -/
@[simp] theorem within_negated {n : Nat} {p : Phrase .negation} :
    (negated p).Within n ↔ ∃ m, n = m + 1 ∧ p.Within m := by
  rw [← within_map_succ]
  exact within_cons

@[simp] theorem within_alone {n : Nat} {p : Phrase .operand} :
    (alone p).Within n ↔ p.Within n := Iff.rfl

@[simp] theorem within_plain {n : Nat} {p : Phrase .comparison} :
    (plain p).Within n ↔ p.Within n := Iff.rfl

@[simp] theorem within_conjunct {n : Nat} {p : Phrase .negation} :
    (conjunct p).Within n ↔ p.Within n := Iff.rfl

@[simp] theorem within_disjunct {n : Nat} {p : Phrase .conjunction} :
    (disjunct p).Within n ↔ p.Within n := Iff.rfl

@[simp] theorem within_related {n : Nat} {l q : Phrase .operand} {r : Relation} :
    (related l r q).Within n ↔ l.Within n ∧ q.Within n :=
  within_append

@[simp] theorem within_both {n : Nat} {l : Phrase .conjunction} {r : Phrase .negation} :
    (both l r).Within n ↔ l.Within n ∧ r.Within n :=
  within_append

@[simp] theorem within_either {n : Nat} {l : Phrase .disjunction} {r : Phrase .conjunction} :
    (either l r).Within n ↔ l.Within n ∧ r.Within n :=
  within_append

/-- Every phrase fits into some number of levels. -/
theorem exists_within (p : Phrase k) : ∃ n, p.Within n := by
  induction p with
  | leaf l => exact ⟨0, within_leaf 0 l⟩
  | group p ih | negated p ih =>
    obtain ⟨n, h⟩ := ih
    exact ⟨n + 1, by simpa using h⟩
  | alone p ih | plain p ih | conjunct p ih | disjunct p ih => simpa using ih
  | related l r q ihl ihr | both l r ihl ihr | either l r ihl ihr =>
    obtain ⟨m, hl⟩ := ihl
    obtain ⟨n, hr⟩ := ihr
    exact ⟨max m n, by simpa using ⟨hl.mono (Nat.le_max_left m n), hr.mono (Nat.le_max_right m n)⟩⟩

end Phrase

/-- `Denotes ts e`: the tokens are an expression that is neither too long nor nested too deep, and
`e` is its syntax tree. -/
def Expression.Denotes (ts : List Token) (e : Expression) : Prop :=
  1 ≤ ts.length ∧ ts.length ≤ 4096 ∧
    ∃ p : Phrase .disjunction, p.tokens = ts ∧ (∀ d ∈ p.depths, d ≤ 64) ∧ p.tree = e

end EventFlow
