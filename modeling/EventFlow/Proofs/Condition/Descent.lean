import EventFlow.Proofs.Condition.Leaves
import Mathlib.Logic.Relation

/-!
# The parser as recursive descent

The parser has a function for every kind of phrase, and each of them calls the function of a kind
that binds stronger, or of a weaker one inside a group. `Descent.step` takes it through its calls
one after the other. The activations that wait for what they called are on a stack, and one counter
of the levels is raised where a group or a negated operand is entered and lowered where it is left.
Run to its end, the descent answers what `ofTokens` answers (`Descent.exists_verdict`).

The counter is the number of groups and negations that wait, and within a level a function only
calls one that binds stronger. So at most five activations are open on each of 65 levels
(`Descent.Nested.opened_le`). The parser is `Expression.ofTokens`, in
`EventFlow.Condition.Expression`.
-/

set_option autoImplicit false

open Relation (ReflTransGen)

namespace EventFlow.Expression

/-- An activation that waits for one that it called, with what it has read before. The function for
negations waits behind a `!` or for a plain comparison. -/
inductive Activation where
  | disjunction (left : Option Expression)
  | conjunction (left : Option Expression)
  | negated
  | plain
  | comparison (left : Option (Expression × Relation))
  | group

/-- Whether a function was just called or an activation is just over. -/
inductive Control where
  | call (k : Category)
  | answer (result : Except SyntaxError Expression)

/-- A state of the parser. The innermost of the activations that wait is the first. -/
structure Descent where
  control : Control
  waiting : List Activation
  tokens : List Token
  depth : Nat

namespace Descent

/-! ## Steps -/

/-- The parser is called for a list of tokens. -/
def start (tokens : List Token) : Descent := ⟨.call .disjunction, [], tokens, 0⟩

/-- How many activations are open: those that wait and the one that was called. -/
def opened (s : Descent) : Nat :=
  match s.control with
  | .call _ => s.waiting.length + 1
  | .answer _ => s.waiting.length

/-- The activation that was called is over. -/
def answer (result : Except SyntaxError Expression) (s : Descent) : Descent :=
  { s with control := .answer result }

/-- The activation that was called waits for another one. -/
def call (a : Activation) (k : Category) (s : Descent) : Descent :=
  { s with control := .call k, waiting := a :: s.waiting }

/-- A call one level deeper, if that is not too deep. -/
def descend (a : Activation) (k : Category) (s : Descent) : Descent :=
  if maxNesting < s.depth + 1 then { s with depth := s.depth + 1 }.answer (.error .tooDeep)
  else { s with depth := s.depth + 1 }.call a k

/-- The end of a level. -/
def ascend (s : Descent) : Descent := { s with depth := s.depth - 1 }

/-- What a function does when it is called. -/
def enter (s : Descent) : Category → Descent
  | .disjunction => s.call (.disjunction none) .conjunction
  | .conjunction => s.call (.conjunction none) .negation
  | .negation =>
    match s.tokens with
    | .not :: rest => { s with tokens := rest }.descend .negated .negation
    | _ => s.call .plain .comparison
  | .comparison => s.call (.comparison none) .operand
  | .operand =>
    match s.tokens with
    | .leftParen :: rest => { s with tokens := rest }.descend .group .disjunction
    | token :: rest =>
      match token.leaf? with
      | some e => { s with tokens := rest }.answer (.ok e)
      | none => { s with tokens := rest }.answer (.error (.unexpectedToken token))
    | [] => s.answer (.error .unexpectedEnd)

/-- A chain that is read so far goes on if its separator follows. -/
def extend (separator : Token) (a : Option Expression → Activation) (k : Category)
    (e : Expression) (s : Descent) : Descent :=
  match s.tokens with
  | token :: rest =>
    if token = separator then { s with tokens := rest }.call (a (some e)) k else s.answer (.ok e)
  | [] => s.answer (.ok e)

/-- What an activation does with the expression that it waited for. -/
def resume (s : Descent) (e : Expression) : Activation → Descent
  | .disjunction left => s.extend .or .disjunction .conjunction (left.elim e (.or · e))
  | .conjunction left => s.extend .and .conjunction .negation (left.elim e (.and · e))
  | .negated => s.ascend.answer (.ok (.not e))
  | .plain => s.answer (.ok e)
  | .comparison none =>
    match s.tokens with
    | .relation r :: rest => { s with tokens := rest }.call (.comparison (some (e, r))) .operand
    | _ => s.answer (.ok e)
  | .comparison (some (left, r)) => s.answer (.ok (.compare left r e))
  | .group =>
    match s.tokens with
    | .rightParen :: rest => { s with tokens := rest }.ascend.answer (.ok e)
    | _ => s.ascend.answer (.error .missingParen)

/-- One step, if any activation is open. Whoever waits for an activation that fails, fails too. -/
def step (s : Descent) : Option Descent :=
  match s.control, s.waiting with
  | .call k, _ => some (s.enter k)
  | .answer _, [] => none
  | .answer (.ok e), a :: waiting => some ({ s with waiting := waiting }.resume e a)
  | .answer (.error _), _ :: waiting => some { s with waiting := waiting }

/-- Some steps lead from one state to another. -/
abbrev Reaches : Descent → Descent → Prop := ReflTransGen fun s t => s.step = some t

/-- The state after so many steps, or the last one if there are not so many. -/
def after : Nat → Descent → Descent
  | 0, s => s
  | n + 1, s =>
    match s.step with
    | some t => after n t
    | none => s

/-- What the descent is after a number of steps, it reaches. -/
theorem reaches_after (n : Nat) (s : Descent) : Reaches s (s.after n) := by
  induction n generalizing s with
  | zero => exact .refl
  | succ n ih =>
    unfold after
    split
    · next t next => exact .head next (ih t)
    · exact .refl

/-- The answer to the tokens as a whole when no activation is open: none of them may be left. -/
def verdict? : Descent → Option (Except SyntaxError Expression)
  | ⟨.answer (.ok e), [], [], _⟩ => some (.ok e)
  | ⟨.answer (.ok _), [], extra :: _, _⟩ => some (.error (.trailingToken extra))
  | ⟨.answer (.error error), [], _, _⟩ => some (.error error)
  | _ => none

/-! ## What the descent reads -/

variable {waiting : List Activation} {depth deeper n : Nat} {j k : Category} {a : Activation}
variable {s t : Descent} {r : Except SyntaxError (Expression × List Token)}

/-- The steps from a state come to the end of an activation that answers what a parser reads. -/
def Comes (waiting : List Activation) (depth : Nat) (s : Descent) :
    Except SyntaxError (Expression × List Token) → Prop
  | .ok (e, after) => Reaches s ⟨.answer (.ok e), waiting, after, depth⟩
  | .error error => ∃ after deep, Reaches s ⟨.answer (.error error), waiting, after, deep⟩

/-- What the descent comes to from a later place it comes to from an earlier one. -/
theorem Comes.of_reaches (path : Reaches s t) (h : Comes waiting depth t r) :
    Comes waiting depth s r := by
  cases r with
  | ok read => exact path.trans h
  | error error =>
    obtain ⟨after, deep, rest⟩ := h
    exact ⟨after, deep, path.trans rest⟩

/-- What the descent comes to after a step it came to before. -/
theorem Comes.of_step (first : s.step = some t) (h : Comes waiting depth t r) :
    Comes waiting depth s r :=
  h.of_reaches (.single first)

/-- An activation that waits fails with what it waited for, or goes on with its answer. -/
theorem Comes.returned {inner : Except SyntaxError (Expression × List Token)}
    (h : Comes (a :: waiting) deeper s inner)
    (fails : ∀ error, inner = .error error → r = .error error)
    (goesOn : ∀ e after, inner = .ok (e, after) →
      Comes waiting depth (resume ⟨.answer (.ok e), waiting, after, deeper⟩ e a) r) :
    Comes waiting depth s r := by
  cases inner with
  | error error =>
    rw [fails error rfl]
    obtain ⟨after, deep, path⟩ := h
    exact ⟨after, deep, path.tail rfl⟩
  | ok read =>
    obtain ⟨e, after⟩ := read
    exact (goesOn e after rfl).of_reaches (ReflTransGen.tail h rfl)

/-- A function, called on the level below which `n` more may open, reads what a parser reads. -/
def Follows (n : Nat) (k : Category) (parser : Parser) : Prop :=
  ∀ waiting tokens depth, depth + n = maxNesting →
    Comes waiting depth ⟨.call k, waiting, tokens, depth⟩ (parser tokens)

/-- A function, called one level deeper, reads what a parser reads. If that is too deep, the
activation that called it does not wait. -/
structure Opens (n : Nat) (a : Activation) (k : Category) (parser : Parser) : Prop where
  reads (s : Descent) {e : Expression} {after : List Token} : s.depth + n = maxNesting →
    parser s.tokens = .ok (e, after) →
      Comes (a :: s.waiting) (s.depth + 1) (s.descend a k) (.ok (e, after))
  fails (s : Descent) {error : SyntaxError} : s.depth + n = maxNesting →
    parser s.tokens = .error error → Comes s.waiting s.depth (s.descend a k) (.error error)

/-- With no level left nothing can be opened. -/
theorem opens_zero (a : Activation) (k : Category) : Opens 0 a k fun _ => .error .tooDeep where
  reads _ _ _ _ read := nomatch read
  fails s error deep failed := by
    cases failed
    have beyond : maxNesting < s.depth + 1 := by omega
    rw [descend, if_pos beyond]
    exact ⟨s.tokens, s.depth + 1, .refl⟩

/-- With one level more a parser can be opened that follows the descent one level deeper. -/
theorem opens_succ {parser : Parser} (h : Follows n k parser) (a : Activation) :
    Opens (n + 1) a k parser := by
  have enters (s : Descent) (deep : s.depth + (n + 1) = maxNesting) :
      Comes (a :: s.waiting) (s.depth + 1) (s.descend a k) (parser s.tokens) := by
    have within : ¬ maxNesting < s.depth + 1 := by omega
    rw [descend, if_neg within]
    exact h _ _ _ (by omega)
  constructor
  · intro s e after deep read
    rw [← read]
    exact enters s deep
  · intro s error deep failed
    refine (enters s deep).returned (fun _ again => ?_) fun _ _ read => ?_
    · rw [← failed, again]
    · cases failed.symm.trans read

/-- What called a function one level deeper fails with it, or goes on with its answer. -/
theorem Opens.returned {parser : Parser} (h : Opens n a k parser) (s : Descent)
    (deep : s.depth + n = maxNesting)
    (fails : ∀ error, parser s.tokens = .error error → r = .error error)
    (goesOn : ∀ e after, parser s.tokens = .ok (e, after) → Comes s.waiting s.depth
      (resume ⟨.answer (.ok e), s.waiting, after, s.depth + 1⟩ e a) r) :
    Comes s.waiting s.depth (s.descend a k) r := by
  cases read : parser s.tokens with
  | error error =>
    rw [fails error read]
    exact h.fails s deep read
  | ok result =>
    obtain ⟨e, after⟩ := result
    exact (goesOn e after read).of_reaches (ReflTransGen.tail (h.reads s deep read) rfl)

/-- The parser of operands follows the descent if that of groups does. -/
theorem follows_primary {inside : Parser} (h : Opens n .group .disjunction inside) :
    Follows n .operand (primary inside) := by
  intro waiting tokens depth deep
  refine Comes.of_step rfl ?_
  cases tokens with
  | nil => exact ⟨_, _, .refl⟩
  | cons token rest =>
    cases token with
    | leftParen =>
      refine h.returned ⟨.call .operand, waiting, rest, depth⟩ deep (fun error failed => ?_)
        fun e after read => ?_
      · simp only [primary, failed]
      · cases after with
        | nil =>
          simp only [primary, read]
          exact ⟨_, _, .refl⟩
        | cons token after =>
          cases token <;> simp only [primary, read]
          case rightParen => exact ReflTransGen.refl
          all_goals exact ⟨_, _, .refl⟩
    | rightParen | and | or | not | relation r => exact ⟨_, _, .refl⟩
    | field path | text s | number x | true | false | null => exact .refl

/-- The parser of comparisons follows it if that of operands does. -/
theorem follows_comparison {operand : Parser} (h : Follows n .operand operand) :
    Follows n .comparison (comparison operand) := by
  intro waiting tokens depth deep
  refine Comes.of_step rfl ?_
  refine (h (.comparison none :: waiting) tokens depth deep).returned (fun error failed => ?_)
    fun e after read => ?_
  · simp only [comparison, failed]
  · unfold comparison
    rw [read]
    cases after with
    | nil => exact .refl
    | cons token rest =>
      cases token with
      | relation r =>
        refine (h (.comparison (some (e, r)) :: waiting) rest depth deep).returned
          (fun error failed => ?_) fun right after read => ?_
        · simp only [failed]
        · simp only [read]
          exact .refl
      | _ => exact .refl

/-- The parser of negations follows it, through however many of them. -/
theorem follows_negation {negated compared : Parser} (hn : Opens n .negated .negation negated)
    (hc : Follows n .comparison compared) : Follows n .negation (negation negated compared) := by
  intro waiting tokens depth deep
  refine Comes.of_step rfl ?_
  unfold negation
  split
  · next rest =>
    refine hn.returned ⟨.call .negation, waiting, rest, depth⟩ deep (fun error failed => ?_)
      fun e after read => ?_
    · simp only [failed]
    · simp only [read]
      exact .refl
  · next other =>
    have plain : enter ⟨.call .negation, waiting, tokens, depth⟩ .negation =
        ⟨.call .comparison, .plain :: waiting, tokens, depth⟩ := by
      simp only [enter]
      rfl
    rw [plain]
    refine (hc (.plain :: waiting) tokens depth deep).returned (fun _ failed => failed)
      fun e after read => ?_
    rw [read]
    exact .refl

/-- How the function for one kind reads chains of another. -/
structure Linked (separator : Token) (join : Expression → Expression → Expression)
    (a : Option Expression → Activation) (j k : Category) : Prop where
  enter (s : Descent) : s.enter k = s.call (a none) j
  resume (s : Descent) (e : Expression) (left : Option Expression) :
    s.resume e (a left) = s.extend separator a j (left.elim e (join · e))

/-- Conjunctions are chains of negations. -/
theorem linked_conjunction : Linked .and .and .conjunction .negation .conjunction :=
  ⟨fun _ => rfl, fun _ _ _ => rfl⟩

/-- Disjunctions are chains of conjunctions. -/
theorem linked_disjunction : Linked .or .or .disjunction .conjunction .disjunction :=
  ⟨fun _ => rfl, fun _ _ _ => rfl⟩

section Chain

variable {separator : Token} {join : Expression → Expression → Expression}
variable {a : Option Expression → Activation} {operand : Parser}

/-- A chain is followed operand by operand; the tokens that are left bound the induction. -/
theorem follows_chainFrom (linked : Linked separator join a j k) (h : Follows n j operand)
    (sound : Sound j (Phrase.Within n) operand) (fuel : Nat) (left : Expression) (s : Descent)
    (enough : s.tokens.length ≤ fuel) (deep : s.depth + n = maxNesting) :
    Comes s.waiting s.depth (s.extend separator a j left)
      (chainFrom separator join operand fuel left s.tokens) := by
  induction fuel generalizing left s with
  | zero =>
    obtain ⟨c, waiting, tokens, depth⟩ := s
    obtain rfl : tokens = [] := List.eq_nil_of_length_eq_zero (Nat.le_zero.1 enough)
    exact .refl
  | succ fuel ih =>
    obtain ⟨c, waiting, tokens, depth⟩ := s
    cases tokens with
    | nil => exact .refl
    | cons token rest =>
      simp only [extend, chainFrom]
      split
      · refine (h (a (some left) :: waiting) rest depth deep).returned (fun error failed => ?_)
          fun e after read => ?_
        · rw [failed]
        · rw [linked.resume, read]
          have shorter : after.length ≤ fuel := by
            obtain ⟨p, tokens, -⟩ := sound _ _ _ read
            have := congrArg List.length tokens
            simp only [List.length_append, List.length_cons] at this enough
            omega
          exact ih _ ⟨_, waiting, after, depth⟩ shorter deep
      · exact .refl

/-- The parser of a chain follows the descent if that of its operands does. -/
theorem follows_chain (linked : Linked separator join a j k) (h : Follows n j operand)
    (sound : Sound j (Phrase.Within n) operand) :
    Follows n k (chain separator join operand) := by
  intro waiting tokens depth deep
  refine Comes.of_step (congrArg some (linked.enter _)) ?_
  refine (h (a none :: waiting) tokens depth deep).returned (fun error failed => ?_)
    fun e rest read => ?_
  · simp only [chain, failed]
  · rw [linked.resume, chain, read]
    exact follows_chainFrom linked h sound rest.length e ⟨_, waiting, rest, depth⟩ le_rfl deep

end Chain

/-- The functions of one level read what the parsers read, if those one level deeper do. -/
theorem follows_of_opens (inside : Opens n .group .disjunction (level n).2)
    (negated : Opens n .negated .negation (level n).1) (k : Category) :
    Follows n k (parserOf n k) := by
  have operand : Follows n .operand (parserOf n .operand) := follows_primary inside
  have compared : Follows n .comparison (parserOf n .comparison) := follows_comparison operand
  have negation : Follows n .negation (parserOf n .negation) := follows_negation negated compared
  have conjunction : Follows n .conjunction (parserOf n .conjunction) :=
    follows_chain linked_conjunction negation (sound_parserOf n .negation)
  cases k with
  | operand => exact operand
  | comparison => exact compared
  | negation => exact negation
  | conjunction => exact conjunction
  | disjunction =>
    exact follows_chain linked_disjunction conjunction (sound_parserOf n .conjunction)

/-- Every function reads what the parser of its kind reads. -/
theorem follows_parserOf (n : Nat) (k : Category) : Follows n k (parserOf n k) := by
  induction n generalizing k with
  | zero => exact follows_of_opens (opens_zero .group _) (opens_zero .negated _) k
  | succ n ih =>
    have inside := opens_succ (ih .disjunction) .group
    have negated := opens_succ (ih .negation) .negated
    exact follows_of_opens inside negated k

/-- The descent ends, and its answer to the tokens is the parser's. -/
theorem exists_verdict {tokens : List Token} (some_token : tokens ≠ [])
    (short : tokens.length ≤ maxTokens) :
    ∃ last, Reaches (start tokens) last ∧ last.verdict? = some (ofTokens tokens) := by
  have read : Comes [] 0 (start tokens) (whole tokens) :=
    follows_parserOf maxNesting .disjunction [] tokens 0 rfl
  have full : ¬ tokens.isEmpty = true := fun empty => some_token (List.isEmpty_iff.1 empty)
  rw [ofTokens, if_neg full, if_neg (Nat.not_lt.2 short)]
  cases parsed : whole tokens with
  | error error =>
    rw [parsed] at read
    obtain ⟨after, deep, path⟩ := read
    exact ⟨_, path, rfl⟩
  | ok result =>
    obtain ⟨e, after⟩ := result
    rw [parsed] at read
    refine ⟨_, read, ?_⟩
    cases after <;> rfl

/-! ## How many activations are open -/

/-- The place of a function among those of its level, in the order in which they call each other. -/
def rank : Category → Nat
  | .disjunction => 1
  | .conjunction => 2
  | .negation => 3
  | .comparison => 4
  | .operand => 5

/-- `Stacked k depth waiting`: each of the activations was called by the one behind it, the first
calls the function for `k`, and so many levels are open inside of them. -/
inductive Stacked : Category → Nat → List Activation → Prop where
  | start : Stacked .disjunction 0 []
  | disjunction {depth : Nat} {waiting : List Activation} (left : Option Expression)
      (outer : Stacked .disjunction depth waiting) :
      Stacked .conjunction depth (.disjunction left :: waiting)
  | conjunction {depth : Nat} {waiting : List Activation} (left : Option Expression)
      (outer : Stacked .conjunction depth waiting) :
      Stacked .negation depth (.conjunction left :: waiting)
  | negated {depth : Nat} {waiting : List Activation} (outer : Stacked .negation depth waiting) :
      Stacked .negation (depth + 1) (.negated :: waiting)
  | plain {depth : Nat} {waiting : List Activation} (outer : Stacked .negation depth waiting) :
      Stacked .comparison depth (.plain :: waiting)
  | comparison {depth : Nat} {waiting : List Activation} (left : Option (Expression × Relation))
      (outer : Stacked .comparison depth waiting) :
      Stacked .operand depth (.comparison left :: waiting)
  | group {depth : Nat} {waiting : List Activation} (outer : Stacked .operand depth waiting) :
      Stacked .disjunction (depth + 1) (.group :: waiting)

/-- No level has more than five activations. -/
theorem Stacked.length_lt (h : Stacked k depth waiting) :
    waiting.length < 5 * depth + rank k := by
  induction h with
  | start => decide
  | disjunction _ _ ih | conjunction _ _ ih | negated _ ih | plain _ ih | comparison _ _ ih
  | group _ ih =>
    simp only [List.length_cons, rank] at ih ⊢
    omega

/-- The counter tells how many levels are open. After an error it does not, for nobody lowers it
then. -/
inductive Nested : Descent → Prop where
  | call {k : Category} {waiting : List Activation} {tokens : List Token} {depth : Nat}
      (stacked : Stacked k depth waiting) (within : depth ≤ maxNesting) :
      Nested ⟨.call k, waiting, tokens, depth⟩
  | answer {k : Category} {e : Expression} {waiting : List Activation} {tokens : List Token}
      {depth : Nat} (stacked : Stacked k depth waiting) (within : depth ≤ maxNesting) :
      Nested ⟨.answer (.ok e), waiting, tokens, depth⟩
  | error {k : Category} {error : SyntaxError} {waiting : List Activation} {tokens : List Token}
      {depth deep : Nat} (stacked : Stacked k depth waiting) (within : depth ≤ maxNesting) :
      Nested ⟨.answer (.error error), waiting, tokens, deep⟩

/-- The descent begins with one activation on each of the five levels, at most. -/
theorem nested_start (tokens : List Token) : Nested (start tokens) := .call .start (Nat.zero_le _)

/-- To descend opens an activation of a lower category. -/
theorem nested_descend (inner : Stacked k (s.depth + 1) (a :: s.waiting))
    (outer : Stacked j s.depth s.waiting) (within : s.depth ≤ maxNesting) :
    Nested (s.descend a k) := by
  unfold descend
  split
  · exact .error outer within
  · next fits => exact .call inner (Nat.not_lt.1 fits)

/-- To enter a category opens no more than the five of one level. -/
theorem nested_enter (stacked : Stacked k s.depth s.waiting) (within : s.depth ≤ maxNesting) :
    Nested (s.enter k) := by
  cases k with
  | disjunction => exact .call (.disjunction none stacked) within
  | conjunction => exact .call (.conjunction none stacked) within
  | negation =>
    simp only [enter]
    split
    · exact nested_descend (.negated stacked) stacked within
    · exact .call (.plain stacked) within
  | comparison => exact .call (.comparison none stacked) within
  | operand =>
    simp only [enter]
    split
    · exact nested_descend (.group stacked) stacked within
    · split
      · exact .answer stacked within
      · exact .error stacked within
    · exact .error stacked within

/-- A chain that goes on replaces its activation by the next. -/
theorem nested_extend {separator : Token} {a : Option Expression → Activation} (e : Expression)
    (inner : Stacked k s.depth (a (some e) :: s.waiting)) (outer : Stacked j s.depth s.waiting)
    (within : s.depth ≤ maxNesting) : Nested (s.extend separator a k e) := by
  unfold extend
  split
  · split
    · exact .call inner within
    · exact .answer outer within
  · exact .answer outer within

/-- Who goes on after an operand closes an activation. -/
theorem nested_resume {e : Expression} (stacked : Stacked k s.depth (a :: s.waiting))
    (within : s.depth ≤ maxNesting) : Nested (s.resume e a) := by
  obtain ⟨c, waiting, tokens, depth⟩ := s
  cases stacked with
  | disjunction left outer => exact nested_extend _ (.disjunction _ outer) outer within
  | conjunction left outer => exact nested_extend _ (.conjunction _ outer) outer within
  | negated outer => exact .answer outer (Nat.le_of_succ_le within)
  | plain outer => exact .answer outer within
  | comparison left outer =>
    cases left with
    | none =>
      simp only [resume]
      split
      · exact .call (.comparison _ outer) within
      · exact .answer outer within
    | some left => exact .answer outer within
  | group outer =>
    simp only [resume]
    split
    · exact .answer outer (Nat.le_of_succ_le within)
    · exact .error outer (Nat.le_of_succ_le within)

/-- The activations behind the first one were called one by the other, too. -/
theorem Stacked.exists_outer (h : Stacked k depth (a :: waiting)) :
    ∃ j deeper, deeper ≤ depth ∧ Stacked j deeper waiting := by
  cases h with
  | disjunction _ outer | conjunction _ outer | plain outer | comparison _ outer =>
    exact ⟨_, _, le_rfl, outer⟩
  | negated outer | group outer => exact ⟨_, _, Nat.le_succ _, outer⟩

/-- No step opens more activations than five for each level. -/
theorem Nested.step (h : Nested s) (next : s.step = some t) : Nested t := by
  cases h with
  | call stacked within =>
    cases next
    exact nested_enter stacked within
  | @answer k e waiting tokens depth stacked within =>
    cases waiting with
    | nil => cases next
    | cons a waiting =>
      cases next
      exact nested_resume stacked within
  | @error k error waiting tokens depth deep stacked within =>
    cases waiting with
    | nil => cases next
    | cons a waiting =>
      cases next
      obtain ⟨j, outer, le, stacked⟩ := stacked.exists_outer
      exact .error stacked (le.trans within)

/-- The descent never has more activations open than five for each level. -/
theorem nested_of_reaches {tokens : List Token} (path : Reaches (start tokens) s) : Nested s := by
  induction path with
  | refl => exact nested_start tokens
  | tail _ next ih => exact ih.step next

/-- Nested activations are never more than five times the levels that may be open. -/
theorem Nested.opened_le (h : Nested s) : s.opened ≤ 5 * (maxNesting + 1) := by
  have highest (k : Category) : rank k ≤ 5 := by
    cases k <;> decide
  cases h with
  | @call k _ _ _ stacked within | @answer k _ _ _ _ stacked within
  | @error k _ _ _ _ _ stacked within =>
    have short := stacked.length_lt
    have high := highest k
    simp only [opened]
    omega

/-- Whatever tokens are read, at no time are more than five activations open on each level. -/
theorem opened_le_of_reaches {tokens : List Token} (path : Reaches (start tokens) s) :
    s.opened ≤ 325 :=
  (nested_of_reaches path).opened_le

end Descent

end EventFlow.Expression
