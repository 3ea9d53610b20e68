import EventFlow.Engine.Run
import EventFlow.Proofs.Condition.Parsing
import EventFlow.Proofs.Template.Occurrences

/-!
# What a condition reads

The paths that a source mentions are those of its fields and those of the placeholders in its texts.
Every leaf of a syntax tree is a token of its source (`Phrase.exists_mentions`), and the value of a
tree comes from its leaves alone (`Expression.eval_congr`), so an expression tells no difference
between data that agree on the mentioned paths, whatever else they hold. Neither does a comparison
of a field, nor a condition step that asks no predicate (`Engine.gate_reads_mentioned`). All of them
are evaluated by `ConditionKind.evaluate`, in `EventFlow.Condition.Evaluate`.
-/

set_option autoImplicit false

namespace EventFlow

/-- Two values lead to the same along each of some paths. -/
def Json.AgreeOn (data data' : Json) (paths : String → Prop) : Prop :=
  ∀ path, paths path → data.lookup path = data'.lookup path

variable {data data' : Json}

theorem Json.AgreeOn.mono {paths paths' : String → Prop} (h : data.AgreeOn data' paths)
    (sub : ∀ path, paths' path → paths path) : data.AgreeOn data' paths' :=
  fun path among => h path (sub path among)

/-! ## Placeholders of a text -/

namespace Template

/-- A placeholder with this path stands somewhere in a text. -/
def Holds (text path : String) : Prop :=
  ∃ start written, Occurs text.toList start path.toList written

variable {text : String}

theorem holds_iff {path : String} :
    Holds text path ↔ ∃ written, .placeholder path.toList written ∈ pieces text.toList := by
  simp only [Holds, mem_pieces_iff]
  exact exists_comm

theorem resolve_eq_of_agreeOn (agree : data.AgreeOn data' (Holds text))
    {path written : List Char} (among : .placeholder path written ∈ pieces text.toList) :
    resolve data path = resolve data' path := by
  have holds : Holds text (String.ofList path) :=
    holds_iff.2 ⟨written, by rw [String.toList_ofList]; exact among⟩
  rw [resolve, resolve, agree _ holds]

/-- A text becomes the same with data that agree on its placeholders, or nothing with either. -/
theorem interpolate?_congr (agree : data.AgreeOn data' (Holds text)) :
    interpolate? text data = interpolate? text data' := by
  have each : ∀ piece ∈ pieces text.toList,
      isResolved data piece = isResolved data' piece ∧ render data piece = render data' piece := by
    intro piece among
    cases piece with
    | plain c => exact ⟨rfl, rfl⟩
    | placeholder path written =>
      have same := resolve_eq_of_agreeOn agree among
      exact ⟨by rw [isResolved, isResolved, same], by rw [render, render, same]⟩
  have resolved : (pieces text.toList).all (isResolved data) =
      (pieces text.toList).all (isResolved data') := by
    rw [Bool.eq_iff_iff, List.all_eq_true, List.all_eq_true]
    exact forall₂_congr fun piece among => by rw [(each piece among).1]
  have rendered : (pieces text.toList).flatMap (render data) =
      (pieces text.toList).flatMap (render data') := by
    rw [List.flatMap_def, List.flatMap_def, List.map_congr_left fun piece among =>
      (each piece among).2]
  rw [interpolate?, interpolate?, interpolate, interpolate, resolved, rendered]

end Template

/-! ## What is mentioned -/

/-- The paths that a token mentions. -/
def Token.Mentions : Token → String → Prop
  | .field path, other => path = other
  | .text s, path => Template.Holds s path
  | _, _ => False

namespace Expression

/-- The paths that the leaves of a syntax tree mention. -/
def Mentions : Expression → String → Prop
  | field path, other => path = other
  | text s, path => Template.Holds s path
  | literal _, _ => False
  | not e, path => e.Mentions path
  | and l r, path => l.Mentions path ∨ r.Mentions path
  | or l r, path => l.Mentions path ∨ r.Mentions path
  | compare l _ r, path => l.Mentions path ∨ r.Mentions path

/-- A source mentions the paths that its tokens mention. -/
def Mentioned (source path : String) : Prop :=
  ∃ ts, Token.scan source.toList = .ok ts ∧ ∃ t ∈ ts, t.Mentions path

/-- The value of an expression comes from what it mentions. -/
theorem eval_congr {e : Expression} (agree : data.AgreeOn data' e.Mentions) :
    e.eval data = e.eval data' := by
  induction e with
  | field path => exact agree path rfl
  | text s => rw [eval, eval, Template.interpolate?_congr agree]
  | literal v => rfl
  | not e ih => rw [eval, eval, ih agree]
  | and l r ihl ihr | or l r ihl ihr | compare l relation r ihl ihr =>
    have left := ihl (agree.mono fun _ => .inl)
    have right := ihr (agree.mono fun _ => .inr)
    rw [eval, eval, left, right]

end Expression

/-- A path that a syntax tree mentions is mentioned by a token of its phrase. -/
theorem Phrase.exists_mentions {k : Category} (p : Phrase k) {path : String}
    (h : p.tree.Mentions path) : ∃ t ∈ p.tokens, t.Mentions path := by
  induction p with
  | leaf l =>
    cases l with
    | number n => cases n <;> exact h.elim
    | _ => exact ⟨_, List.mem_singleton_self _, h⟩
  | alone p ih | plain p ih | conjunct p ih | disjunct p ih => exact ih h
  | group p ih =>
    obtain ⟨t, among, mentions⟩ := ih h
    exact ⟨t, List.mem_cons_of_mem _ (List.mem_append_left _ among), mentions⟩
  | negated p ih =>
    obtain ⟨t, among, mentions⟩ := ih h
    exact ⟨t, List.mem_cons_of_mem _ among, mentions⟩
  | related l r q ihl ihr | both l r ihl ihr | either l r ihl ihr =>
    rcases h with left | right
    · obtain ⟨t, among, mentions⟩ := ihl left
      exact ⟨t, List.mem_append_left _ among, mentions⟩
    · obtain ⟨t, among, mentions⟩ := ihr right
      exact ⟨t, List.mem_append_right _ (List.mem_cons_of_mem _ among), mentions⟩

/-- What a syntax tree mentions is mentioned by its source. -/
theorem Expression.mentioned_of_parse {source path : String} {e : Expression}
    (parsed : parse source = .ok e) (h : e.Mentions path) : Mentioned source path := by
  unfold parse at parsed
  split at parsed
  · next ts scanned =>
    obtain ⟨-, -, p, rfl, -, rfl⟩ := ofTokens_eq_ok_iff.1 parsed
    exact ⟨_, scanned, p.exists_mentions h⟩
  · cases parsed

/-! ## What is told apart -/

theorem evaluateExpression_congr {source : String}
    (agree : data.AgreeOn data' (Expression.Mentioned source)) :
    evaluateExpression source data = evaluateExpression source data' := by
  unfold evaluateExpression
  split
  · next e parsed =>
    have value := Expression.eval_congr (agree.mono fun _ => Expression.mentioned_of_parse parsed)
    rw [Expression.holds, Expression.holds, value]
  · rfl

namespace ConditionKind

/-- The paths that a condition mentions; what a predicate reads is not among them. -/
def Mentions : ConditionKind → String → Prop
  | fieldCompare field _ _, path => field = path
  | expression source, path => Expression.Mentioned source path
  | externalCheck _ _, _ => False

/-- Whether a condition asks a predicate. -/
def isExternal : ConditionKind → Bool
  | externalCheck _ _ => true
  | _ => false

theorem evaluate_congr (predicates : Predicates) {kind : ConditionKind}
    (own : kind.isExternal = false) (agree : data.AgreeOn data' kind.Mentions) :
    kind.evaluate predicates data = kind.evaluate predicates data' := by
  cases kind with
  | fieldCompare field operator value => rw [evaluate, evaluate, agree field rfl]
  | expression source => exact evaluateExpression_congr agree
  | externalCheck name config => cases own

end ConditionKind

/-! ## Condition steps -/

namespace Step

/-- A condition that a step names, and that a plan has. -/
def Names (p : Plan) (s : Step) (c : Condition) : Prop :=
  ∃ id ∈ s.conditionIds, p.condition? id = some c

/-- The paths that the conditions of a step mention. -/
def Mentions (p : Plan) (s : Step) (path : String) : Prop :=
  ∃ c, s.Names p c ∧ c.kind.Mentions path

end Step

namespace Engine

variable {σ : Type} {engine : Engine σ} {p : Plan}

theorem holdAll_eq_of_evaluate {ids : List String}
    (same : ∀ id ∈ ids, ∀ c, p.condition? id = some c →
      c.kind.evaluate engine.predicates data = c.kind.evaluate engine.predicates data') :
    engine.holdAll p data ids = engine.holdAll p data' ids := by
  induction ids with
  | nil => rfl
  | cons id rest ih =>
    obtain ⟨first, others⟩ := List.forall_mem_cons.1 same
    rw [holdAll, holdAll, ih others]
    cases found : p.condition? id with
    | none => rfl
    | some c =>
      dsimp only
      rw [first c found]

theorem runAgain_eq_of_attempt {place : Place}
    (same : engine.attempt p place.step data = engine.attempt p place.step data')
    (total left : Nat) (e : Execution) :
    engine.runAgain p data place total left e = engine.runAgain p data' place total left e := by
  induction left generalizing e with
  | zero => rfl
  | succ left ih => simp only [runAgain, same, ih]

/-- A step that is not parallel asks for data only in its attempts, whatever its policy is. -/
theorem runStep_eq_of_attempt {place : Place} (one : place.step.kind ≠ .parallel)
    (same : engine.attempt p place.step data = engine.attempt p place.step data')
    (e : Execution) : engine.runStep p data place e = engine.runStep p data' place e := by
  unfold runStep runOnce runAnyway
  simp only [if_neg one, same, runAgain_eq_of_attempt same]

/-- An expression is evaluated alike with data that agree on the paths that its source mentions,
and a field compares alike with data that agree on it. A condition step none of whose conditions
asks a predicate goes alike, in one attempt and under every policy, with data that agree on the
paths that its conditions mention. -/
theorem gate_reads_mentioned (engine : Engine σ) (data data' : Json) :
    (∀ source, data.AgreeOn data' (Expression.Mentioned source) →
      evaluateExpression source data = evaluateExpression source data') ∧
    (∀ field operator value, data.lookup field = data'.lookup field →
      (ConditionKind.fieldCompare field operator value).evaluate engine.predicates data =
        (ConditionKind.fieldCompare field operator value).evaluate engine.predicates data') ∧
    ∀ (p : Plan) (place : Place), place.step.kind = .condition →
      (∀ c, place.step.Names p c → c.kind.isExternal = false) →
      data.AgreeOn data' (place.step.Mentions p) →
      engine.attempt p place.step data = engine.attempt p place.step data' ∧
        ∀ e, engine.runStep p data place e = engine.runStep p data' place e := by
  refine ⟨fun source => evaluateExpression_congr, ?_, ?_⟩
  · intro field operator value same
    refine ConditionKind.evaluate_congr engine.predicates rfl ?_
    rintro path rfl
    exact same
  · intro p place gate own agree
    have each : ∀ id ∈ place.step.conditionIds, ∀ c, p.condition? id = some c →
        c.kind.evaluate engine.predicates data = c.kind.evaluate engine.predicates data' := by
      intro id among c found
      have names : place.step.Names p c := ⟨id, among, found⟩
      exact ConditionKind.evaluate_congr engine.predicates (own c names)
        (agree.mono fun path mentions => ⟨c, names, mentions⟩)
    have one : place.step.kind ≠ .parallel := by rw [gate]; decide
    have same : engine.attempt p place.step data = engine.attempt p place.step data' := by
      rw [attempt, attempt, if_neg one, if_neg one, interpret, interpret]
      simp only [gate, holdAll_eq_of_evaluate each]
    exact ⟨same, runStep_eq_of_attempt one same⟩

/-- A step that asks for the height of a visitor, and for a ticket for the side of the gate. -/
def turnstile : Step :=
  ⟨"turnstile", "fair", "Turnstile", "", .condition, [], ["height", "ticket"], .retry 1, 1000, 0,
    .emptyObject, default, anonymous⟩

/-- The conditions of the turnstile. -/
def fairground : Plan :=
  ⟨⟨"fair", "Fair", "", .active, "visitor.came", ["turnstile"], .emptyObject, default, default,
      anonymous⟩, [⟨"turnstile", some turnstile⟩], [],
    [("height", ⟨"height", "Height", "", .fieldCompare "visitor.cm" .greaterThan (.ofNat 120),
        default, anonymous⟩),
      ("ticket", ⟨"ticket", "Ticket", "", .expression "{{ticket}} == 'gate {{side}}'", default,
        anonymous⟩)]⟩

/-- What is known of a visitor at the turnstile, and the weather. -/
def arrival (weather : Json) : Json :=
  .ofMembers [("visitor", .ofMembers [("cm", .ofNat 150)]), ("ticket", .string "gate west"),
    ("side", .string "west"), ("weather", weather)]

/-- The weather makes no difference at the turnstile. -/
theorem gate_reads_mentioned_turnstile :
    let engine : Engine Unit := ⟨[], fun _ => none, .default, .apart⟩
    (∀ c, turnstile.Names fairground c → c.kind.isExternal = false) ∧
      (arrival .null).AgreeOn (arrival (.string "rain")) (turnstile.Mentions fairground) ∧
      ∀ e, engine.runStep fairground (arrival .null) ⟨0, turnstile⟩ e =
        engine.runStep fairground (arrival (.string "rain")) ⟨0, turnstile⟩ e := by
  intro engine
  have own : ∀ c, turnstile.Names fairground c → c.kind.isExternal = false := by
    rintro c ⟨id, among, found⟩
    simp only [turnstile, List.mem_cons, List.not_mem_nil, or_false] at among
    rcases among with rfl | rfl <;> cases found <;> rfl
  have agree :
      (arrival .null).AgreeOn (arrival (.string "rain")) (turnstile.Mentions fairground) := by
    rintro path ⟨c, ⟨id, among, found⟩, mentions⟩
    simp only [turnstile, List.mem_cons, List.not_mem_nil, or_false] at among
    rcases among with rfl | rfl
    · cases found
      cases mentions
      decide
    · cases found
      obtain ⟨ts, scanned, t, among, mentions⟩ := mentions
      have tokens : Token.scan "{{ticket}} == 'gate {{side}}'".toList =
          .ok [.field "ticket", .relation .equal, .text "gate {{side}}"] := by rfl
      rw [tokens] at scanned
      cases scanned
      simp only [List.mem_cons, List.not_mem_nil, or_false] at among
      rcases among with rfl | rfl | rfl
      · cases mentions
        decide
      · cases mentions
      · obtain ⟨written, among⟩ := Template.holds_iff.1 mentions
        have cut : Template.pieces "gate {{side}}".toList =
            "gate ".toList.map .plain ++ [.placeholder "side".toList "{{side}}".toList] := by decide
        rw [cut] at among
        rcases List.mem_append.1 among with letter | last
        · obtain ⟨_, -, other⟩ := List.mem_map.1 letter
          cases other
        · injection List.mem_singleton.1 last with same
          obtain rfl : path = "side" := String.toList_inj.1 same
          decide
  exact ⟨own, agree,
    ((gate_reads_mentioned engine _ _).2.2 fairground ⟨0, turnstile⟩ rfl own agree).2⟩

end Engine

end EventFlow
