import EventFlow.Proofs.Condition.Parsing
import EventFlow.Proofs.Condition.Scanning
import EventFlow.Proofs.Template.Occurrences

/-!
# Gates

A gate asks how a field compares with a value. It is written as an expression, the path between
braces, a relation and an operand (`Gate.source`), or as a comparison of the field. With a text as
the value both say the same of a field that is there (`text_gates_agree`). The first is evaluated by
`evaluateExpression` (`EventFlow.Condition.Evaluate`), the second by `compareField`
(`EventFlow.Condition.Compare`).
-/

set_option autoImplicit false

namespace EventFlow

/-- The relation that asks what a comparison asks; there is none that asks for the negation of
`contains`. -/
def Comparison.relation? : Comparison → Option Relation
  | .equals => some .equal
  | .notEquals => some .notEqual
  | .greaterThan => some .greater
  | .lessThan => some .less
  | .contains => some .contains
  | .notContains => none

section Comparing

variable {c : Comparison} {r : Relation}

/-- A relation between two operands that are there is the comparison it asks for. -/
theorem compareOperands_eq (asks : c.relation? = some r) (a b : Json) :
    Expression.compareOperands r (some a) (some b) = compareField (some a) c b := by
  cases c <;> cases asks <;> rfl

theorem compareField_none (asks : c.relation? = some r) (value : Json) :
    compareField none c value = decide (c = .notEquals) := by
  cases c <;> cases asks <;> rfl

end Comparing

/-- What an expression says that compares a field with an operand: the path of the field, which can
be told from the blanks around it and the braces after it, the relation, and how it is written. -/
structure Gate where
  path : String
  filled : path ≠ ""
  trimmed : Text.trimmed path = path
  closed : ¬ ['\x7d', '\x7d'] <:+: path.toList
  relation : Relation
  form : String
  listed : form ∈ (Token.relation relation).forms
  /-- The blanks before the relation. -/
  before : String
  blank_before : ∀ c ∈ before.toList, Text.isBlank c = true
  /-- The blanks after the relation. -/
  after : String
  blank_after : ∀ c ∈ after.toList, Text.isBlank c = true

/-- The source of a gate with an operand. -/
def Gate.source (g : Gate) (operand : String) : String :=
  "\x7b\x7b " ++ g.path ++ " \x7d\x7d" ++ g.before ++ g.form ++ g.after ++ operand

namespace Token

variable {path : List Char}

/-- The blank behind a path keeps its last character from the braces that close the field. -/
theorem closesFirst_append_blank (closed : ¬ ['\x7d', '\x7d'] <:+: path) :
    ClosesFirst (path ++ [' ']) := by
  induction path with
  | nil => exact closesFirst_nil.cons fun brace => absurd brace (by decide)
  | cons c path ih =>
    refine (ih fun inner => closed (List.infix_cons inner)).cons ?_
    rintro rfl
    cases path with
    | nil => exact ⟨' ', [], rfl, by decide⟩
    | cons d path =>
      refine ⟨d, path ++ [' '], rfl, ?_⟩
      rintro rfl
      exact closed ⟨[], path, rfl⟩

end Token

namespace Text

/-- A blank at each end is trimmed away. -/
theorem trim_blank_cons_append (s : List Char) : trim (' ' :: (s ++ [' '])) = trim s := by
  show trimEnd (trimStart (s ++ [' '])) = trimEnd (trimStart s)
  unfold trimStart trimEnd
  rw [List.dropWhile_append]
  split
  · next nothing =>
    rw [List.isEmpty_iff.1 nothing]
    rfl
  · rw [List.reverse_append]
    rfl

end Text

namespace Token

/-- A character between quotes of a kind: a backslash stands before a backslash and the quote. -/
def escape (quote c : Char) : List Char := if c = '\\' ∨ c = quote then ['\\', c] else [c]

/-- A text between quotes of a kind. -/
def inQuotes (quote : Char) (text : String) : String :=
  String.ofList (quote :: (text.toList.flatMap (escape quote) ++ [quote]))

theorem escaped_flatMap (quote : Char) (text : List Char) :
    Escaped quote (text.flatMap (escape quote)) text := by
  induction text with
  | nil => exact .nil
  | cons c text ih =>
    rw [List.flatMap_cons, escape]
    split
    · exact .escaped c ih
    · next plain => exact .plain (fun same => plain (.inl same)) (fun same => plain (.inr same)) ih

end Token

/-- A text without placeholders is what it is interpolated to. -/
theorem Template.interpolate?_eq_self {text : String}
    (free : ∀ start path written, ¬ Occurs text.toList start path written)
    (data : Json) : interpolate? text data = some text := by
  have unmoved : Unmoved data text :=
    fun start path written v occurs => absurd occurs (free start path written)
  exact interpolate?_eq_some_iff.2
    ⟨fun start path written occurs => absurd occurs (free start path written),
      unmoved.interpolate_eq.symm⟩

namespace Gate

open Token (Spelling Scans Apart)

variable (g : Gate) {operand : String} {l : Leaf}

/-- The operand is told from the relation, by a blank before it or by its quote. -/
def Separates (operand : String) : Prop :=
  g.after ≠ "" ∨ ∃ quote rest, (quote = '\'' ∨ quote = '"') ∧ operand.toList = quote :: rest

theorem toList_source (operand : String) :
    (g.source operand).toList =
      '\x7b' :: '\x7b' :: (' ' :: (g.path.toList ++ [' ']) ++ ['\x7d', '\x7d']) ++
        (g.before.toList ++ (g.form.toList ++ (g.after.toList ++ operand.toList))) := by
  have opening : "\x7b\x7b ".toList = ['\x7b', '\x7b', ' '] := rfl
  have closing : " \x7d\x7d".toList = [' ', '\x7d', '\x7d'] := rfl
  simp only [source, String.toList_append, opening, closing, List.cons_append, List.nil_append,
    List.append_assoc]

theorem toList_ne_nil : g.path.toList ≠ [] := fun nothing =>
  g.filled (String.toList_inj.1 nothing)

theorem trim_path : Text.trim g.path.toList = g.path.toList := by
  have same := congrArg String.toList g.trimmed
  rwa [Text.trimmed, String.toList_ofList] at same

theorem closesFirst : Token.ClosesFirst (' ' :: (g.path.toList ++ [' '])) :=
  (Token.closesFirst_append_blank g.closed).cons fun brace => absurd brace (by decide)

/-- The relation is read up to its end, before a blank or a quote. -/
theorem next_form (separates : g.Separates operand) (position : Nat) :
    Token.next position (g.form.toList ++ (g.after.toList ++ operand.toList)) =
      .ok (.relation g.relation, g.form.toList.length) := by
  cases gap : g.after.toList with
  | cons c rest =>
    refine Token.next_of_relation position g.listed ?_
    rintro d first
    cases first
    exact g.blank_after c (by rw [gap]; exact List.mem_cons_self)
  | nil =>
    rcases separates with some_gap | ⟨quote, rest, kind, same⟩
    · exact absurd (String.toList_inj.1 gap) some_gap
    · rw [List.nil_append, same]
      exact Token.next_of_relation_quote position g.listed kind rest

/-- A gate is read as its three tokens. -/
theorem scan_source (spelling : Spelling l.token operand.toList)
    (separates : g.Separates operand) :
    Token.scan (g.source operand).toList =
      .ok [.field g.path, .relation g.relation, l.token] := by
  have nothing : ∀ c ∈ ([] : List Char), Text.isBlank c = true := nofun
  have last : Scans [l.token] (g.after.toList ++ (operand.toList ++ [])) :=
    (Token.scans_blanks nothing).token g.blank_after spelling
      fun position => Token.next_of_spelling position spelling nofun
  rw [List.append_nil] at last
  have trims := (Text.trim_blank_cons_append g.path.toList).trans g.trim_path
  have all := (last.token g.blank_before (.form g.listed) (g.next_form separates)).token nothing
    (.field g.closesFirst trims g.toList_ne_nil)
    fun position => Token.next_of_field position g.closesFirst trims g.toList_ne_nil _
  rw [String.ofList_toList, List.nil_append, ← g.toList_source] at all
  exact all _ 0 (Nat.le_refl _)

/-- A gate says of data whether its relation holds between the field and the operand. -/
theorem evaluate_source (spelling : Spelling l.token operand.toList)
    (separates : g.Separates operand) (predicates : Predicates) (data : Json) :
    (ConditionKind.expression (g.source operand)).evaluate predicates data =
      .ok (Expression.compareOperands g.relation (data.lookup g.path)
        (l.tree.eval data)) := by
  let phrase : Phrase .disjunction :=
    .disjunct (.conjunct (.plain (.related (.leaf (.field g.path)) g.relation (.leaf l))))
  have denotes : Expression.Denotes phrase.tokens phrase.tree :=
    ⟨show 1 ≤ 3 by decide, show 3 ≤ 4096 by decide, phrase, rfl,
      show ∀ d ∈ [0, 0, 0], d ≤ 64 by decide, rfl⟩
  have parsed :=
    ((Expression.parse_eq_ok_iff_of_scan (g.scan_source spelling separates)).1 _).2 denotes
  show evaluateExpression _ data = _
  rw [evaluateExpression, parsed]
  rfl

/-- A gate with a text between quotes is true or false of all data. Where the field is there, it
says what the comparison of the field with the text says; where it is missing, the gate is false,
and of the comparisons only `notEquals` is true. -/
theorem text_gates_agree {c : Comparison} (asks : c.relation? = some g.relation) {quote : Char}
    (kind : quote = '\'' ∨ quote = '"') {text : String}
    (free : ∀ start path written, ¬ Template.Occurs text.toList start path written)
    (predicates : Predicates) (data : Json) :
    ∃ answer, (ConditionKind.expression (g.source (Token.inQuotes quote text))).evaluate
        predicates data = .ok answer ∧
      (∀ a, data.lookup g.path = some a →
        (ConditionKind.fieldCompare g.path c (.string text)).evaluate predicates data =
          .ok answer) ∧
      (data.lookup g.path = none → answer = false ∧
        (ConditionKind.fieldCompare g.path c (.string text)).evaluate predicates data =
          .ok (decide (c = .notEquals))) := by
  have spelling : Spelling (Leaf.text text).token (Token.inQuotes quote text).toList := by
    have means := Spelling.text kind (Token.escaped_flatMap quote text.toList)
    rw [String.ofList_toList] at means
    rw [Token.inQuotes, String.toList_ofList]
    exact means
  have separates : g.Separates (Token.inQuotes quote text) :=
    .inr ⟨quote, _, kind, String.toList_ofList⟩
  have operand : (Leaf.text text).tree.eval data = some (.string text) := by
    show (Template.interpolate? text data).map Json.string = _
    rw [Template.interpolate?_eq_self free]
    rfl
  refine ⟨_, g.evaluate_source spelling separates predicates data, fun a found => ?_,
    fun missing => ⟨?_, ?_⟩⟩
  · rw [ConditionKind.evaluate, operand, found, compareOperands_eq asks]
  · rw [missing]
    rfl
  · rw [ConditionKind.evaluate, missing, compareField_none asks]

/-- A gate whose path ends in a brace, written without blanks around the relation. -/
def noted : Gate where
  path := "user.note\x7d"
  filled := by decide
  trimmed := by decide +kernel
  closed := by decide +kernel
  relation := .equal
  form := "==="
  listed := by decide
  before := ""
  blank_before := List.all_eq_true.1 (by decide +kernel)
  after := ""
  blank_after := List.all_eq_true.1 (by decide +kernel)

/-- The text has a quote, a backslash and braces that open no placeholder. -/
theorem text_gates_agree_noted :
    let text := "it's a \\ \x7b\x7b"
    let source := "\x7b\x7b user.note\x7d \x7d\x7d==='it\\'s a \\\\ \x7b\x7b'"
    let data := Json.object [("user", .object [("note\x7d", .string text)])]
    noted.source (Token.inQuotes '\'' text) = source ∧
      (ConditionKind.expression source).evaluate (fun _ => none) data = .ok true ∧
      (ConditionKind.expression source).evaluate (fun _ => none) .null = .ok false := by
  intro text source data
  have plain : Template.pieces text.toList = text.toList.map Template.Piece.plain := by
    decide +kernel
  have free (start : Nat) (path written : List Char) :
      ¬ Template.Occurs text.toList start path written := by
    intro occurs
    have among := Template.mem_pieces_iff.2 ⟨start, occurs⟩
    rw [plain] at among
    obtain ⟨c, -, same⟩ := List.mem_map.1 among
    cases same
  have asks : Comparison.equals.relation? = some noted.relation := rfl
  have written : noted.source (Token.inQuotes '\'' text) = source := by decide +kernel
  have found : data.lookup noted.path = some (.string text) := by decide +kernel
  have equal : compareField (data.lookup noted.path) .equals (.string text) = true := by
    decide +kernel
  have missing : Json.null.lookup noted.path = none := by decide +kernel
  obtain ⟨answer, evaluated, agrees, -⟩ :=
    text_gates_agree noted asks (.inl rfl) free (fun _ => none) data
  obtain ⟨answer', evaluated', -, disagrees⟩ :=
    text_gates_agree noted asks (.inl rfl) free (fun _ => none) .null
  have same := agrees _ found
  rw [ConditionKind.evaluate, equal] at same
  rw [written, ← same] at evaluated
  rw [written, (disagrees missing).1] at evaluated'
  exact ⟨written, evaluated, evaluated'⟩

end Gate

end EventFlow
