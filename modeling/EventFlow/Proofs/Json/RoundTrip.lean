import EventFlow.Proofs.Data.Assoc
import EventFlow.Proofs.Json.Scanning

/-!
# Documents are read back

A document that holds nothing unreadable and whose doubles read back (`Document.Printable`) is read
back from its pretty text, as far as its reader goes: what is nested too deep is unreadable
(`Document.pruned`, `Document.read?_pretty`). A value that is written down means itself again where
it is not higher than the levels that are left (`Document.toJson?_pruned_ofJson`); so the reader of
values goes no deeper than 127 levels, while nothing keeps the writer from going on. The writer is
`Document.pretty` (`EventFlow.Json.Printer`), the reader `Document.read?` (`EventFlow.Json.Reader`).
-/

set_option autoImplicit false

namespace EventFlow

namespace Document

/-! ## Depth, and what can be printed -/

mutual

/-- How many arrays and objects are nested in each other. -/
def height : Document → Nat
  | .array items => itemsHeight items + 1
  | .object members => membersHeight members + 1
  | _ => 0

/-- The height of the highest item. -/
def itemsHeight : List Document → Nat
  | [] => 0
  | d :: rest => max (height d) (itemsHeight rest)

/-- The height of the highest member. -/
def membersHeight : List (String × Document) → Nat
  | [] => 0
  | (_, d) :: rest => max (height d) (membersHeight rest)

end

mutual

/-- Everything in the document is readable, and its doubles read back. -/
def Printable : Document → Prop
  | .number n => n.ReadsBack
  | .array items => PrintableItems items
  | .object members => PrintableMembers members
  | .unreadable => False
  | _ => True

/-- Every item is printable. -/
def PrintableItems : List Document → Prop
  | [] => True
  | d :: rest => Printable d ∧ PrintableItems rest

/-- Every member is printable. -/
def PrintableMembers : List (String × Document) → Prop
  | [] => True
  | (_, d) :: rest => Printable d ∧ PrintableMembers rest

end

/-! ## Blanks -/

theorem skipBlanks_newline (level : Nat) (s : List Char) :
    skipBlanks (newline level ++ s) = skipBlanks s := by
  have spaces : ∀ c ∈ newline level, isBlank c = true := by
    intro c hc
    rcases List.mem_cons.1 hc with rfl | space
    · decide
    · rw [List.eq_of_mem_replicate space]
      decide
  rw [skipBlanks, List.dropWhile_append_of_pos spaces]
  rfl

theorem ends_newline (level : Nat) (s : List Char) : Ends (newline level ++ s) := by
  intro c hc
  cases hc
  decide

theorem ends_comma (s : List Char) : Ends (',' :: s) := by
  intro c hc
  cases hc
  decide

/-- A value begins with no blank and with no closing bracket. -/
theorem exists_prettyChars_eq_cons (level : Nat) (d : Document) :
    ∃ c s, d.prettyChars level = c :: s ∧ isBlank c = false ∧ c ≠ ']' ∧ c ≠ '\x7d' := by
  cases d with
  | null => exact ⟨'n', _, rfl, by decide⟩
  | bool b =>
    cases b with
    | true => exact ⟨'t', _, rfl, by decide⟩
    | false => exact ⟨'f', _, rfl, by decide⟩
  | number n =>
    obtain ⟨c, s, text, begins⟩ := exists_number_eq_cons n
    refine ⟨c, s, text, begins.not_isBlank, ?_, ?_⟩
    · rintro rfl
      revert begins
      unfold BeginsNumber
      decide
    · rintro rfl
      revert begins
      unfold BeginsNumber
      decide
  | string s => exact ⟨'"', _, rfl, by decide⟩
  | array items =>
    cases items with
    | nil => exact ⟨'[', _, rfl, by decide⟩
    | cons d rest => exact ⟨'[', _, rfl, by decide⟩
  | object members =>
    cases members with
    | nil => exact ⟨'\x7b', _, rfl, by decide⟩
    | cons m rest => exact ⟨'\x7b', _, rfl, by decide⟩
  | unreadable => exact ⟨'n', _, rfl, by decide⟩

theorem skipBlanks_prettyChars (level : Nat) (d : Document) (s : List Char) :
    skipBlanks (d.prettyChars level ++ s) = d.prettyChars level ++ s := by
  obtain ⟨c, t, chars, not_blank, -⟩ := exists_prettyChars_eq_cons level d
  rw [chars]
  exact skipBlanks_cons not_blank _

/-! ## Reading what is written -/

mutual

/-- What is read of a document where only so many levels may open: what lies deeper is
unreadable. -/
def pruned (nesting : Nat) : Document → Document
  | .array items => within nesting (.array (prunedItems (nesting - 1) items))
  | .object members => within nesting (.object (prunedMembers (nesting - 1) members))
  | d => d

/-- Items, pruned. -/
def prunedItems (nesting : Nat) : List Document → List Document
  | [] => []
  | d :: rest => pruned nesting d :: prunedItems nesting rest

/-- Members, pruned. -/
def prunedMembers (nesting : Nat) : List (String × Document) → List (String × Document)
  | [] => []
  | (k, d) :: rest => (k, pruned nesting d) :: prunedMembers nesting rest

end

/-- The first item of a list comes after blanks. -/
theorem prettyItems_cons (level : Nat) (d : Document) (rest : List Document) :
    prettyItems level (d :: rest) = newline level ++ (prettyChars level d ++
      if rest.isEmpty then [] else ',' :: prettyItems level rest) := by
  cases rest with
  | nil => simp [prettyItems]
  | cons e rest =>
    rw [prettyItems]
    · rfl
    · intro h
      cases h

/-- The first member of an object comes after blanks. -/
theorem prettyMembers_cons (level : Nat) (k : String) (d : Document)
    (rest : List (String × Document)) :
    prettyMembers level ((k, d) :: rest) =
      newline level ++ ('"' :: (k.toList.flatMap escape ++ '"' :: ':' :: ' ' ::
        (prettyChars level d ++
          if rest.isEmpty then [] else ',' :: prettyMembers level rest))) := by
  cases rest with
  | nil => simp [prettyMembers, quote]
  | cons m rest =>
    rw [prettyMembers]
    · simp [quote]
    · intro h
      cases h

/-- No list that holds an item ends before the item. -/
theorem exists_skipBlanks_prettyItems (level : Nat) (d : Document) (rest : List Document)
    (s : List Char) :
    ∃ c t, skipBlanks (prettyItems level (d :: rest) ++ s) = c :: t ∧ c ≠ ']' := by
  obtain ⟨c, t, chars, -, not_bracket, -⟩ := exists_prettyChars_eq_cons level d
  rw [prettyItems_cons, List.append_assoc, skipBlanks_newline, List.append_assoc,
    skipBlanks_prettyChars, chars]
  exact ⟨c, _, rfl, not_bracket⟩

/-- An object that holds a member begins with its key. -/
theorem exists_skipBlanks_prettyMembers (level : Nat) (k : String) (d : Document)
    (rest : List (String × Document)) (s : List Char) :
    ∃ t, skipBlanks (prettyMembers level ((k, d) :: rest) ++ s) = '"' :: t := by
  rw [prettyMembers_cons, List.append_assoc, skipBlanks_newline, List.cons_append,
    skipBlanks_cons (by decide)]
  exact ⟨_, rfl⟩

/-- What follows an item or a member is another, or the closing bracket on a line of its own. -/
theorem ends_more (last : Bool) (more : List Char) (level : Nat) (s : List Char) :
    Ends ((if last then [] else ',' :: more) ++ (newline level ++ s)) := by
  cases last with
  | true => exact ends_newline level s
  | false => exact ends_comma _

mutual

/-- What is written is read, as far as the levels go. -/
theorem readValue_prettyChars : (d : Document) → d.Printable → ∀ (fuel nesting level : Nat)
    {rest : List Char}, Ends rest → 2 * (d.prettyChars level).length ≤ fuel →
      readValue fuel nesting (d.prettyChars level ++ rest) = some (d.pruned nesting, rest)
  | d, printable, fuel, nesting, level, rest, ends, enough => by
    -- Reading a value and looking for what follows it costs two steps, and no value is empty: so
    -- twice as many steps as characters are enough, and each call is left with enough for its part.
    have some_char : 0 < (d.prettyChars level).length := by
      obtain ⟨c, t, chars, -⟩ := exists_prettyChars_eq_cons level d
      simp [chars]
    obtain ⟨fuel, rfl⟩ : ∃ k, fuel = k + 1 := ⟨fuel - 1, by omega⟩
    match d with
    | .null => rfl
    | .bool true => rfl
    | .bool false => rfl
    | .number n =>
      obtain ⟨c, s, text, begins⟩ := exists_number_eq_cons n
      have read := readNumber_text printable ends
      rw [text] at read
      show readValue (fuel + 1) nesting (n.text.toList ++ rest) = _
      rw [text, List.cons_append, readValue_number begins]
      exact read
    | .string text =>
      show readValue (fuel + 1) nesting ('"' :: ((text.toList.flatMap escape ++ ['"']) ++ rest)) = _
      rw [readValue, List.append_assoc, List.singleton_append, readQuoted_quote]
      rfl
    | .array [] => rfl
    | .array (first :: others) =>
      rw [prettyChars, List.length_cons, List.length_append] at enough
      have read := readItems_prettyItems (first :: others) printable (List.cons_ne_nil _ _)
        fuel (nesting - 1) (level + 1) level rest (by omega)
      obtain ⟨c, s, inside, not_bracket⟩ := exists_skipBlanks_prettyItems (level + 1) first others
        (newline level ++ ']' :: rest)
      rw [prettyChars, List.cons_append, List.append_assoc, List.append_assoc,
        List.singleton_append, readValue]
      rw [inside] at read ⊢
      split
      · next heq =>
        cases heq
        exact absurd rfl not_bracket
      · rw [read]
        rfl
    | .object [] => rfl
    | .object ((k, first) :: others) =>
      rw [prettyChars, List.length_cons, List.length_append] at enough
      have read := readMembers_prettyMembers ((k, first) :: others) printable
        (List.cons_ne_nil _ _) fuel (nesting - 1) (level + 1) level rest (by omega)
      obtain ⟨s, inside⟩ := exists_skipBlanks_prettyMembers (level + 1) k first others
        (newline level ++ '\x7d' :: rest)
      rw [prettyChars, List.cons_append, List.append_assoc, List.append_assoc,
        List.singleton_append, readValue]
      rw [inside] at read ⊢
      split
      · next heq => cases heq
      · rw [read]
        rfl

/-- The items of a list are read up to the closing bracket. -/
theorem readItems_prettyItems : (items : List Document) → PrintableItems items → items ≠ [] →
    ∀ (fuel nesting level outer : Nat) (rest : List Char),
      2 * (prettyItems level items).length ≤ fuel →
      readItems fuel nesting
        (skipBlanks (prettyItems level items ++ (newline outer ++ ']' :: rest))) =
          some (prunedItems nesting items, rest)
  | [], _, some_item, _, _, _, _, _, _ => absurd rfl some_item
  | d :: others, printable, _, fuel, nesting, level, outer, rest, enough => by
    rw [prettyItems_cons] at enough ⊢
    simp only [List.length_append, newline, List.length_cons] at enough
    obtain ⟨fuel, rfl⟩ : ∃ k, fuel = k + 1 := ⟨fuel - 1, by omega⟩
    have first := readValue_prettyChars d printable.1 fuel nesting level
      (ends_more others.isEmpty (prettyItems level others) outer (']' :: rest))
      (by omega)
    rw [List.append_assoc, skipBlanks_newline, List.append_assoc, skipBlanks_prettyChars,
      readItems, first]
    match others with
    | [] =>
      have last : skipBlanks (newline outer ++ ']' :: rest) = ']' :: rest := by
        rw [skipBlanks_newline, skipBlanks_cons (by decide)]
      simp [last, prunedItems]
    | e :: others =>
      have comma (s : List Char) : skipBlanks (',' :: s) = ',' :: s := skipBlanks_cons (by decide) s
      simp only [List.isEmpty_cons, Bool.false_eq_true, if_false, List.length_cons] at enough
      have more := readItems_prettyItems (e :: others) printable.2 (List.cons_ne_nil _ _)
        fuel nesting level outer rest (by omega)
      simp [comma, more, prunedItems]

/-- The members of an object are read up to the closing brace. -/
theorem readMembers_prettyMembers : (members : List (String × Document)) →
    PrintableMembers members → members ≠ [] →
    ∀ (fuel nesting level outer : Nat) (rest : List Char),
      2 * (prettyMembers level members).length ≤ fuel →
      readMembers fuel nesting
        (skipBlanks (prettyMembers level members ++ (newline outer ++ '\x7d' :: rest))) =
          some (some (prunedMembers nesting members), rest)
  | [], _, some_member, _, _, _, _, _, _ => absurd rfl some_member
  | (k, d) :: others, printable, _, fuel, nesting, level, outer, rest, enough => by
    rw [prettyMembers_cons] at enough ⊢
    simp only [List.length_append, newline, List.length_cons] at enough
    obtain ⟨fuel, rfl⟩ : ∃ k, fuel = k + 1 := ⟨fuel - 1, by omega⟩
    have first := readValue_prettyChars d printable.1 fuel nesting level
      (ends_more others.isEmpty (prettyMembers level others) outer ('\x7d' :: rest))
      (by omega)
    have quoted (s : List Char) : skipBlanks ('"' :: s) = '"' :: s := skipBlanks_cons (by decide) s
    have colon (s : List Char) : skipBlanks (':' :: s) = ':' :: s := skipBlanks_cons (by decide) s
    have space (s : List Char) : skipBlanks (' ' :: s) = skipBlanks s := rfl
    simp only [List.append_assoc, List.cons_append, skipBlanks_newline, quoted, readMembers,
      readQuoted_quote, colon, space, skipBlanks_prettyChars, first]
    match others with
    | [] =>
      have last : skipBlanks (newline outer ++ '\x7d' :: rest) = '\x7d' :: rest := by
        rw [skipBlanks_newline, skipBlanks_cons (by decide)]
      simp [last, prunedMembers]
    | m :: others =>
      have comma (s : List Char) : skipBlanks (',' :: s) = ',' :: s := skipBlanks_cons (by decide) s
      simp only [List.isEmpty_cons, Bool.false_eq_true, if_false, List.length_cons] at enough
      have more := readMembers_prettyMembers (m :: others) printable.2 (List.cons_ne_nil _ _)
        fuel nesting level outer rest (by omega)
      simp [comma, more, prunedMembers]

end

/-- The text of a document is read as the document, as far as the levels go. -/
theorem read?_pretty {d : Document} (printable : d.Printable) :
    read? d.pretty = some (d.pruned maxNesting) := by
  have read := readValue_prettyChars d printable (2 * (d.prettyChars 0).length + 2) maxNesting 0
    ends_nil (by omega)
  have start := skipBlanks_prettyChars 0 d []
  rw [List.append_nil] at read start
  rw [read?, readPart, pretty, String.toList_ofList, start, read]
  rfl

/-! ## What is written means what it was -/

mutual

/-- A value that is written down means itself again, as far as the levels go. -/
theorem toJson?_pruned_ofJson : (v : Json) → v.Canonical → (nesting : Nat) →
    ((ofJson v).pruned nesting).toJson? = if (ofJson v).height ≤ nesting then some v else none
  | .null, _, _ => by simp [ofJson, pruned, toJson?, height]
  | .bool _, _, _ => by simp [ofJson, pruned, toJson?, height]
  | .number _, _, _ => by simp [ofJson, pruned, toJson?, height]
  | .string _, _, _ => by simp [ofJson, pruned, toJson?, height]
  | .array items, canonical, nesting => by
    cases nesting with
    | zero => simp [ofJson, pruned, within, toJson?, height]
    | succ n =>
      have inside := toItems?_pruned_ofItems items canonical n
      by_cases deep : itemsHeight (ofItems items) ≤ n <;>
        simp [ofJson, pruned, within, toJson?, height, inside, deep]
  | .object members, canonical, nesting => by
    cases nesting with
    | zero => simp [ofJson, pruned, within, toJson?, height]
    | succ n =>
      have inside := toMembers?_pruned_ofMembers members canonical.2 n
      have sorted := Assoc.ofList_eq_self canonical.1
      by_cases deep : membersHeight (ofMembers members) ≤ n <;>
        simp [ofJson, pruned, within, toJson?, height, inside, deep, sorted]

theorem toItems?_pruned_ofItems : (items : List Json) → Json.CanonicalItems items →
    (nesting : Nat) → toItems? (prunedItems nesting (ofItems items)) =
      if itemsHeight (ofItems items) ≤ nesting then some items else none
  | [], _, _ => by simp [ofItems, prunedItems, toItems?, itemsHeight]
  | v :: rest, canonical, nesting => by
    have first := toJson?_pruned_ofJson v canonical.1 nesting
    have others := toItems?_pruned_ofItems rest canonical.2 nesting
    have both : itemsHeight (ofJson v :: ofItems rest) ≤ nesting ↔
        (ofJson v).height ≤ nesting ∧ itemsHeight (ofItems rest) ≤ nesting := Nat.max_le
    by_cases deep : (ofJson v).height ≤ nesting <;>
      by_cases deeper : itemsHeight (ofItems rest) ≤ nesting <;>
        simp [ofItems, prunedItems, toItems?, both, first, others, deep, deeper]

theorem toMembers?_pruned_ofMembers : (members : List (String × Json)) →
    Json.CanonicalMembers members → (nesting : Nat) →
      toMembers? (prunedMembers nesting (ofMembers members)) =
        if membersHeight (ofMembers members) ≤ nesting then some members else none
  | [], _, _ => by simp [ofMembers, prunedMembers, toMembers?, membersHeight]
  | (k, v) :: rest, canonical, nesting => by
    have first := toJson?_pruned_ofJson v canonical.1 nesting
    have others := toMembers?_pruned_ofMembers rest canonical.2 nesting
    have both : membersHeight ((k, ofJson v) :: ofMembers rest) ≤ nesting ↔
        (ofJson v).height ≤ nesting ∧ membersHeight (ofMembers rest) ≤ nesting := Nat.max_le
    by_cases deep : (ofJson v).height ≤ nesting <;>
      by_cases deeper : membersHeight (ofMembers rest) ≤ nesting <;>
        simp [ofMembers, prunedMembers, toMembers?, both, first, others, deep, deeper]

end

end Document

end EventFlow
