import EventFlow.Condition.Token

/-!
# How tokens are spelled

`Token.Spelling` says which texts stand for a token: an operator or a word has one or two forms, a
text stands between quotes with backslashes where it needs them or anywhere else, a field between
the braces that open it and the first ones that close it, and a number is a numeral. `Token.Spelled`
puts spellings one after the other, with blanks around them. What the scanner reads at the start of
a source is a spelling (`spelling_of_next`), and it reads every spelling up to its end where a blank
or nothing follows (`next_of_spelling`). The scanner is `Token.next`, in
`EventFlow.Condition.Token`.
-/

set_option autoImplicit false

namespace EventFlow

namespace Text

theorem not_isAlpha_of_isDigit {c : Char} (h : c.isDigit = true) : c.isAlpha = false := by
  have digits : 48 ≤ c.toNat ∧ c.toNat ≤ 57 := by
    simpa [Char.isDigit, UInt32.le_iff_toNat_le] using h
  have letters : ¬ ((65 ≤ c.toNat ∧ c.toNat ≤ 90) ∨ (97 ≤ c.toNat ∧ c.toNat ≤ 122)) := by omega
  have tests : (decide (c.val ≥ 'A'.val ∧ c.val ≤ 'Z'.val) ||
      (decide (c.val ≥ 'a'.val) && decide (c.val ≤ 'z'.val))) = false := by
    simpa [UInt32.le_iff_toNat_le] using letters
  exact tests

end Text

namespace Token

open Text (isBlank)

/-! ## Spellings -/

/-- The forms of the tokens that say nothing but themselves. -/
def forms : Token → List String
  | leftParen => ["("]
  | rightParen => [")"]
  | and => ["&&"]
  | or => ["||"]
  | not => ["!"]
  | relation .equal => ["==", "==="]
  | relation .notEqual => ["!=", "!=="]
  | relation .less => ["<"]
  | relation .greater => [">"]
  | relation .lessOrEqual => ["<="]
  | relation .greaterOrEqual => [">="]
  | relation .contains => ["contains"]
  | field _ => []
  | text _ => []
  | number _ => []
  | true => ["true"]
  | false => ["false"]
  | null => ["null"]

/-- What stands between quotes of a kind, and the text it means: a backslash may stand before any
character, and must stand before a backslash and before the quote. -/
inductive Escaped (quote : Char) : List Char → List Char → Prop
  | nil : Escaped quote [] []
  | plain {c : Char} {body text : List Char} (backslash : c ≠ '\\') (other : c ≠ quote)
      (rest : Escaped quote body text) : Escaped quote (c :: body) (c :: text)
  | escaped (c : Char) {body text : List Char} (rest : Escaped quote body text) :
      Escaped quote ('\\' :: c :: body) (c :: text)

/-- Nowhere before the braces that close a field do two such braces stand together. -/
def ClosesFirst (inside : List Char) : Prop :=
  ∀ front after, inside ++ ['\x7d', '\x7d'] = front ++ '\x7d' :: '\x7d' :: after → after = []

/-- Whether a text starts as a number does. -/
def StartsNumber : List Char → Prop
  | [] => False
  | c :: rest => startsNumber c rest.head? = Bool.true

/-- The texts that stand for a token. -/
inductive Spelling : Token → List Char → Prop
  | form {t : Token} {s : String} (h : s ∈ t.forms) : Spelling t s.toList
  | text {quote : Char} (kind : quote = '\'' ∨ quote = '"') {body text : List Char}
      (means : Escaped quote body text) :
      Spelling (.text (String.ofList text)) (quote :: (body ++ [quote]))
  | field {inside path : List Char} (closes : ClosesFirst inside) (trims : Text.trim inside = path)
      (some_path : path ≠ []) :
      Spelling (.field (String.ofList path))
        ('\x7b' :: '\x7b' :: (inside ++ ['\x7d', '\x7d']))
  | number {sign run : List Char} (signed : sign = [] ∨ sign = ['-'])
      (digits : ∀ c ∈ run, c.isDigit = Bool.true ∨ c = '.') (starts : StartsNumber (sign ++ run))
      {n : Binary64.Rounded} (value : Decimal.read? (sign ++ run) = some n) :
      Spelling (.number n) (sign ++ run)

/-- A text that spells tokens one after the other, with blanks before, between and after them. What
comes after a spelling is of some kind. -/
inductive Spelled (Next : List Char → Prop) : List Token → List Char → Prop
  | done (blanks : List Char) (blank : ∀ c ∈ blanks, isBlank c = Bool.true) :
      Spelled Next [] blanks
  | more (blanks : List Char) {s after : List Char} {t : Token} {ts : List Token}
      (blank : ∀ c ∈ blanks, isBlank c = Bool.true) (spelling : Spelling t s) (next : Next after)
      (rest : Spelled Next ts after) : Spelled Next (t :: ts) (blanks ++ (s ++ after))

/-- Nothing follows, or a blank. -/
def Apart (after : List Char) : Prop := ∀ c ∈ after.head?, isBlank c = Bool.true

/-! ## Texts and fields -/

section Parts

variable {quote : Char} {body text inside after rest : List Char}

/-- A text between quotes ends with the first quote that is not escaped. -/
theorem textUpTo_append (kind : quote ≠ '\\') (means : Escaped quote body text)
    (after : List Char) :
    textUpTo quote (body ++ quote :: after) = some (text, body.length + 1) := by
  induction means with
  | nil =>
    rw [List.nil_append, textUpTo, if_pos rfl]
    · rfl
    · intro c rest same
      exact absurd same kind
  | plain backslash other rest ih =>
    rw [List.cons_append, textUpTo, if_neg other, ih]
    · rfl
    · intro c rest same
      exact absurd same backslash
  | escaped c rest ih =>
    rw [List.cons_append, List.cons_append, textUpTo, ih]
    rfl

/-- What was read between quotes is an escaped text. -/
theorem escaped_of_textUpTo {n : Nat} (h : textUpTo quote rest = some (text, n)) :
    ∃ body after, rest = body ++ quote :: after ∧ n = body.length + 1 ∧
      Escaped quote body text := by
  fun_induction textUpTo quote rest generalizing text n with
  | case1 => cases h
  | case2 c rest ih =>
    obtain ⟨⟨cs, m⟩, found, same⟩ := Option.map_eq_some_iff.1 h
    cases same
    obtain ⟨body, after, rfl, rfl, means⟩ := ih found
    exact ⟨'\\' :: c :: body, after, rfl, rfl, .escaped c means⟩
  | case3 rest =>
    cases h
    exact ⟨[], rest, rfl, rfl, .nil⟩
  | case4 c rest plain other ih =>
    obtain ⟨⟨cs, m⟩, found, same⟩ := Option.map_eq_some_iff.1 h
    cases same
    obtain ⟨body, after, rfl, rfl, means⟩ := ih found
    refine ⟨c :: body, after, rfl, rfl, .plain ?_ other means⟩
    -- A backslash stands before some character here, as the quote comes later.
    rintro rfl
    cases body with
    | nil => exact plain _ _ rfl rfl
    | cons d body => exact plain _ _ rfl rfl

/-- An empty field is closed at once. -/
theorem closesFirst_nil : ClosesFirst [] := by
  intro front after same
  have lengths := congrArg List.length same
  simp only [List.nil_append, List.length_cons, List.length_nil, List.length_append] at lengths
  exact List.eq_nil_of_length_eq_zero (by omega)

/-- One more character may stand in front, a brace only before another character. -/
theorem ClosesFirst.cons {c : Char} (h : ClosesFirst inside)
    (apart : c = '\x7d' → ∃ d rest, inside = d :: rest ∧ d ≠ '\x7d') :
    ClosesFirst (c :: inside) := by
  intro front after same
  cases front with
  | cons d front => exact h front after (List.cons.inj same).2
  | nil =>
    obtain ⟨rfl, others⟩ := List.cons.inj same
    obtain ⟨d, rest, rfl, other⟩ := apart rfl
    exact absurd (List.cons.inj others).1 other

/-- A field that is not closed before its end is not closed behind its first character. -/
theorem ClosesFirst.tail {c : Char} (h : ClosesFirst (c :: inside)) : ClosesFirst inside :=
  fun front after same => h (c :: front) after (by rw [List.cons_append, same, List.cons_append])

/-- A field ends with the first two closing braces. -/
theorem fieldUpTo_append (closes : ClosesFirst inside) (after : List Char) :
    fieldUpTo (inside ++ '\x7d' :: '\x7d' :: after) = some inside := by
  induction inside with
  | nil => rfl
  | cons c inside ih =>
    rw [List.cons_append, fieldUpTo, ih closes.tail, Option.map_some]
    -- Two braces right at the start would close the field before its end.
    rintro rest rfl same
    cases inside with
    | nil =>
      have short := closes [] ['\x7d'] rfl
      cases short
    | cons d inside =>
      obtain ⟨rfl, -⟩ := List.cons.inj same
      have short := closes [] (inside ++ ['\x7d', '\x7d']) rfl
      simp at short

/-- What was read of a field has no closing braces. -/
theorem closesFirst_of_fieldUpTo (h : fieldUpTo rest = some inside) :
    ∃ after, rest = inside ++ '\x7d' :: '\x7d' :: after ∧ ClosesFirst inside := by
  fun_induction fieldUpTo rest generalizing inside with
  | case1 after =>
    cases h
    exact ⟨after, rfl, closesFirst_nil⟩
  | case2 c rest plain ih =>
    obtain ⟨tail, found, rfl⟩ := Option.map_eq_some_iff.1 h
    obtain ⟨after, rfl, closes⟩ := ih found
    refine ⟨after, rfl, closes.cons ?_⟩
    rintro rfl
    cases tail with
    | nil => exact (plain _ rfl rfl).elim
    | cons d tail =>
      refine ⟨d, tail, rfl, ?_⟩
      rintro rfl
      exact plain _ rfl rfl
  | case3 => cases h

end Parts

/-! ## The scanner reads spellings -/

/-- A number starts with a digit, a sign or a point. -/
theorem isDigit_or_of_startsNumber {c : Char} {following : Option Char}
    (h : startsNumber c following = Bool.true) : c.isDigit = Bool.true ∨ c = '-' ∨ c = '.' := by
  simp only [startsNumber, Bool.or_eq_true, Bool.and_eq_true, beq_iff_eq] at h
  rcases h with (digit | ⟨minus, -⟩) | ⟨point, -⟩
  · exact .inl digit
  · exact .inr (.inl minus)
  · exact .inr (.inr point)

/-- A spelling has a first character, which is no blank. -/
theorem Spelling.exists_cons {t : Token} {s : List Char} (h : Spelling t s) :
    ∃ c rest, s = c :: rest ∧ isBlank c = Bool.false := by
  cases h with
  | @form t s h =>
    unfold forms at h
    split at h
    all_goals simp only [List.mem_cons, List.not_mem_nil, or_false] at h
    all_goals rcases h with rfl | rfl <;> exact ⟨_, _, rfl, by decide⟩
  | text kind means =>
    refine ⟨_, _, rfl, ?_⟩
    rcases kind with rfl | rfl <;> decide
  | field closes trims some_path => exact ⟨_, _, rfl, by decide⟩
  | @number sign run signed digits starts n value =>
    rcases hs : sign ++ run with _ | ⟨c, rest⟩
    · rw [hs] at starts
      exact starts.elim
    rw [hs] at starts
    refine ⟨c, rest, rfl, ?_⟩
    rcases isDigit_or_of_startsNumber starts with digit | rfl | rfl
    · exact Text.not_isBlank_of_isAlphanum (by simp [Char.isAlphanum, digit])
    · decide
    · decide

variable {position n : Nat} {t : Token} {source s rest after : List Char}

/-- What was read as a field is a spelling of its token. -/
theorem spelling_of_readField (h : readField position rest = .ok (t, n)) :
    ∃ s after, '\x7b' :: '\x7b' :: rest = s ++ after ∧ s.length = n ∧ Spelling t s := by
  unfold readField at h
  split at h
  · cases h
  · next inside found =>
    obtain ⟨after, rfl, closes⟩ := closesFirst_of_fieldUpTo found
    dsimp only at h
    split at h
    · cases h
    · next some_path =>
      cases h
      refine ⟨_, after, ?_, ?_, .field closes rfl (by simpa using some_path)⟩
      · simp
      · simp

/-- What was read between quotes is a spelling of its token. -/
theorem spelling_of_readText {quote : Char} (kind : quote = '\'' ∨ quote = '"')
    (h : readText position quote rest = .ok (t, n)) :
    ∃ s after, quote :: rest = s ++ after ∧ s.length = n ∧ Spelling t s := by
  unfold readText at h
  split at h
  · cases h
  · next text length found =>
    obtain ⟨body, after, rfl, rfl, means⟩ := escaped_of_textUpTo found
    cases h
    refine ⟨_, after, ?_, ?_, .text kind means⟩
    · simp
    · simp

/-- Whether a number starts is seen at its own characters. -/
theorem startsNumber_takeWhile {c : Char} (h : startsNumber c rest.head? = Bool.true) :
    StartsNumber (c :: rest.takeWhile fun d => d.isDigit || d == '.') := by
  cases rest with
  | nil => exact h
  | cons d rest =>
    rw [StartsNumber]
    by_cases among : (d.isDigit || d == '.') = Bool.true
    · rw [List.takeWhile_cons, if_pos among]
      exact h
    · rw [List.takeWhile_cons, if_neg among]
      simp only [Bool.or_eq_true, beq_iff_eq, not_or] at among
      simpa [startsNumber, among.1, among.2] using h

/-- What was read as a number is a spelling of its token. -/
theorem spelling_of_readNumber {c : Char} (starts : startsNumber c rest.head? = Bool.true)
    (h : readNumber c rest = .ok (t, n)) :
    ∃ s after, c :: rest = s ++ after ∧ s.length = n ∧ Spelling t s := by
  have digits : ∀ d ∈ rest.takeWhile (fun d => d.isDigit || d == '.'),
      d.isDigit = Bool.true ∨ d = '.' := fun d hd => by
    simpa using List.all_eq_true.1 List.all_takeWhile d hd
  have begins := startsNumber_takeWhile starts
  unfold readNumber at h
  dsimp only at h
  split at h
  · next value found =>
    cases h
    refine ⟨_, rest.dropWhile fun d => d.isDigit || d == '.', ?_, rfl, ?_⟩
    · rw [List.cons_append, List.takeWhile_append_dropWhile]
    · by_cases minus : c = '-'
      · subst minus
        exact .number (.inr rfl) digits begins found
      · refine .number (.inl rfl) (List.forall_mem_cons.2 ⟨?_, digits⟩) begins found
        exact (isDigit_or_of_startsNumber begins).imp_right fun h => h.resolve_left minus
  · cases h

/-- A word that is a token is one of its forms. -/
theorem mem_forms_of_ofWord {s : String} (h : ofWord s = .ok t) : s ∈ t.forms := by
  unfold ofWord at h
  split at h <;> cases h <;> decide

/-- What was read as a symbol or a word is a spelling of its token. -/
theorem spelling_of_readOther {c : Char} (h : readOther position c rest = .ok (t, n)) :
    ∃ s after, c :: rest = s ++ after ∧ s.length = n ∧ Spelling t s := by
  unfold readOther at h
  split at h
  · next starts => exact spelling_of_readNumber starts h
  · split at h
    · dsimp only at h
      cases word :
          ofWord (String.ofList (c :: rest.takeWhile fun d => d.isAlphanum || d == '_')) with
      | error e =>
        rw [word] at h
        cases h
      | ok token =>
        rw [word] at h
        cases h
        have spelling := Spelling.form (mem_forms_of_ofWord word)
        rw [String.toList_ofList] at spelling
        refine ⟨_, rest.dropWhile fun d => d.isAlphanum || d == '_', ?_, rfl, spelling⟩
        rw [List.cons_append, List.takeWhile_append_dropWhile]
    · cases h

/-- What is read at the start of a source is a spelling. -/
theorem spelling_of_next (h : next position source = .ok (t, n)) :
    ∃ s after, source = s ++ after ∧ s.length = n ∧ Spelling t s := by
  have form {t : Token} {source : List Char} {n : Nat} (s : String) (rest : List Char)
      (listed : s ∈ t.forms) (begins : source = s.toList ++ rest) (length : s.toList.length = n) :
      ∃ s after, source = s ++ after ∧ s.length = n ∧ Spelling t s :=
    ⟨s.toList, rest, begins, length, .form listed⟩
  unfold next at h
  split at h
  · cases h; exact form "(" _ (by decide) rfl rfl
  · cases h; exact form ")" _ (by decide) rfl rfl
  · cases h; exact form "&&" _ (by decide) rfl rfl
  · cases h; exact form "||" _ (by decide) rfl rfl
  · cases h; exact form "===" _ (by decide) rfl rfl
  · cases h; exact form "==" _ (by decide) rfl rfl
  · cases h; exact form "!==" _ (by decide) rfl rfl
  · cases h; exact form "!=" _ (by decide) rfl rfl
  · cases h; exact form "!" _ (by decide) rfl rfl
  · cases h; exact form "<=" _ (by decide) rfl rfl
  · cases h; exact form "<" _ (by decide) rfl rfl
  · cases h; exact form ">=" _ (by decide) rfl rfl
  · cases h; exact form ">" _ (by decide) rfl rfl
  · exact spelling_of_readField h
  · exact spelling_of_readText (.inl rfl) h
  · exact spelling_of_readText (.inr rfl) h
  · exact spelling_of_readOther h
  · cases h

/-! ## Spellings are read -/

section Apart

variable {c : Char} {word : List Char}

/-- What is set apart begins with no character but a blank. -/
theorem Apart.ne (apart : Apart (c :: rest)) {d : Char} (h : isBlank d = Bool.false) : c ≠ d := by
  rintro rfl
  have blank := apart c rfl
  rw [h] at blank
  cases blank

/-- Nothing of what comes behind belongs to the token, as a blank stands between. -/
theorem Apart.takeWhile_eq_nil (apart : Apart after) {p : Char → Bool}
    (h : ∀ c, p c = Bool.true → isBlank c = Bool.false) : after.takeWhile p = [] := by
  cases after with
  | nil => rfl
  | cons c rest =>
    rw [List.takeWhile_cons, if_neg]
    intro among
    exact apart.ne (h c among) rfl

/-- A run of characters ends where something is set apart. -/
theorem Apart.takeWhile_append (apart : Apart after) {p : Char → Bool}
    (h : ∀ c, p c = Bool.true → isBlank c = Bool.false) (all : ∀ c ∈ word, p c = Bool.true) :
    (word ++ after).takeWhile p = word := by
  rw [List.takeWhile_append_of_pos all, apart.takeWhile_eq_nil h, List.append_nil]

/-- The characters that begin the tokens other than words and numbers. -/
def openers : List Char := ['(', ')', '&', '|', '=', '!', '<', '>', '\x7b', '\'', '"']

/-- A character that opens no field, text or number begins a symbol or a word. -/
theorem next_eq_readOther (position : Nat) (h : c ∉ openers) (rest : List Char) :
    next position (c :: rest) = readOther position c rest := by
  rw [next]
  all_goals
    intros
    subst_vars
    exact h (by decide)

/-- A word is read to its end. -/
theorem next_of_word (position : Nat) (opens : c ∉ openers) (first : c.isAlpha = Bool.true)
    (all : ∀ d ∈ word, (d.isAlphanum || d == '_') = Bool.true)
    (listed : ofWord (String.ofList (c :: word)) = .ok t) (apart : Apart after) :
    next position (c :: word ++ after) = .ok (t, (c :: word).length) := by
  have run := apart.takeWhile_append (p := fun d => d.isAlphanum || d == '_')
    (fun d among => by
      rcases Bool.or_eq_true_iff.1 among with letter | line
      · exact Text.not_isBlank_of_isAlphanum letter
      · rw [beq_iff_eq.1 line]
        decide) all
  have no_number : ¬ startsNumber c (word ++ after).head? = Bool.true := by
    intro starts
    rcases isDigit_or_of_startsNumber starts with digit | rfl | rfl
    · rw [Text.not_isAlpha_of_isDigit digit] at first
      cases first
    · cases first
    · cases first
  rw [List.cons_append, next_eq_readOther position opens, readOther, if_neg no_number,
    if_pos (by rw [first, Bool.true_or])]
  dsimp only
  rw [run, listed]
  rfl

/-- A number is read to its end. -/
theorem next_of_number (position : Nat) (starts : StartsNumber (c :: word))
    (all : ∀ d ∈ word, d.isDigit = Bool.true ∨ d = '.') {value : Binary64.Rounded}
    (found : Decimal.read? (c :: word) = some value) (apart : Apart after) :
    next position (c :: word ++ after) = .ok (.number value, (c :: word).length) := by
  have run := apart.takeWhile_append (p := fun d => d.isDigit || d == '.')
    (fun d among => by
      rcases Bool.or_eq_true_iff.1 among with digit | point
      · exact Text.not_isBlank_of_isAlphanum (by simp [Char.isAlphanum, digit])
      · rw [beq_iff_eq.1 point]
        decide) (fun d hd => by simpa using all d hd)
  have opens : c ∉ openers := by
    have apart : (openers.all fun c => !(c.isDigit || c == '-' || c == '.')) = Bool.true := by
      decide
    intro among
    have other := List.all_eq_true.1 apart c among
    simp only [Bool.not_eq_true', Bool.or_eq_false_iff, beq_eq_false_iff_ne] at other
    rcases isDigit_or_of_startsNumber starts with digit | sign | point
    · exact Bool.false_ne_true (other.1.1.symm.trans digit)
    · exact other.1.2 sign
    · exact other.2 point
  have starts' : startsNumber c (word ++ after).head? = Bool.true := by
    cases word with
    | cons d word => exact starts
    | nil =>
      have digit : c.isDigit = Bool.true := by simpa [StartsNumber, startsNumber] using starts
      simp [startsNumber, digit]
  rw [List.cons_append, next_eq_readOther position opens, readOther, if_pos starts', readNumber,
    run, found]

/-- No token is prolonged by an equals sign behind it. -/
theorem Apart.no_equals (apart : Apart after) : ∀ rest, after = '=' :: rest → False := by
  rintro rest rfl
  exact apart.ne (by decide) rfl

/-- A form that is a word is read as its token. -/
theorem next_of_form_word (position : Nat) {form : String} (same : form.toList = c :: word)
    (opens : c ∉ openers) (first : c.isAlpha = Bool.true)
    (all : (word.all fun d => d.isAlphanum || d == '_') = Bool.true)
    (read : ofWord (String.ofList (c :: word)) = .ok t) (apart : Apart after) :
    next position (form.toList ++ after) = .ok (t, form.toList.length) := by
  rw [same]
  exact next_of_word position opens first (List.all_eq_true.1 all) read apart

/-- The forms of a relation are read, of `<` and `<=` the longer first. -/
theorem next_of_relation (position : Nat) {r : Relation} {form : String}
    (listed : form ∈ (relation r).forms) (apart : Apart after) :
    next position (form.toList ++ after) = .ok (.relation r, form.toList.length) := by
  have ends := apart.no_equals
  cases r with
  | equal =>
    rcases List.mem_cons.1 listed with rfl | listed
    · show next position ('=' :: '=' :: after) = _
      rw [next]
      · rfl
      · exact ends
    · obtain rfl := List.mem_singleton.1 listed
      rfl
  | notEqual =>
    rcases List.mem_cons.1 listed with rfl | listed
    · show next position ('!' :: '=' :: after) = _
      rw [next]
      · rfl
      · exact ends
    · obtain rfl := List.mem_singleton.1 listed
      rfl
  | less =>
    obtain rfl := List.mem_singleton.1 listed
    show next position ('<' :: after) = _
    rw [next]
    · rfl
    · exact ends
  | greater =>
    obtain rfl := List.mem_singleton.1 listed
    show next position ('>' :: after) = _
    rw [next]
    · rfl
    · exact ends
  | lessOrEqual =>
    obtain rfl := List.mem_singleton.1 listed
    rfl
  | greaterOrEqual =>
    obtain rfl := List.mem_singleton.1 listed
    rfl
  | contains =>
    obtain rfl := List.mem_singleton.1 listed
    exact next_of_form_word position rfl (by decide) (by decide) (by decide) rfl apart

/-- Every form of a token is read as this token. -/
theorem next_of_form (position : Nat) {form : String} (listed : form ∈ t.forms)
    (apart : Apart after) :
    next position (form.toList ++ after) = .ok (t, form.toList.length) := by
  cases t with
  | leftParen =>
    obtain rfl := List.mem_singleton.1 listed
    rfl
  | rightParen =>
    obtain rfl := List.mem_singleton.1 listed
    rfl
  | and =>
    obtain rfl := List.mem_singleton.1 listed
    rfl
  | or =>
    obtain rfl := List.mem_singleton.1 listed
    rfl
  | not =>
    obtain rfl := List.mem_singleton.1 listed
    show next position ('!' :: after) = _
    rw [next]
    · rfl
    · exact fun rest => apart.no_equals _
    · exact apart.no_equals
  | relation r => exact next_of_relation position listed apart
  | field path => cases listed
  | text s => cases listed
  | number n => cases listed
  | true =>
    obtain rfl := List.mem_singleton.1 listed
    exact next_of_form_word position rfl (by decide) (by decide) (by decide) rfl apart
  | false =>
    obtain rfl := List.mem_singleton.1 listed
    exact next_of_form_word position rfl (by decide) (by decide) (by decide) rfl apart
  | null =>
    obtain rfl := List.mem_singleton.1 listed
    exact next_of_form_word position rfl (by decide) (by decide) (by decide) rfl apart

/-- A quote ends a relation as a blank does. -/
theorem next_of_relation_quote (position : Nat) {r : Relation} {form : String}
    (listed : form ∈ (relation r).forms) {quote : Char} (kind : quote = '\'' ∨ quote = '"')
    (after : List Char) :
    next position (form.toList ++ quote :: after) = .ok (.relation r, form.toList.length) := by
  unfold forms at listed
  cases r
  all_goals simp only [List.mem_cons, List.not_mem_nil, or_false] at listed
  all_goals rcases kind with rfl | rfl <;> rcases listed with rfl | rfl <;> rfl

/-- The braces that close a field end it, whatever follows. -/
theorem next_of_field (position : Nat) {inside path : List Char} (closes : ClosesFirst inside)
    (trims : Text.trim inside = path) (some_path : path ≠ []) (after : List Char) :
    next position ('\x7b' :: '\x7b' :: (inside ++ ['\x7d', '\x7d']) ++ after) =
      .ok (.field (String.ofList path), (inside ++ ['\x7d', '\x7d']).length + 2) := by
  have read : readField position (inside ++ '\x7d' :: '\x7d' :: after) =
      .ok (.field (String.ofList path), inside.length + 4) := by
    rw [readField, fieldUpTo_append closes]
    dsimp only
    rw [trims, if_neg (by simpa using some_path)]
  simp only [List.cons_append, List.append_assoc, List.length_append]
  exact read

/-- A spelling is read up to its end where nothing or a blank follows. -/
theorem next_of_spelling (position : Nat) (spelling : Spelling t s) (apart : Apart after) :
    next position (s ++ after) = .ok (t, s.length) := by
  cases spelling with
  | form listed => exact next_of_form position listed apart
  | @text quote kind body text means =>
    have plain : quote ≠ '\\' := by rcases kind with rfl | rfl <;> decide
    have read : readText position quote (body ++ quote :: after) =
        .ok (.text (String.ofList text), body.length + 2) := by
      rw [readText, textUpTo_append plain means]
    simp only [List.cons_append, List.append_assoc, List.length_cons, List.length_append]
    rcases kind with rfl | rfl <;> exact read
  | field closes trims some_path => exact next_of_field position closes trims some_path after
  | @number sign run signed digits starts n value =>
    rcases signed with rfl | rfl
    · cases run with
      | nil => exact starts.elim
      | cons c run =>
        obtain ⟨-, digits⟩ := List.forall_mem_cons.1 digits
        exact next_of_number position starts digits value apart
    · exact next_of_number position starts digits value apart

end Apart

end Token

end EventFlow
