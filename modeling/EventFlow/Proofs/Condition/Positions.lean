import EventFlow.Proofs.Condition.Spelling

/-!
# Scanning by positions

`Token.scan` goes along the characters of a source. `Token.Positions.scan` finds the same tokens by
positions in an array: it looks ahead by two characters, searches a range of positions for the
braces that close a field, and cuts numbers, words and paths out between two positions. A look-up at
a position that must lie inside of the source has no answer elsewhere (`charAt`, `slice`), and then
nothing has. `Token.Positions.scan_eq` says that this never happens, and that the tokens and the
errors are the same. The scanner by characters is in `EventFlow.Condition.Token`.
-/

set_option autoImplicit false

namespace EventFlow.Token.Positions

section Scanner

variable (source : Array Char)

/-- The character at a position inside of the source. -/
def charAt (i : Nat) : Option Char := source[i]?

/-- The characters between two positions of the source, in this order. -/
def slice (start stop : Nat) : Option (List Char) :=
  if start ≤ stop ∧ stop ≤ source.size then some ((source.toList.drop start).take (stop - start))
  else none

/-- Whether two closing braces stand at a position; the second is looked at only after the first. -/
def closesAt (i : Nat) : Option Bool := do
  if (← charAt source i) = '\x7d' then return decide ((← charAt source (i + 1)) = '\x7d')
  else return Bool.false

/-- The first of so many positions from one on at which two closing braces stand. -/
def findClosing : (count i : Nat) → Option (Option Nat)
  | 0, _ => some none
  | count + 1, i => do
    if ← closesAt source i then return some i
    else findClosing count (i + 1)

/-- The text from a position up to the next quote of its kind, and the position after that quote.
The fuel is at least the number of characters from the position on. -/
def findQuote (quote : Char) : (fuel i : Nat) → Option (Option (List Char × Nat))
  | 0, _ => some none
  | fuel + 1, i =>
    match source[i]? with
    | none => some none
    | some c =>
      if c = '\\' ∧ i + 1 < source.size then do
        let next ← charAt source (i + 1)
        let found ← findQuote quote fuel (i + 2)
        return found.map fun (cs, stop) => (next :: cs, stop)
      else if c = quote then some (some ([], i + 1))
      else do
        let found ← findQuote quote fuel (i + 1)
        return found.map fun (cs, stop) => (c :: cs, stop)

/-- The end of the characters of a kind from a position on. The fuel is at least their number. -/
def runEnd (among : Char → Bool) : (fuel i : Nat) → Option Nat
  | 0, i => some i
  | fuel + 1, i =>
    if i < source.size then do
      if among (← charAt source i) then runEnd among fuel (i + 1) else return i
    else some i

/-- The field that opens at a position, and the position after it. -/
def fieldAt (i : Nat) : Option (Except SyntaxError (Token × Nat)) := do
  let start := i + 2
  match ← findClosing source (source.size - 1 - start) start with
  | none => return .error (.unterminatedField i)
  | some stop =>
    let path := Text.trim (← slice source start stop)
    if path.isEmpty then return .error (.emptyField i)
    else return .ok (.field (String.ofList path), stop + 2)

/-- The text that opens at a position, and the position after it. -/
def textAt (quote : Char) (i : Nat) : Option (Except SyntaxError (Token × Nat)) := do
  match ← findQuote source quote (source.size - (i + 1)) (i + 1) with
  | none => return .error (.unterminatedText i)
  | some (cs, stop) => return .ok (.text (String.ofList cs), stop)

/-- The number that starts at a position, and the position after it. -/
def numberAt (i : Nat) : Option (Except SyntaxError (Token × Nat)) := do
  let among := fun d => d.isDigit || d == '.'
  let stop ← runEnd source among (source.size - (i + 1)) (i + 1)
  let literal ← slice source i stop
  match Decimal.read? literal with
  | some n => return .ok (.number n, stop)
  | none => return .error (.invalidNumber (String.ofList literal))

/-- The word that starts at a position, and the position after it. -/
def wordAt (i : Nat) : Option (Except SyntaxError (Token × Nat)) := do
  let stop ← runEnd source (fun d => d.isAlphanum || d == '_') (source.size - i) i
  let word ← slice source i stop
  return (ofWord (String.ofList word)).map fun token => (token, stop)

/-- The number, the word or the unexpected character at a position where no other token starts. -/
def otherAt (c : Char) (i : Nat) : Option (Except SyntaxError (Token × Nat)) :=
  if startsNumber c source[i + 1]? then numberAt source i
  else if c.isAlpha || c == '_' then wordAt source i
  else some (.error (.unexpectedCharacter c i))

/-- The token at a position that is no blank, and the position after it. -/
def tokenAt (i : Nat) : Option (Except SyntaxError (Token × Nat)) := do
  let c ← charAt source i
  match c, source[i + 1]? with
  | '(', _ => return .ok (.leftParen, i + 1)
  | ')', _ => return .ok (.rightParen, i + 1)
  | '&', some '&' => return .ok (.and, i + 2)
  | '|', some '|' => return .ok (.or, i + 2)
  | '=', some '=' =>
    return .ok (.relation .equal, if source[i + 2]? = some '=' then i + 3 else i + 2)
  | '!', some '=' =>
    return .ok (.relation .notEqual, if source[i + 2]? = some '=' then i + 3 else i + 2)
  | '!', _ => return .ok (.not, i + 1)
  | '<', some '=' => return .ok (.relation .lessOrEqual, i + 2)
  | '<', _ => return .ok (.relation .less, i + 1)
  | '>', some '=' => return .ok (.relation .greaterOrEqual, i + 2)
  | '>', _ => return .ok (.relation .greater, i + 1)
  | '\x7b', some '\x7b' => fieldAt source i
  | '\'', _ => textAt source c i
  | '"', _ => textAt source c i
  | _, _ => otherAt source c i

/-- The tokens from a position on. The fuel is at least the number of characters there. -/
def scanFrom : (fuel i : Nat) → Option (Except SyntaxError (List Token))
  | 0, _ => some (.ok [])
  | fuel + 1, i =>
    if i < source.size then do
      if Text.isBlank (← charAt source i) then scanFrom fuel (i + 1)
      else
        match ← tokenAt source i with
        | .error e => return .error e
        | .ok (token, stop) => return (← scanFrom fuel stop).map (token :: ·)
    else some (.ok [])

/-- The tokens of a source, or no answer if a position outside of it was looked at. -/
def scan : Option (Except SyntaxError (List Token)) := scanFrom source source.size 0

end Scanner

/-! ## What lies after a position -/

/-- The characters from a position on. -/
def after (source : Array Char) (i : Nat) : List Char := source.toList.drop i

/-- As many characters lie after a position as the source has from there on. -/
theorem length_after (source : Array Char) (i : Nat) :
    (after source i).length = source.size - i := by
  rw [after, List.length_drop, Array.length_toList]

theorem getElem?_eq (source : Array Char) (i n : Nat) :
    source[i + n]? = (after source i)[n]? := by
  rw [after, List.getElem?_drop, Array.getElem?_toList]

/-- To go on by so many characters is to leave so many behind. -/
theorem after_add (source : Array Char) (i n : Nat) :
    after source (i + n) = (after source i).drop n := by
  rw [after, after, List.drop_drop]

variable {source : Array Char} {i : Nat} {c d : Char} {rest front others : List Char}

/-- To go on by one character is to leave that one behind. -/
theorem after_succ (h : after source i = c :: rest) : after source (i + 1) = rest := by
  rw [after_add, h]
  rfl

/-- The character at a position is the first of those after it. -/
theorem charAt_of_after (h : after source i = c :: rest) : charAt source i = some c := by
  have at_i := getElem?_eq source i 0
  rw [h] at at_i
  exact at_i

theorem getElem?_succ (h : after source i = c :: rest) : source[i + 1]? = rest.head? := by
  rw [getElem?_eq, h, List.head?_eq_getElem?]
  rfl

/-- Where something lies after a position, the position is inside. -/
theorem lt_of_after (h : after source i = c :: rest) : i < source.size := by
  have length := length_after source i
  rw [h, List.length_cons] at length
  omega

/-- What is cut out of the source from a position on are the first characters after it. -/
theorem slice_of_after (inside : i ≤ source.size) (h : after source i = front ++ others) :
    slice source i (i + front.length) = some front := by
  have length := length_after source i
  rw [h, List.length_append] at length
  rw [slice, if_pos ⟨Nat.le_add_right i _, by omega⟩, Nat.add_sub_cancel_left]
  show some ((after source i).take front.length) = some front
  rw [h, List.take_left]

/-! ## Nothing outside is looked at -/

/-- Whether two closing braces stand at a position can be told from the two characters after it. -/
theorem closesAt_eq (h : after source i = c :: d :: rest) :
    closesAt source i = some (decide (c = '\x7d' ∧ d = '\x7d')) := by
  have second := charAt_of_after (after_succ h)
  unfold closesAt
  rw [charAt_of_after h, second]
  by_cases first : c = '\x7d' <;> simp [first]

/-- The search for closing braces stays inside the source, and finds those of the scanner that reads
from the front. -/
theorem findClosing_eq (count : Nat) (enough : count = source.size - 1 - i) :
    findClosing source count i =
      some ((fieldUpTo (after source i)).map fun inside => i + inside.length) := by
  have length := length_after source i
  induction count generalizing i with
  | zero =>
    rcases h : after source i with _ | ⟨c, _ | ⟨d, rest⟩⟩
    · rfl
    · simp [findClosing, fieldUpTo]
    · rw [h] at length
      simp only [List.length_cons] at length
      omega
  | succ count ih =>
    rcases h : after source i with _ | ⟨c, _ | ⟨d, rest⟩⟩
    · rw [h] at length
      simp only [List.length_nil] at length
      omega
    · rw [h] at length
      simp only [List.length_cons, List.length_nil] at length
      omega
    · have later := ih (i := i + 1) (by omega) (length_after source (i + 1))
      rw [after_succ h] at later
      rw [findClosing, closesAt_eq h]
      by_cases both : c = '\x7d' ∧ d = '\x7d'
      · obtain ⟨rfl, rfl⟩ := both
        rfl
      · have apart : ∀ tail, c = '\x7d' → d :: rest = '\x7d' :: tail → False := by
          rintro tail first second
          exact both ⟨first, (List.cons.inj second).1⟩
        have plain : fieldUpTo (c :: d :: rest) = (fieldUpTo (d :: rest)).map (c :: ·) := by
          rw [fieldUpTo]
          exact apart
        rw [plain, Option.map_map, decide_eq_false both]
        show findClosing source count (i + 1) = _
        rw [later]
        congr 2
        funext inside
        show i + 1 + inside.length = i + (inside.length + 1)
        omega

/-- A run of characters ends inside the source, where the run at the front of the rest ends. -/
theorem runEnd_eq (among : Char → Bool) {fuel : Nat} (enough : source.size - i ≤ fuel) :
    runEnd source among fuel i = some (i + ((after source i).takeWhile among).length) := by
  rw [← length_after] at enough
  induction fuel generalizing i with
  | zero =>
    have none : after source i = [] := List.eq_nil_of_length_eq_zero (by omega)
    rw [none]
    rfl
  | succ fuel ih =>
    have length := length_after source i
    rcases h : after source i with _ | ⟨c, rest⟩
    · rw [h] at length
      rw [runEnd, if_neg (by simp only [List.length_nil] at length; omega)]
      rfl
    · have later := ih (i := i + 1)
      rw [after_succ h] at later
      rw [h] at enough
      rw [runEnd, if_pos (lt_of_after h), charAt_of_after h, List.takeWhile_cons]
      show (if among c = Bool.true then _ else _) = _
      split
      · rw [later (by simpa using enough), List.length_cons]
        congr 1
        omega
      · rfl

/-- A backslash that stands before some character does so at a position inside. -/
theorem not_escapes (h : after source i = c :: rest)
    (plain : ∀ d tail, c = '\\' → rest = d :: tail → False) :
    ¬ (c = '\\' ∧ i + 1 < source.size) := by
  rintro ⟨backslash, inside⟩
  have length := length_after source (i + 1)
  rw [after_succ h] at length
  cases rest with
  | nil =>
    rw [List.length_nil] at length
    omega
  | cons d tail => exact plain d tail backslash rfl

/-- The search for a closing quote stays inside the source, by induction on the fuel. -/
theorem findQuote_eq {quote : Char} (h : after source i = rest) (fuel : Nat)
    (enough : rest.length ≤ fuel) :
    findQuote source quote fuel i =
      some ((textUpTo quote rest).map fun (cs, n) => (cs, i + n)) := by
  have here := getElem?_eq source i 0
  rw [h, Nat.add_zero] at here
  -- The characters are at an end, escape one, begin with the quote, or with any other character.
  fun_induction textUpTo quote rest generalizing i fuel with
  | case1 =>
    cases fuel with
    | zero => rfl
    | succ fuel =>
      rw [findQuote, here]
      rfl
  | case2 c rest ih =>
    cases fuel with
    | zero => cases enough
    | succ fuel =>
      have inside := lt_of_after (after_succ h)
      have later := after_succ (after_succ h)
      have found := ih later fuel (by simp only [List.length_cons] at enough; omega)
        (by rw [getElem?_eq source (i + 2) 0, later])
      rw [findQuote, here]
      dsimp only [List.getElem?_cons_zero]
      rw [if_pos ⟨rfl, inside⟩, charAt_of_after (after_succ h), found]
      rcases textUpTo quote rest with _ | ⟨cs, n⟩
      · rfl
      · show some (some (c :: cs, i + 2 + n)) = some (some (c :: cs, i + (n + 2)))
        rw [Nat.add_assoc, Nat.add_comm 2 n]
  | case3 rest plain =>
    cases fuel with
    | zero => cases enough
    | succ fuel =>
      rw [findQuote, here]
      dsimp only [List.getElem?_cons_zero]
      rw [if_neg (not_escapes h plain), if_pos rfl]
      rfl
  | case4 c rest plain other ih =>
    cases fuel with
    | zero => cases enough
    | succ fuel =>
      have later := after_succ h
      have found := ih later fuel (by simp only [List.length_cons] at enough; omega)
        (by rw [getElem?_eq source (i + 1) 0, later])
      rw [findQuote, here]
      dsimp only [List.getElem?_cons_zero]
      rw [if_neg (not_escapes h plain), if_neg other, found]
      rcases textUpTo quote rest with _ | ⟨cs, n⟩
      · rfl
      · show some (some (c :: cs, i + 1 + n)) = some (some (c :: cs, i + (n + 1)))
        rw [Nat.add_assoc, Nat.add_comm 1 n]

/-- What is read at the start of the characters after a position, and the position after it. -/
def placed (i : Nat) (read : Except SyntaxError (Token × Nat)) :
    Except SyntaxError (Token × Nat) :=
  read.map fun (token, n) => (token, i + n)

/-- A field is read alike from a position and from the front of the rest. -/
theorem fieldAt_eq (h : after source i = c :: d :: rest) :
    fieldAt source i = some (placed i (readField i rest)) := by
  have start : after source (i + 2) = rest := after_succ (after_succ h)
  have inside := lt_of_after (after_succ h)
  rw [fieldAt, findClosing_eq _ rfl, start, readField]
  rcases closes : fieldUpTo rest with _ | path
  · rfl
  · obtain ⟨others, rfl, -⟩ := closesFirst_of_fieldUpTo closes
    have cut := slice_of_after inside start
    simp only [Option.map_some, Option.bind_eq_bind, Option.bind_some, cut, placed]
    split
    · rfl
    · show some (Except.ok _) = some (Except.ok _)
      rw [show i + 2 + path.length + 2 = i + (path.length + 4) by omega]

/-- A text is read alike from a position and from the front of the rest. -/
theorem textAt_eq {quote : Char} (h : after source i = c :: rest) :
    textAt source quote i = some (placed i (readText i quote rest)) := by
  have length := length_after source (i + 1)
  rw [after_succ h] at length
  rw [textAt, findQuote_eq (after_succ h) _ (by omega), readText]
  rcases textUpTo quote rest with _ | ⟨cs, n⟩
  · rfl
  · show some (Except.ok (Token.text (String.ofList cs), i + 1 + n)) =
      some (Except.ok (Token.text (String.ofList cs), i + (n + 1)))
    rw [Nat.add_assoc, Nat.add_comm 1 n]

/-- What a run after the first character cuts out. -/
theorem slice_run (among : Char → Bool) (h : after source i = c :: rest) :
    slice source i (i + (rest.takeWhile among).length + 1) =
      some (c :: rest.takeWhile among) := by
  have cut : after source i = (c :: rest.takeWhile among) ++ rest.dropWhile among := by
    rw [h, List.cons_append, List.takeWhile_append_dropWhile]
  exact slice_of_after (Nat.le_of_lt (lt_of_after h)) cut

/-- A number is read alike from a position and from the front of the rest. -/
theorem numberAt_eq (h : after source i = c :: rest) :
    numberAt source i = some (placed i (readNumber c rest)) := by
  have stops := runEnd_eq (fun d => d.isDigit || d == '.')
    (Nat.le_refl (source.size - (i + 1)))
  rw [after_succ h, Nat.add_right_comm] at stops
  simp only [numberAt, stops, slice_run _ h, readNumber, Option.bind_eq_bind, Option.bind_some]
  cases Decimal.read? (c :: rest.takeWhile fun d => d.isDigit || d == '.') <;> rfl

/-- A word is read alike from a position and from the front of the rest. -/
theorem wordAt_eq (h : after source i = c :: rest) (first : (c.isAlpha || c == '_') = Bool.true) :
    wordAt source i = some (placed i
      ((ofWord (String.ofList (c :: rest.takeWhile fun d => d.isAlphanum || d == '_'))).map
        fun token => (token, (c :: rest.takeWhile fun d => d.isAlphanum || d == '_').length))) := by
  have among : (c.isAlphanum || c == '_') = Bool.true := by
    rcases Bool.or_eq_true_iff.1 first with letter | line
    · rw [Char.isAlphanum, letter, Bool.true_or, Bool.true_or]
    · rw [line, Bool.or_true]
  have stops := runEnd_eq (fun d => d.isAlphanum || d == '_') (Nat.le_refl (source.size - i))
  rw [h, List.takeWhile_cons, if_pos among, List.length_cons, ← Nat.add_assoc] at stops
  simp only [wordAt, stops, slice_run _ h, Option.bind_eq_bind, Option.bind_some]
  cases ofWord (String.ofList (c :: rest.takeWhile fun d => d.isAlphanum || d == '_')) <;> rfl

theorem otherAt_eq (h : after source i = c :: rest) :
    otherAt source c i = some (placed i (readOther i c rest)) := by
  rw [otherAt, readOther, getElem?_succ h]
  split
  · exact numberAt_eq h
  · split
    · next first => exact wordAt_eq h first
    · rfl

/-- A third character belongs to a relation of two if it is an equals sign. -/
theorem next_doubled {r : Relation}
    (kind : c = '=' ∧ r = .equal ∨ c = '!' ∧ r = .notEqual) (rest : List Char) :
    next i (c :: '=' :: rest) =
      .ok (.relation r, if rest.head? = some '=' then 3 else 2) := by
  rcases kind with ⟨rfl, rfl⟩ | ⟨rfl, rfl⟩
  all_goals
    split
    · next third =>
      obtain ⟨tail, rfl⟩ := List.head?_eq_some_iff.1 third
      rfl
    · next third =>
      rw [next]
      rintro tail rfl
      exact third rfl

/-- Every token is read alike from a position and from the front of the rest. -/
theorem tokenAt_eq (h : after source i = c :: rest) :
    tokenAt source i = some (placed i (next i (c :: rest))) := by
  have second : source[i + 2]? = rest.tail.head? := by
    rw [getElem?_eq, h, List.head?_eq_getElem?]
    cases rest <;> rfl
  have apart {d : Char} (other : rest.head? = some d → False) (tail : List Char) :
      rest = d :: tail → False := by
    rintro rfl
    exact other rfl
  unfold tokenAt
  rw [charAt_of_after h, getElem?_succ h, second]
  dsimp only [Option.bind_eq_bind, Option.bind_some]
  split
  · rfl
  · rfl
  · next same =>
    obtain ⟨tail, rfl⟩ := List.head?_eq_some_iff.1 same
    rfl
  · next same =>
    obtain ⟨tail, rfl⟩ := List.head?_eq_some_iff.1 same
    rfl
  · next same =>
    obtain ⟨tail, rfl⟩ := List.head?_eq_some_iff.1 same
    rw [next_doubled (.inl ⟨rfl, rfl⟩), List.tail_cons]
    split <;> rfl
  · next same =>
    obtain ⟨tail, rfl⟩ := List.head?_eq_some_iff.1 same
    rw [next_doubled (.inr ⟨rfl, rfl⟩), List.tail_cons]
    split <;> rfl
  · next other =>
    rw [next]
    · rfl
    · exact fun tail => apart other ('=' :: tail)
    · exact apart other
  · next same =>
    obtain ⟨tail, rfl⟩ := List.head?_eq_some_iff.1 same
    rfl
  · next other =>
    rw [next]
    · rfl
    · exact apart other
  · next same =>
    obtain ⟨tail, rfl⟩ := List.head?_eq_some_iff.1 same
    rfl
  · next other =>
    rw [next]
    · rfl
    · exact apart other
  · next same =>
    obtain ⟨tail, rfl⟩ := List.head?_eq_some_iff.1 same
    exact fieldAt_eq h
  · exact textAt_eq h
  · exact textAt_eq h
  · rw [otherAt_eq h, next]
    -- Every other opening is one of the cases above.
    all_goals
      intros
      subst_vars
      simp_all

/-- The scanner never looks outside of its source, and its tokens are those read from the front. -/
theorem scanFrom_eq (fuel : Nat) :
    scanFrom source fuel i = some (Token.scanFrom fuel i (after source i)) := by
  induction fuel generalizing i with
  | zero =>
    cases after source i <;> rfl
  | succ fuel ih =>
    have length := length_after source i
    rcases h : after source i with _ | ⟨c, rest⟩
    · rw [h, List.length_nil] at length
      rw [scanFrom, if_neg (by omega)]
      rfl
    · rw [scanFrom, if_pos (lt_of_after h), charAt_of_after h, Token.scanFrom]
      dsimp only [Option.bind_eq_bind, Option.bind_some]
      split
      · rw [ih, after_succ h]
      · rw [tokenAt_eq h]
        cases next i (c :: rest) with
        | error e => rfl
        | ok read =>
          obtain ⟨token, n⟩ := read
          have later := ih (i := i + n)
          rw [after_add, h] at later
          dsimp only [placed, Except.map, Option.bind_some]
          rw [later]
          rfl

/-- Scanning by positions finds the same tokens and the same errors, and looks at no position
outside of the source. -/
theorem scan_eq (source : Array Char) : scan source = some (Token.scan source.toList) :=
  scanFrom_eq source.size

end EventFlow.Token.Positions
