import EventFlow.Template.Interpolate

/-!
# Where placeholders stand

`Writes` says which texts write a placeholder, and `Occurs` where such a text stands in another,
without a scanner. Two placeholders never overlap (`Occurs.apart`), so what becomes of a character
(`Becomes`) is a matter of the text alone and not of the order in which it is read: the first
character of a placeholder with a value becomes the text of the value, its other characters vanish,
and every other character stays. The pieces of a text are its placeholders and what stands between
them (`cuts_pieces`), and `interpolate` does to each character what is said here. The scanner is
`Template.pieces`, in `EventFlow.Template.Interpolate`.
-/

set_option autoImplicit false

namespace EventFlow.Template

open Text (isBlank)

/-! ## What writes a placeholder -/

/-- Keys with dots between them, each of letters, digits, `_` and `-`. -/
def IsPath (path : List Char) : Prop :=
  ∃ keys : List (List Char), keys ≠ [] ∧ (∀ key ∈ keys, key ≠ [] ∧ ∀ c ∈ key, isKeyChar c = true) ∧
    path = Text.joined '.' keys

/-- A path between double braces, with blanks around it. -/
def Writes (path written : List Char) : Prop :=
  IsPath path ∧ ∃ before after : List Char, (∀ c ∈ before, isBlank c = true) ∧
    (∀ c ∈ after, isBlank c = true) ∧
    written = ['\x7b', '\x7b'] ++ before ++ path ++ after ++ ['\x7d', '\x7d']

/-- No blank is part of a path. -/
theorem not_isBlank_of_isPathChar {c : Char} (h : isPathChar c = true) : isBlank c = false := by
  simp only [isPathChar, isKeyChar, Bool.or_eq_true, beq_iff_eq] at h
  rcases h with ((letter | rfl) | rfl) | rfl
  · exact Text.not_isBlank_of_isAlphanum letter
  · decide
  · decide
  · decide

/-- A blank ends a path. -/
theorem not_isPathChar_of_isBlank {c : Char} (h : isBlank c = true) : isPathChar c = false := by
  cases among : isPathChar c with
  | false => rfl
  | true => rw [not_isBlank_of_isPathChar among] at h; cases h

/-- The keys of a path are read off the path. -/
theorem isPath_iff {path : List Char} :
    IsPath path ↔ (∀ c ∈ path, isPathChar c = true) ∧ ∀ key ∈ Path.keys path, key ≠ [] := by
  constructor
  · rintro ⟨keys, some_key, among, rfl⟩
    have dotless : ∀ key ∈ keys, '.' ∉ key := by
      intro key hk dot
      have := (among key hk).2 '.' dot
      revert this
      decide
    refine ⟨?_, ?_⟩
    · intro c hc
      rcases Text.mem_joined hc with rfl | ⟨key, hk, inside⟩
      · decide
      · simp [isPathChar, (among key hk).2 c inside]
    · rw [Path.keys, Text.parts_joined some_key dotless]
      exact fun key hk => (among key hk).1
  · rintro ⟨among, filled⟩
    refine ⟨Path.keys path, Text.parts_ne_nil '.' path, ?_, (Text.joined_parts '.' path).symm⟩
    intro key hk
    refine ⟨filled key hk, ?_⟩
    intro c hc
    obtain ⟨inside, other⟩ := Text.mem_of_mem_parts hk hc
    simpa [isPathChar, other] using among c inside

/-- A path starts with one of its characters. -/
theorem IsPath.eq_cons {path : List Char} (h : IsPath path) :
    ∃ c rest, path = c :: rest ∧ isPathChar c = true := by
  obtain ⟨among, filled⟩ := isPath_iff.1 h
  cases path with
  | nil => exact absurd rfl (filled [] List.mem_cons_self)
  | cons c rest => exact ⟨c, rest, rfl, among c List.mem_cons_self⟩

/-- What stands at the start of a text and ends before a character of another kind. -/
theorem takeWhile_dropWhile_append {p : Char → Bool} {front : List Char}
    (all : ∀ c ∈ front, p c = true) {c : Char} (stop : p c = false) (rest : List Char) :
    (front ++ c :: rest).takeWhile p = front ∧ (front ++ c :: rest).dropWhile p = c :: rest := by
  rw [List.takeWhile_append_of_pos all, List.dropWhile_append_of_pos all]
  simp [stop]

/-- Characters of a path end before blanks and a closing brace. -/
theorem takeWhile_dropWhile_path {path after : List Char}
    (among : ∀ c ∈ path, isPathChar c = true) (blanks : ∀ c ∈ after, isBlank c = true)
    (rest : List Char) :
    (path ++ (after ++ '\x7d' :: rest)).takeWhile isPathChar = path ∧
      (path ++ (after ++ '\x7d' :: rest)).dropWhile isPathChar = after ++ '\x7d' :: rest := by
  cases after with
  | nil => exact takeWhile_dropWhile_append among (by decide) rest
  | cons c after =>
    exact takeWhile_dropWhile_append among
      (not_isPathChar_of_isBlank (blanks c List.mem_cons_self)) _

/-- The scanner finds a placeholder exactly where one is written. -/
theorem placeholder?_eq_some_iff {s : List Char} {p : Placeholder} :
    placeholder? s = some p ↔ Writes p.path p.written ∧ s = p.written ++ p.rest := by
  constructor
  · intro h
    refine ⟨?_, (written_append_rest h).symm⟩
    unfold placeholder? at h
    split at h
    · next s =>
      dsimp only at h
      split at h
      · next filled =>
        split at h
        · next rest closed =>
          cases h
          refine ⟨isPath_iff.2 ⟨?_, ?_⟩, _, _, ?_, ?_, rfl⟩
          · exact fun c hc => List.all_eq_true.1 List.all_takeWhile c hc
          · intro key hk
            simpa using List.all_eq_true.1 filled key hk
          · exact fun c hc => List.all_eq_true.1 List.all_takeWhile c hc
          · exact fun c hc => List.all_eq_true.1 List.all_takeWhile c hc
        · cases h
      · cases h
    · cases h
  · obtain ⟨path, written, rest⟩ := p
    dsimp only
    rintro ⟨⟨isPath, before, after, blanks, blanks', rfl⟩, rfl⟩
    obtain ⟨among, filled⟩ := isPath_iff.1 isPath
    obtain ⟨c, keys, rfl, first⟩ := isPath.eq_cons
    have opening := takeWhile_dropWhile_append blanks (not_isBlank_of_isPathChar first)
      (keys ++ (after ++ '\x7d' :: '\x7d' :: rest))
    have middle := takeWhile_dropWhile_path among blanks' ('\x7d' :: rest)
    have closing := takeWhile_dropWhile_append blanks' (c := '\x7d') (by decide) ('\x7d' :: rest)
    rw [List.cons_append] at middle
    have named : ((Path.keys (c :: keys)).all fun key => !key.isEmpty) = true := by
      simpa [List.all_eq_true] using filled
    simp only [placeholder?, List.cons_append, List.nil_append, List.append_assoc, opening,
      middle, closing, if_pos named]

/-- Past its first two characters, what writes a placeholder holds no opening brace. -/
theorem Writes.lt_two {path written : List Char} (h : Writes path written) {n : Nat}
    (brace : written[n]? = some '\x7b') : n < 2 := by
  obtain ⟨isPath, before, after, blanks, blanks', rfl⟩ := h
  have among := (isPath_iff.1 isPath).1
  rcases Nat.lt_or_ge n 2 with early | late
  · exact early
  obtain ⟨n, rfl⟩ := Nat.exists_eq_add_of_le late
  have inside : '\x7b' ∈ before ++ path ++ after ++ ['\x7d', '\x7d'] := by
    apply List.mem_of_getElem? (i := n)
    simpa [Nat.add_comm 2 n] using brace
  simp only [List.mem_append] at inside
  rcases inside with ((inside | inside) | inside) | inside
  · exact absurd (blanks _ inside) (by decide)
  · exact absurd (among _ inside) (by decide)
  · exact absurd (blanks' _ inside) (by decide)
  · exact absurd inside (by decide)

/-- A placeholder has braces and more. -/
theorem Writes.two_lt_length {path written : List Char} (h : Writes path written) :
    2 < written.length := by
  obtain ⟨-, before, after, -, -, rfl⟩ := h
  simp only [List.length_append, List.length_cons, List.length_nil]
  omega

/-- A placeholder begins with two braces. -/
theorem Writes.getElem?_of_lt_two {path written : List Char} (h : Writes path written) {n : Nat}
    (early : n < 2) : written[n]? = some '\x7b' := by
  obtain ⟨-, before, after, -, -, rfl⟩ := h
  match n, early with
  | 0, _ => rfl
  | 1, _ => rfl

/-! ## Where it stands -/

/-- What writes a placeholder stands in a text from a position on. -/
def Occurs (t : List Char) (start : Nat) (path written : List Char) : Prop :=
  Writes path written ∧ written <+: t.drop start

section Occurs

variable {t path written path' written' : List Char} {start start' : Nat}

/-- A placeholder occurs where the scanner finds it. -/
theorem occurs_iff :
    Occurs t start path written ↔
      placeholder? (t.drop start) = some ⟨path, written, t.drop (start + written.length)⟩ := by
  rw [placeholder?_eq_some_iff]
  refine and_congr_right fun _ => ?_
  constructor
  · rintro ⟨rest, h⟩
    rw [← List.drop_drop, ← h, List.drop_left]
  · intro h
    exact ⟨_, h.symm⟩

/-- The placeholder at the start of what is left of a text is one of the text. -/
theorem occurs_of_placeholder? {found : Placeholder}
    (h : placeholder? (t.drop start) = some found) :
    Occurs t start found.path found.written ∧
      found.rest = t.drop (start + found.written.length) := by
  obtain ⟨writes, cut⟩ := placeholder?_eq_some_iff.1 h
  refine ⟨⟨writes, found.rest, cut.symm⟩, ?_⟩
  rw [← List.drop_drop, cut, List.drop_left]

/-- The characters of a placeholder are those of the text. -/
theorem Occurs.getElem? (h : Occurs t start path written) {n : Nat} (inside : n < written.length) :
    t[start + n]? = written[n]? := by
  obtain ⟨rest, cut⟩ := h.2
  rw [← List.getElem?_drop, ← cut, List.getElem?_append_left inside]

/-- One placeholder at most starts at a position. -/
theorem Occurs.unique (h : Occurs t start path written) (h' : Occurs t start path' written') :
    path = path' ∧ written = written' := by
  have both := (occurs_iff.1 h).symm.trans (occurs_iff.1 h')
  injection both with both
  injection both with paths writtens
  exact ⟨paths, writtens⟩

/-- No placeholder starts inside another: its first two characters are braces, and of the
characters of the other one only the first two are. -/
theorem Occurs.le_of_lt (h : Occurs t start path written) (h' : Occurs t start' path' written')
    (later : start < start') : start + written.length ≤ start' := by
  rcases Nat.lt_or_ge start' (start + written.length) with overlap | apart
  · obtain ⟨n, rfl⟩ := Nat.exists_eq_add_of_lt later
    have long := h.1.two_lt_length
    have long' := h'.1.two_lt_length
    have first := h'.getElem? (n := 0) (by omega)
    rw [h'.1.getElem?_of_lt_two (by omega), Nat.add_zero, Nat.add_assoc,
      h.getElem? (by omega)] at first
    have second_brace := h.1.lt_two first
    have second := h'.getElem? (n := 1) (by omega)
    rw [h'.1.getElem?_of_lt_two (by omega), Nat.add_assoc, Nat.add_assoc,
      h.getElem? (by omega)] at second
    have := h.1.lt_two second
    omega
  · exact apart

/-- Two placeholders are the same or do not overlap. -/
theorem Occurs.apart (h : Occurs t start path written) (h' : Occurs t start' path' written') :
    (start = start' ∧ path = path' ∧ written = written') ∨
      start + written.length ≤ start' ∨ start' + written'.length ≤ start := by
  rcases Nat.lt_trichotomy start start' with later | rfl | earlier
  · exact .inr (.inl (h.le_of_lt h' later))
  · exact .inl ⟨rfl, h.unique h'⟩
  · exact .inr (.inr (h'.le_of_lt h earlier))

end Occurs

/-! ## The pieces of a text -/

/-- The pieces of a text from a position on: a placeholder wherever one stands, and a character
wherever none does. -/
inductive Cuts (t : List Char) : Nat → List Piece → Prop
  | done {k : Nat} (past : t.length ≤ k) : Cuts t k []
  | plain {k : Nat} {c : Char} {rest : List Piece} (here : t[k]? = some c)
      (free : ∀ path written, ¬ Occurs t k path written) (later : Cuts t (k + 1) rest) :
      Cuts t k (.plain c :: rest)
  | placeholder {k : Nat} {path written : List Char} {rest : List Piece}
      (here : Occurs t k path written) (later : Cuts t (k + written.length) rest) :
      Cuts t k (.placeholder path written :: rest)

/-- The pieces of a text from a place on cut it, by induction on the fuel. -/
theorem cuts_piecesFrom (t : List Char) {fuel k : Nat} (enough : t.length ≤ k + fuel) :
    Cuts t k (piecesFrom fuel (t.drop k)) := by
  induction fuel generalizing k with
  | zero => exact .done (by omega)
  | succ fuel ih =>
    cases left : t.drop k with
    | nil => exact .done (List.drop_eq_nil_iff.1 left)
    | cons c s =>
      rw [piecesFrom]
      split
      · next p found =>
        rw [← left] at found
        obtain ⟨here, rest⟩ := occurs_of_placeholder? found
        have := here.1.two_lt_length
        rw [rest]
        exact .placeholder here (ih (by omega))
      · next found =>
        have here : t[k]? = some c := by
          rw [← Nat.add_zero k, ← List.getElem?_drop, left, List.getElem?_cons_zero]
        have next : s = t.drop (k + 1) := by
          rw [← List.drop_drop, left, List.drop_succ_cons, List.drop_zero]
        rw [next]
        refine .plain here ?_ (ih (by omega))
        intro path written occurs
        rw [← left, occurs_iff.1 occurs] at found
        cases found

/-- The pieces of a text cut it. -/
theorem cuts_pieces (t : List Char) : Cuts t 0 (pieces t) :=
  cuts_piecesFrom t (by omega)

/-- The placeholders among the pieces are those that stand in the text from there on. -/
theorem Cuts.mem_iff {t : List Char} {k : Nat} {ps : List Piece} (h : Cuts t k ps)
    (path written : List Char) :
    .placeholder path written ∈ ps ↔ ∃ start, k ≤ start ∧ Occurs t start path written := by
  induction h with
  | @done k past =>
    constructor
    · intro none
      cases none
    · rintro ⟨start, from_k, writes, prefixed⟩
      have := prefixed.length_le
      have := writes.two_lt_length
      rw [List.length_drop] at *
      omega
  | @plain k c rest here free later ih =>
    rw [List.mem_cons, ih]
    constructor
    · rintro (nothing | ⟨start, from_k, occurs⟩)
      · cases nothing
      · exact ⟨start, by omega, occurs⟩
    · rintro ⟨start, from_k, occurs⟩
      refine .inr ⟨start, ?_, occurs⟩
      rcases Nat.eq_or_lt_of_le from_k with rfl | beyond
      · exact absurd occurs (free path written)
      · exact beyond
  | @placeholder k path' written' rest here later ih =>
    rw [List.mem_cons, ih]
    constructor
    · rintro (same | ⟨start, from_k, occurs⟩)
      · cases same
        exact ⟨k, Nat.le_refl k, here⟩
      · exact ⟨start, by omega, occurs⟩
    · rintro ⟨start, from_k, occurs⟩
      rcases Nat.eq_or_lt_of_le from_k with rfl | beyond
      · obtain ⟨rfl, rfl⟩ := here.unique occurs
        exact .inl rfl
      · exact .inr ⟨start, here.le_of_lt occurs beyond, occurs⟩

/-- The placeholders among the pieces of a text are those that stand in it. -/
theorem mem_pieces_iff {t path written : List Char} :
    .placeholder path written ∈ pieces t ↔ ∃ start, Occurs t start path written := by
  simp [(cuts_pieces t).mem_iff]

/-! ## What becomes of each character -/

/-- The value that a path leads to, which is not `null`. -/
def StandsFor (data : Json) (path : List Char) (v : Json) : Prop :=
  data.lookup (String.ofList path) = some v ∧ v ≠ .null

/-- A path stands for what is looked up. -/
theorem resolve_eq_some_iff {data : Json} {path : List Char} {v : Json} :
    resolve data path = some v ↔ StandsFor data path v := by
  unfold resolve StandsFor
  split
  · next absent =>
    refine ⟨nofun, ?_⟩
    rintro ⟨present, not_null⟩
    rw [absent] at present
    exact absurd (Option.some.inj present).symm not_null
  · next present =>
    refine ⟨fun h => ⟨h, ?_⟩, And.left⟩
    rintro rfl
    exact present h

/-- What stands in the result for the character at a position of the text. -/
inductive Becomes (data : Json) (t : List Char) (i : Nat) : List Char → Prop
  | value {path written : List Char} {v : Json} (occurs : Occurs t i path written)
      (value : StandsFor data path v) : Becomes data t i v.display.toList
  | inside {start : Nat} {path written : List Char} {v : Json}
      (occurs : Occurs t start path written) (value : StandsFor data path v) (after : start < i)
      (within : i < start + written.length) : Becomes data t i []
  | kept {c : Char} (here : t[i]? = some c)
      (free : ∀ start path written v, Occurs t start path written → StandsFor data path v →
        start ≤ i → start + written.length ≤ i) : Becomes data t i [c]

/-- A text with every placeholder that has a value replaced by the text of the value: each
character on its own, by where it stands in the text. -/
def Replaced (data : Json) (t r : List Char) : Prop :=
  ∃ each : List (List Char), each.length = t.length ∧
    (∀ i part, each[i]? = some part → Becomes data t i part) ∧ r = each.flatten

/-- A value stands for one thing, and a position is in one placeholder at most. -/
theorem Becomes.unique {data : Json} {t : List Char} {i : Nat} {part part' : List Char}
    (h : Becomes data t i part) (h' : Becomes data t i part') : part = part' := by
  -- If the two were of different kinds, placeholders would overlap, or the position be in none.
  cases h with
  | value occurs value =>
    cases h' with
    | value occurs' value' =>
      obtain ⟨rfl, -⟩ := occurs.unique occurs'
      obtain rfl : _ = _ := Option.some.inj (value.1.symm.trans value'.1)
      rfl
    | inside occurs' value' after within =>
      have := occurs'.le_of_lt occurs after
      omega
    | kept here free =>
      have := free _ _ _ _ occurs value (Nat.le_refl i)
      have := occurs.1.two_lt_length
      omega
  | inside occurs value after within =>
    cases h' with
    | value occurs' value' =>
      have := occurs.le_of_lt occurs' after
      omega
    | inside => rfl
    | kept here free =>
      have := free _ _ _ _ occurs value (Nat.le_of_lt after)
      omega
  | kept here free =>
    cases h' with
    | value occurs' value' =>
      have := free _ _ _ _ occurs' value' (Nat.le_refl i)
      have := occurs'.1.two_lt_length
      omega
    | inside occurs' value' after within =>
      have := free _ _ _ _ occurs' value' (Nat.le_of_lt after)
      omega
    | kept here' =>
      rw [here] at here'
      cases here'
      rfl

/-- A text has one replacement. -/
theorem Replaced.unique {data : Json} {t r r' : List Char} (h : Replaced data t r)
    (h' : Replaced data t r') : r = r' := by
  obtain ⟨each, length, becomes, rfl⟩ := h
  obtain ⟨each', length', becomes', rfl⟩ := h'
  congr 1
  apply List.ext_getElem (length.trans length'.symm)
  intro i inside inside'
  exact (becomes i _ (List.getElem?_eq_getElem inside)).unique
    (becomes' i _ (List.getElem?_eq_getElem inside'))

/-- No placeholder reaches from before a position to behind it. -/
def Clear (t : List Char) (k : Nat) : Prop :=
  ∀ start path written, Occurs t start path written → start < k → start + written.length ≤ k

section Clear

variable {t path written : List Char} {k : Nat}

/-- Nothing occurs before the beginning. -/
theorem clear_zero : Clear t 0 := by
  intro start path written _ before
  omega

/-- A character at which no placeholder occurs is clear of them. -/
theorem Clear.succ (h : Clear t k) (free : ∀ path written, ¬ Occurs t k path written) :
    Clear t (k + 1) := by
  intro start path written occurs before
  rcases Nat.lt_succ_iff_lt_or_eq.1 before with earlier | rfl
  · exact Nat.le_succ_of_le (h start path written occurs earlier)
  · exact absurd occurs (free path written)

/-- A placeholder is clear of others, as none begins inside of it. -/
theorem Clear.placeholder (here : Occurs t k path written) : Clear t (k + written.length) := by
  intro start path' written' occurs before
  rcases here.apart occurs with ⟨rfl, -, rfl⟩ | after | earlier
  · exact Nat.le_refl _
  · omega
  · omega

/-- Where no placeholder starts or reaches to, a character stays. -/
theorem Clear.becomes (h : Clear t k) (data : Json) {c : Char} (here : t[k]? = some c)
    (free : ∀ path written, ¬ Occurs t k path written) : Becomes data t k [c] := by
  refine .kept here ?_
  intro start path written v occurs _ upto
  rcases Nat.eq_or_lt_of_le upto with rfl | before
  · exact absurd occurs (free path written)
  · exact h start path written occurs before

end Clear

/-- The characters of a placeholder without a value stay. -/
theorem Occurs.becomes_kept {t path written : List Char} {k : Nat} (here : Occurs t k path written)
    {data : Json} (valueless : resolve data path = none) {n : Nat} {part : List Char}
    (h : (written.map fun c => [c])[n]? = some part) : Becomes data t (k + n) part := by
  rw [List.getElem?_map, Option.map_eq_some_iff] at h
  obtain ⟨c, at_n, rfl⟩ := h
  have inside : n < written.length := (List.getElem?_eq_some_iff.1 at_n).1
  refine .kept ((here.getElem? inside).trans at_n) ?_
  intro start path' written' v occurs value upto
  rcases here.apart occurs with ⟨rfl, rfl, rfl⟩ | after | before
  · rw [resolve_eq_some_iff.2 value] at valueless
    cases valueless
  · omega
  · omega

/-- The first character of a placeholder with a value becomes its text, the others vanish. -/
theorem Occurs.becomes_value {t path written : List Char} {k : Nat} (here : Occurs t k path written)
    {data v : Json} (value : StandsFor data path v) {n : Nat} {part : List Char}
    (h : (v.display.toList :: List.replicate (written.length - 1) [])[n]? = some part) :
    Becomes data t (k + n) part := by
  cases n with
  | zero =>
    cases h
    exact .value here value
  | succ n =>
    rw [List.getElem?_cons_succ, List.getElem?_replicate] at h
    split at h
    · cases h
      exact .inside here value (by omega) (by omega)
    · cases h

/-- What the characters of each piece become makes up the text that the pieces are rendered as. -/
theorem Cuts.each {t : List Char} {k : Nat} {ps : List Piece} (h : Cuts t k ps) (data : Json)
    (clear : Clear t k) :
    ∃ each : List (List Char), k + each.length = max k t.length ∧
      (∀ n part, each[n]? = some part → Becomes data t (k + n) part) ∧
      ps.flatMap (render data) = each.flatten := by
  induction h with
  | @done k past => exact ⟨[], by simp [past], by simp, rfl⟩
  | @plain k c rest here free later ih =>
    obtain ⟨each, length, becomes, rendered⟩ := ih (clear.succ free)
    have short : k < t.length := (List.getElem?_eq_some_iff.1 here).1
    refine ⟨[c] :: each, by rw [List.length_cons]; omega, ?_, ?_⟩
    · intro n part at_n
      cases n with
      | zero =>
        cases at_n
        exact clear.becomes data here free
      | succ n =>
        rw [show k + (n + 1) = k + 1 + n by omega]
        exact becomes n part at_n
    · rw [List.flatMap_cons, rendered, List.flatten_cons, render]
  | @placeholder k path written rest here later ih =>
    obtain ⟨each, length, becomes, rendered⟩ := ih (Clear.placeholder here)
    have long := here.1.two_lt_length
    have short := here.2.length_le
    rw [List.length_drop] at short
    -- the characters of the placeholder, followed by those of the pieces behind it
    have extend : ∀ front : List (List Char), front.length = written.length →
        front.flatten = render data (.placeholder path written) →
        (∀ n part, front[n]? = some part → Becomes data t (k + n) part) →
        ∃ each : List (List Char), k + each.length = max k t.length ∧
          (∀ n part, each[n]? = some part → Becomes data t (k + n) part) ∧
          (Piece.placeholder path written :: rest).flatMap (render data) = each.flatten := by
      intro front size shown becomes_front
      refine ⟨front ++ each, by rw [List.length_append]; omega, ?_, ?_⟩
      · intro n part at_n
        by_cases inside : n < front.length
        · rw [List.getElem?_append_left inside] at at_n
          exact becomes_front n part at_n
        · rw [List.getElem?_append_right (by omega)] at at_n
          have := becomes _ part at_n
          rwa [show k + written.length + (n - front.length) = k + n by omega] at this
      · rw [List.flatMap_cons, rendered, List.flatten_append, shown]
    cases value : resolve data path with
    | none =>
      refine extend (written.map fun c => [c]) (List.length_map _) ?_ ?_
      · rw [render, value, ← List.flatMap_def, List.flatMap_singleton']
      · exact fun n part at_n => here.becomes_kept value at_n
    | some v =>
      refine extend (v.display.toList :: List.replicate (written.length - 1) []) ?_ ?_ ?_
      · rw [List.length_cons, List.length_replicate]
        omega
      · simp [render, value]
      · exact fun n part at_n => here.becomes_value (resolve_eq_some_iff.1 value) at_n

/-- Interpolation replaces each placeholder that stands for something. -/
theorem replaced_interpolate (text : String) (data : Json) :
    Replaced data text.toList (interpolate text data).toList := by
  obtain ⟨each, length, becomes, rendered⟩ := (cuts_pieces text.toList).each data clear_zero
  refine ⟨each, by omega, ?_, ?_⟩
  · intro i part at_i
    rw [← Nat.zero_add i]
    exact becomes i part at_i
  · rw [interpolate, String.toList_ofList, rendered]

/-- There is but one text in which each placeholder is replaced. -/
theorem replaced_iff {text result : String} {data : Json} :
    Replaced data text.toList result.toList ↔ result = interpolate text data := by
  constructor
  · intro h
    exact String.toList_inj.1 (h.unique (replaced_interpolate text data))
  · rintro rfl
    exact replaced_interpolate text data

/-- Whether no placeholder in a text has a value. -/
def Unmoved (data : Json) (text : String) : Prop :=
  ∀ start path written v, Occurs text.toList start path written → ¬ StandsFor data path v

/-- A text without placeholders that stand for something stays as it is. -/
theorem Unmoved.interpolate_eq {data : Json} {text : String} (h : Unmoved data text) :
    interpolate text data = text := by
  refine (replaced_iff.1 ⟨text.toList.map fun c => [c], List.length_map _, ?_, ?_⟩).symm
  · intro i part at_i
    rw [List.getElem?_map, Option.map_eq_some_iff] at at_i
    obtain ⟨c, here, rfl⟩ := at_i
    refine .kept here ?_
    intro start path written v occurs value
    exact absurd value (h start path written v occurs)
  · rw [← List.flatMap_def, List.flatMap_singleton']

/-- The strict form answers if every placeholder stands for something, and then as the other. -/
theorem interpolate?_eq_some_iff {text result : String} {data : Json} :
    interpolate? text data = some result ↔
      (∀ start path written, Occurs text.toList start path written → ∃ v, StandsFor data path v) ∧
        result = interpolate text data := by
  have resolved : (pieces text.toList).all (isResolved data) = true ↔
      ∀ start path written, Occurs text.toList start path written →
        ∃ v, StandsFor data path v := by
    rw [List.all_eq_true]
    constructor
    · intro all start path written occurs
      have := all _ (mem_pieces_iff.2 ⟨start, occurs⟩)
      obtain ⟨v, value⟩ := Option.isSome_iff_exists.1 this
      exact ⟨v, resolve_eq_some_iff.1 value⟩
    · intro all piece among
      cases piece with
      | plain c => rfl
      | placeholder path written =>
        obtain ⟨start, occurs⟩ := mem_pieces_iff.1 among
        obtain ⟨v, value⟩ := all start path written occurs
        exact Option.isSome_iff_exists.2 ⟨v, resolve_eq_some_iff.2 value⟩
  unfold interpolate?
  split
  · next all =>
    rw [and_iff_right (resolved.1 all), Option.some_inj]
    exact eq_comm
  · next unresolved => exact ⟨nofun, fun h => absurd (resolved.2 h.1) unresolved⟩

/-- No two placeholders of a text overlap. What `interpolate` makes of the text is the one text in
which each character has become what it becomes by its place in the text, whatever the values put
in say, and it is the text itself where no placeholder has a value. With `interpolate?` there is
a result exactly if every placeholder has one. -/
theorem interpolate_replaces_each (text : String) (data : Json) :
    (∀ start path written start' path' written', Occurs text.toList start path written →
      Occurs text.toList start' path' written' →
      (start = start' ∧ path = path' ∧ written = written') ∨
        start + written.length ≤ start' ∨ start' + written'.length ≤ start) ∧
    (∀ result : String, Replaced data text.toList result.toList ↔
      result = interpolate text data) ∧
    (∀ result : String, interpolate? text data = some result ↔
      (∀ start path written, Occurs text.toList start path written → ∃ v, StandsFor data path v) ∧
        result = interpolate text data) ∧
    (Unmoved data text → interpolate text data = text) :=
  ⟨fun _ _ _ _ _ _ one other => one.apart other, fun _ => replaced_iff,
    fun _ => interpolate?_eq_some_iff, Unmoved.interpolate_eq⟩

example : interpolate "\x7b\x7b\x7ba\x7d\x7d\x7d"
    (.object [("a", .string "\x7b\x7bb\x7d\x7d"), ("b", .bool true)]) =
      "\x7b\x7b\x7bb\x7d\x7d\x7d" := by decide

end EventFlow.Template
