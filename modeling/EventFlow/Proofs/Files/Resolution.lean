import EventFlow.Files.Path
import EventFlow.Files.Tree
import Mathlib.Data.List.Infix

/-!
# Where paths lead

Without links, the place that a path leads to can be read off its segments: `FileTree.namesOf`. What
is written at a path is written there and nowhere else (`FileTree.append_eq_ok`), and the
directories that are made on the way to it are the places of its initial sections
(`FileTree.makeDirectories_parent`). A path that stays below a directory leads to the place of the
directory, with its own segments behind it (`FilePaths.namesOf_below`). `FileTree.walk` follows the
segments (`EventFlow.Files.Tree`), and `FilePaths.below` puts a path below another
(`EventFlow.Files.Path`).
-/

set_option autoImplicit false

namespace EventFlow

/-! ## Segments -/

namespace Text

/-- A text starts with the character exactly if its first part is empty, and not the only one. -/
theorem exists_cons_iff_parts {separator : Char} {s : List Char} :
    (∃ rest, s = separator :: rest) ↔ ∃ part others, parts separator s = [] :: part :: others := by
  cases s with
  | nil => simp [parts]
  | cons c rest =>
    rw [parts]
    by_cases same : c = separator
    · subst same
      rw [if_pos rfl]
      cases cut : parts c rest with
      | nil => exact absurd cut (parts_ne_nil c rest)
      | cons part others => simp
    · rw [if_neg same]
      cases cut : parts separator rest with
      | nil => exact absurd cut (parts_ne_nil separator rest)
      | cons part others => simp [same]

end Text

namespace FileTree

/-- The place above another, as far as names tell: the root is above itself, above dots there are
more dots, and above anything else is what it lies in. -/
def above (here : Names) : Names :=
  if here = root then root
  else if ∀ name ∈ here, name = dots then here ++ [dots]
  else here.dropLast

theorem up_eq_above (here : Names) : up here = above here := by
  unfold up above
  simp only [List.all_eq_true, beq_iff_eq]

/-- Where segments lead to from a place, whatever is there. -/
def resolved : Names → List (List Char) → Names
  | here, [] => here
  | here, segment :: rest =>
    if stays segment then resolved here rest
    else if segment = dots then resolved (above here) rest
    else resolved (here ++ [segment]) rest

/-- The segments that do not stay where they are. -/
def moving (segments : List (List Char)) : List (List Char) := segments.filter fun s => !stays s

/-- Where a path leads to. -/
def namesOf (path : String) : Names := resolved (origin path) (Text.parts '/' path.toList)

theorem resolved_append (here : Names) (first second : List (List Char)) :
    resolved here (first ++ second) = resolved (resolved here first) second := by
  induction first generalizing here with
  | nil => rfl
  | cons segment rest ih =>
    rw [List.cons_append, resolved, resolved]
    split
    · exact ih here
    · split <;> exact ih _

theorem resolved_singleton {segment : List Char} (moves : stays segment = false)
    (down : segment ≠ dots) (here : Names) : resolved here [segment] = here ++ [segment] := by
  rw [resolved, moves, if_neg Bool.false_ne_true, if_neg down, resolved]

/-- Segments that do not lead up lead down, one name for each that does not stay. -/
theorem resolved_eq_append {segments : List (List Char)} (down : dots ∉ segments) (here : Names) :
    resolved here segments = here ++ moving segments := by
  induction segments generalizing here with
  | nil => exact (List.append_nil here).symm
  | cons segment rest ih =>
    obtain ⟨apart, later⟩ := not_or.1 (mt List.mem_cons.2 down)
    rw [resolved, moving, List.filter_cons]
    split
    · next idle =>
      rw [idle, if_neg (by simp)]
      exact ih later here
    · next moves =>
      rw [if_neg (Ne.symm apart), if_pos (by simpa using moves), ih later, List.append_assoc]
      rfl

/-! ## Walking a tree -/

variable {t : FileTree} {here names : Names} {segment : List Char}

theorem resolved_of_enter (h : t.enter here segment = .ok names) :
    resolved here [segment] = names := by
  unfold enter at h
  rw [resolved, resolved, resolved, resolved]
  split at h
  · next idle =>
    cases h
    rw [if_pos idle]
  · next moves =>
    rw [if_neg moves]
    split at h
    · next leadsUp =>
      cases h
      rw [if_pos leadsUp, up_eq_above]
    · next down =>
      rw [if_neg down]
      split at h
      · cases h
      · dsimp only at h
        split at h
        · cases h
          rfl
        · split at h <;> cases h

/-- Only a segment that names something may be missing. -/
theorem moves_of_enter (h : t.enter here segment = .error .notFound) :
    stays segment = false ∧ segment ≠ dots := by
  unfold enter at h
  split at h
  · cases h
  · next moves =>
    split at h
    · cases h
    · next down => exact ⟨Bool.eq_false_iff.2 moves, down⟩

theorem resolved_of_walk {segments : List (List Char)} (h : t.walk here segments = .ok names) :
    resolved here segments = names := by
  induction segments generalizing here with
  | nil => exact Except.ok.inj h
  | cons segment rest ih =>
    rw [walk] at h
    split at h
    · next middle entered =>
      rw [← List.singleton_append, resolved_append, resolved_of_enter entered]
      exact ih h
    · cases h

/-- The segments of a path are its parts, if it is one at all. -/
theorem parts_of_segments {path : String} {all : List (List Char)} (h : segments path = .ok all) :
    Text.parts '/' path.toList = all := by
  unfold segments at h
  split at h
  · cases h
  · split at h
    · cases h
    · split at h
      · cases h
      · exact Except.ok.inj h

/-- The last name of a path, and the place before it, to which the segments before it lead. No
slashes follow it unless the end is closed. -/
theorem shown_of_ending {path : String} {e : Ending} (h : t.ending path = .ok (some e)) :
    ∃ before, t.walk (origin path) before = .ok e.here ∧
      (e.isClosed = false → Text.parts '/' path.toList = before ++ [e.last]) := by
  unfold ending at h
  split at h
  · cases h
  · next all cut =>
    rw [parts_of_segments cut]
    dsimp only at h
    have shorter : (all.reverse.dropWhile List.isEmpty).reverse <+: all := by
      simpa using List.reverse_prefix.2 (List.dropWhile_suffix (l := all.reverse) List.isEmpty)
    generalize (all.reverse.dropWhile List.isEmpty).reverse = shown at h shorter
    split at h
    · cases h
    · next last final =>
      cases walked : t.walk (origin path) shown.dropLast with
      | error e => rw [walked] at h; cases h
      | ok here =>
        rw [walked] at h
        cases h
        refine ⟨shown.dropLast, walked, ?_⟩
        intro opened
        have same : shown = all :=
          shorter.eq_of_length_le (Nat.not_lt.1 (of_decide_eq_false opened))
        rw [List.dropLast_append_getLast? last final, same]

/-- What is written at a path is written where the path leads to. -/
theorem namesOf_of_target {path : String} (h : t.target path = .ok names) :
    namesOf path = names := by
  unfold target at h
  cases found : t.ending path with
  | error e => rw [found] at h; cases h
  | ok found? =>
    rw [found] at h
    cases found? with
    | none => cases h
    | some e =>
      change (if e.isNameless || e.isClosed then _ else e.names t) = _ at h
      split at h
      · cases h
      · next plain =>
        rw [Bool.or_eq_true, not_or, Bool.not_eq_true, Bool.not_eq_true] at plain
        obtain ⟨before, here, whole⟩ := shown_of_ending found
        obtain ⟨moves, down⟩ := Bool.or_eq_false_iff.1 plain.1
        have named : e.here ++ [e.last] = names := by
          unfold Ending.names at h
          split at h
          · cases h
          · dsimp only at h
            split at h
            · cases h
            · exact Except.ok.inj h
        rw [namesOf, whole plain.2, resolved_append, resolved_of_walk here,
          resolved_singleton moves (by simpa using down), named]

/-- A text is appended to the file that its path leads to. -/
theorem append_eq_ok {path text : String} {t' : FileTree} (h : t.append path text = .ok t') :
    t' = t.setContent (namesOf path) ((t.content? (namesOf path)).getD "" ++ text) := by
  unfold append at h
  cases found : t.target path with
  | error e => rw [found] at h; cases h
  | ok names =>
    rw [found] at h
    rw [namesOf_of_target found]
    exact (Except.ok.inj h).symm

/-! ## Making directories -/

/-- Directories are made one below the other, each where the segments up to a name lead to. -/
theorem makeAll_adds (t : FileTree) (here : Names) (segments : List (List Char)) :
    ∃ new, (t.makeAll here segments).2 = { t with directories := t.directories ++ new } ∧
      ∀ d ∈ new, ∃ before segment, before ++ [segment] <+: segments ∧ stays segment = false ∧
        d = resolved here (before ++ [segment]) := by
  induction segments generalizing t here with
  | nil => exact ⟨[], by simp [makeAll], List.forall_mem_nil _⟩
  | cons segment rest ih =>
    have below (t' : FileTree) {names : Names} (leads : resolved here [segment] = names) :
        ∃ new, (t'.makeAll names rest).2 = { t' with directories := t'.directories ++ new } ∧
          ∀ d ∈ new, ∃ before last, before ++ [last] <+: segment :: rest ∧ stays last = false ∧
            d = resolved here (before ++ [last]) := by
      obtain ⟨new, made, among⟩ := ih t' names
      refine ⟨new, made, fun d hd => ?_⟩
      obtain ⟨before, last, inside, moves, rfl⟩ := among d hd
      refine ⟨segment :: before, last, List.cons_prefix_cons.2 ⟨rfl, inside⟩, moves, ?_⟩
      rw [← leads, ← resolved_append]
      rfl
    rw [makeAll]
    split
    · next names entered => exact below t (resolved_of_enter entered)
    · next missing =>
      obtain ⟨moves, down⟩ := moves_of_enter missing
      have leads := resolved_singleton moves down here
      obtain ⟨new, made, among⟩ := below (t.addDirectory (here ++ [segment])) leads
      refine ⟨(here ++ [segment]) :: new, ?_, List.forall_mem_cons.2 ⟨?_, among⟩⟩
      · rw [made, addDirectory]
        simp
      · exact ⟨[], segment, by simp, moves, leads.symm⟩
    · exact ⟨[], by simp, List.forall_mem_nil _⟩
    · exact ⟨[], by simp, List.forall_mem_nil _⟩

end FileTree

/-! ## The directory that a path is in -/

namespace FilePaths

open FileTree (stays moving dots resolved namesOf origin)

/-- What is left without the idle segments starts with one that moves, or is a lone dot. -/
theorem dropIdle_cases (relative : Bool) (segments : List (List Char)) :
    dropIdle relative segments = [] ∨
      ∃ segment rest, dropIdle relative segments = segment :: rest ∧ segment :: rest <:+ segments ∧
        (stays segment = false ∨ rest = []) := by
  induction segments with
  | nil => exact .inl rfl
  | cons segment rest ih =>
    cases rest with
    | nil =>
      rw [dropIdle]
      split
      · exact .inl rfl
      · exact .inr ⟨segment, [], rfl, List.suffix_rfl, .inr rfl⟩
    | cons other rest =>
      rw [dropIdle]
      split
      · refine ih.imp_right ?_
        rintro ⟨first, later, left, behind, moves⟩
        exact ⟨first, later, left, behind.trans (List.suffix_cons _ _), moves⟩
      · next moves =>
        exact .inr ⟨segment, _, rfl, List.suffix_rfl, .inl (Bool.eq_false_iff.2 moves)⟩
      · exact List.cons_ne_nil other rest

theorem dropIdle_suffix (relative : Bool) (segments : List (List Char)) :
    dropIdle relative segments <:+ segments := by
  rcases dropIdle_cases relative segments with none_left | ⟨segment, rest, left, behind, -⟩
  · rw [none_left]
    exact List.nil_suffix
  · rwa [left]

/-- The segments that are kept of a path for its directory are the first of it, and one that moves
is left out, unless none is kept. -/
theorem kept_of_dropIdle {relative : Bool} {segments rest : List (List Char)} {last : List Char}
    (h : dropIdle relative segments.reverse = last :: rest) :
    (dropIdle relative rest).reverse = [] ∨
      ∃ out, segments = (dropIdle relative rest).reverse ++ out ∧ moving out ≠ [] := by
  rcases dropIdle_cases relative segments.reverse with none_left | ⟨_, _, left, behind, moves⟩
  · cases h.symm.trans none_left
  · cases h.symm.trans left
    rcases moves with moves | rfl
    · obtain ⟨between, split⟩ := List.reverse_prefix.2 (dropIdle_suffix relative rest)
      obtain ⟨after, whole⟩ := List.reverse_prefix.2 behind
      rw [List.reverse_reverse, List.reverse_cons, ← split] at whole
      refine .inr ⟨between ++ [last] ++ after, ?_, ?_⟩
      · rw [← whole]
        simp
      · simp [moving, moves]
    · exact .inl rfl

theorem startsWith_slash_iff {path : String} :
    path.startsWith "/" = true ↔ ∃ rest, path.toList = '/' :: rest := by
  rw [String.startsWith_string_iff]
  exact exists_congr fun rest => eq_comm

/-- Two paths start from one place if both or neither start at the root. -/
theorem origin_congr {first second : String}
    (same : (∃ rest, first.toList = '/' :: rest) ↔ ∃ rest, second.toList = '/' :: rest) :
    origin first = origin second := by
  rw [← startsWith_slash_iff, ← startsWith_slash_iff, ← Bool.eq_iff_iff] at same
  rw [origin, origin, same]

/-- How the directory of a path is found: behind the root, if the path starts there. -/
theorem cut_of_parent {path directory : String} (h : parent? path = some directory) :
    ∃ relative body last rest,
      path.toList = (if relative then body else '/' :: body) ∧
      (relative = true → ∀ s, body ≠ '/' :: s) ∧
      dropIdle relative (Text.parts '/' body).reverse = last :: rest ∧
      directory.toList =
        (if relative then Text.joined '/' (dropIdle relative rest).reverse
          else '/' :: Text.joined '/' (dropIdle relative rest).reverse) := by
  unfold parent? at h
  split at h
  next relative body start =>
    have shown : path.toList = (if relative then body else '/' :: body) ∧
        (relative = true → ∀ s, body ≠ '/' :: s) := by
      split at start
      · next rest rooted =>
        cases start
        exact ⟨rooted, fun wrong => (Bool.false_ne_true wrong).elim⟩
      · next plain =>
        cases start
        exact ⟨rfl, fun _ s => plain s⟩
    split at h
    · cases h
    · next last rest left =>
      cases h
      exact ⟨relative, body, last, rest, shown.1, shown.2, left, String.toList_ofList⟩

/-- The directory of a path leads nowhere, or its segments are the first of the path, and one that
moves is left out. -/
theorem parts_of_parent {path directory : String} (h : parent? path = some directory) :
    (∀ s ∈ Text.parts '/' directory.toList, stays s = true) ∨
      ∃ out, Text.parts '/' path.toList = Text.parts '/' directory.toList ++ out ∧ moving out ≠ [] ∧
        origin directory = origin path := by
  obtain ⟨relative, body, last, rest, start, plain, left, shown⟩ := cut_of_parent h
  by_cases some_kept : (dropIdle relative rest).reverse = []
  · rw [some_kept] at shown
    refine .inl ?_
    rw [shown]
    cases relative <;> simp [Text.joined, Text.parts, stays]
  · obtain ⟨out, whole, moves⟩ := (kept_of_dropIdle left).resolve_left some_kept
    -- What is kept is found again when the directory is cut.
    have cut : Text.parts '/' (Text.joined '/' (dropIdle relative rest).reverse) =
        (dropIdle relative rest).reverse := by
      refine Text.parts_joined some_kept fun part among inside => ?_
      have there : part ∈ Text.parts '/' body := by
        rw [whole]
        exact List.mem_append_left out among
      exact (Text.mem_of_mem_parts there inside).2 rfl
    refine .inr ⟨out, ?_, moves, origin_congr ?_⟩
    · cases relative with
      | true => rw [start, shown, if_pos rfl, if_pos rfl, cut, whole]
      | false =>
        rw [start, shown, if_neg Bool.false_ne_true, if_neg Bool.false_ne_true, Text.parts,
          if_pos rfl, Text.parts, if_pos rfl, cut, whole, List.cons_append]
    · cases relative with
      | true =>
        rw [if_pos rfl] at start shown
        rw [start, shown]
        refine iff_of_false ?_ (not_exists.2 fun s rooted => plain rfl s rooted)
        intro rooted
        obtain ⟨part, others, first⟩ := Text.exists_cons_iff_parts.1 rooted
        rw [cut] at first
        rw [first] at whole
        obtain ⟨s, rooted⟩ := Text.exists_cons_iff_parts.2 ⟨part, others ++ out, whole⟩
        exact plain rfl s rooted
      | false =>
        rw [if_neg Bool.false_ne_true] at start shown
        rw [start, shown]
        exact iff_of_true ⟨_, rfl⟩ ⟨_, rfl⟩

end FilePaths

namespace FileTree

/-- The directories that are made on the way to a path are where first sections of its segments lead
to, behind which a segment still moves. -/
theorem makeDirectories_parent (t : FileTree) (path : String) :
    ∃ new, (t.makeDirectories ((FilePaths.parent? path).getD "")).2 =
        { t with directories := t.directories ++ new } ∧
      ∀ d ∈ new, ∃ first rest, Text.parts '/' path.toList = first ++ rest ∧ moving rest ≠ [] ∧
        d = resolved (origin path) first := by
  have untouched : ∃ new, t = { t with directories := t.directories ++ new } ∧
      ∀ d ∈ new, ∃ first rest, Text.parts '/' path.toList = first ++ rest ∧ moving rest ≠ [] ∧
        d = resolved (origin path) first := ⟨[], by simp, List.forall_mem_nil _⟩
  unfold makeDirectories
  split
  · exact untouched
  · next some_path =>
    split
    · next all cut =>
      obtain ⟨new, made, among⟩ := t.makeAll_adds (origin ((FilePaths.parent? path).getD "")) all
      refine ⟨new, made, fun d hd => ?_⟩
      obtain ⟨before, last, ⟨after, inside⟩, moves, rfl⟩ := among d hd
      cases found : FilePaths.parent? path with
      | none =>
        rw [found] at some_path
        exact absurd rfl some_path
      | some directory =>
        rw [found, Option.getD_some] at cut
        have parts := parts_of_segments cut
        rcases FilePaths.parts_of_parent found with idle | ⟨out, whole, leaves, same⟩
        · have there : last ∈ Text.parts '/' directory.toList := by
            rw [parts, ← inside]
            simp
          rw [idle last there] at moves
          cases moves
        · refine ⟨before ++ [last], after ++ out, ?_, ?_, by rw [Option.getD_some, same]⟩
          · rw [whole, parts, ← inside, List.append_assoc]
          · rw [moving, List.filter_append]
            exact fun none_left => leaves (List.append_eq_nil_iff.1 none_left).2
    · exact untouched

end FileTree

namespace FilePaths

open FileTree (moving dots resolved namesOf origin resolved_append resolved_eq_append)

/-! ## Paths below a directory -/

/-- A path below a directory has the segments of the directory, and its own behind them. -/
theorem parts_below (base : String) {path : String}
    (relative : ¬ ∃ rest, path.toList = '/' :: rest) :
    (∃ lead, Text.parts '/' (below base path).toList = lead ++ Text.parts '/' path.toList ∧
      (Text.parts '/' base.toList = lead ∨ Text.parts '/' base.toList = lead ++ [[]])) ∧
    origin (below base path) = origin base := by
  unfold below
  split
  · next empty =>
    have nothing : base.toList = [] := by simpa using empty
    refine ⟨⟨[], rfl, .inr (by rw [nothing]; rfl)⟩, origin_congr ?_⟩
    rw [nothing]
    exact iff_of_false relative (by simp)
  · next some_base =>
    split
    · next closed =>
      obtain ⟨lead, whole⟩ : ∃ lead, base.toList = lead ++ ['/'] := by
        rw [String.endsWith_eq_endsWith_toSlice, String.Slice.endsWith_string_iff] at closed
        obtain ⟨lead, whole⟩ := closed
        exact ⟨lead, by simpa using whole.symm⟩
      have cut : (base ++ path).toList = lead ++ '/' :: path.toList := by simp [whole]
      refine ⟨⟨Text.parts '/' lead, ?_, .inr ?_⟩, origin_congr ?_⟩
      · rw [cut, Text.parts_append_separator]
      · rw [whole, Text.parts_append_separator]
        rfl
      · rw [cut, whole]
        cases lead <;> simp
    · next opened =>
      have cut : (base ++ "/" ++ path).toList = base.toList ++ '/' :: path.toList := by simp
      refine ⟨⟨_, ?_, .inl rfl⟩, origin_congr ?_⟩
      · rw [cut, Text.parts_append_separator]
      · rw [cut]
        cases start : base.toList with
        | nil => exact absurd (by simpa using start) some_base
        | cons c rest => simp

/-- Whether a path stays below the directory it starts from can be read off its text. -/
theorem staysBelow_iff {path : String} :
    staysBelow path = true ↔
      path ≠ "" ∧ (¬ ∃ rest, path.toList = '/' :: rest) ∧ dots ∉ Text.parts '/' path.toList := by
  rw [ne_eq, ← String.toList_eq_nil_iff, staysBelow]
  split
  · next empty => simp [empty]
  · next rest rooted => simp [rooted]
  · next some_path plain =>
    rw [Bool.not_eq_true', ← Bool.not_eq_true, List.contains_iff_mem]
    exact ⟨fun down => ⟨some_path, fun ⟨rest, rooted⟩ => plain rest rooted, down⟩, fun h => h.2.2⟩

/-- A closing slash does not change the place of a directory. -/
theorem namesOf_of_lead {base : String} {lead : List (List Char)}
    (h : Text.parts '/' base.toList = lead ∨ Text.parts '/' base.toList = lead ++ [[]]) :
    namesOf base = resolved (origin base) lead := by
  rcases h with led | led
  · rw [namesOf, led]
  · rw [namesOf, led, resolved_append]
    rfl

/-- A path below a directory leads to the place of the directory, and from there down along those of
its segments that move. -/
theorem namesOf_below {base path : String} (h : staysBelow path = true) :
    namesOf (below base path) = namesOf base ++ moving (Text.parts '/' path.toList) := by
  obtain ⟨-, relative, down⟩ := staysBelow_iff.1 h
  obtain ⟨⟨lead, whole, led⟩, same⟩ := parts_below base relative
  rw [namesOf, whole, resolved_append, same, ← namesOf_of_lead led, resolved_eq_append down]

theorem origin_below {base path : String} (h : staysBelow path = true) :
    origin (below base path) = origin base := (parts_below base (staysBelow_iff.1 h).2.1).2

/-- `OnTheWay base path d`: the directory is on the way to a path below a base. It is a place that
the base leads through, or the path behind it, and not yet the place that they lead to. -/
inductive OnTheWay (base path : String) : Names → Prop
  | before {first rest : List (List Char)} (split : Text.parts '/' base.toList = first ++ rest)
      (ahead : moving rest ≠ [] ∨ moving (Text.parts '/' path.toList) ≠ []) :
      OnTheWay base path (resolved (origin base) first)
  | below {first rest : List (List Char)}
      (split : moving (Text.parts '/' path.toList) = first ++ rest) (ahead : rest ≠ []) :
      OnTheWay base path (namesOf base ++ first)

theorem onTheWay_of_parts {base path : String} {first rest : List (List Char)}
    (h : staysBelow path = true) (split : Text.parts '/' (below base path).toList = first ++ rest)
    (ahead : moving rest ≠ []) : OnTheWay base path (resolved (origin base) first) := by
  obtain ⟨-, relative, down⟩ := staysBelow_iff.1 h
  obtain ⟨lead, whole, led⟩ := (parts_below base relative).1
  have start : namesOf base = resolved (origin base) lead := namesOf_of_lead led
  rw [whole] at split
  rcases List.append_eq_append_iff.1 split with ⟨deeper, rfl, own⟩ | ⟨left, rfl, rfl⟩
  · -- The place is one behind the base.
    have down : dots ∉ deeper := fun up => down (own ▸ List.mem_append_left rest up)
    rw [resolved_append, ← start, resolved_eq_append down]
    exact .below (by rw [own, moving, List.filter_append]; rfl) ahead
  · -- The base itself still leads through it.
    have ahead : moving left ≠ [] ∨ moving (Text.parts '/' path.toList) ≠ [] := by
      rw [moving, List.filter_append, ne_eq, List.append_eq_nil_iff] at ahead
      exact not_and_or.1 ahead
    rcases led with led | led
    · exact .before led ahead
    · have split : Text.parts '/' base.toList = first ++ (left ++ [[]]) := by
        rw [led, List.append_assoc]
      refine .before split (ahead.imp_left ?_)
      exact fun some_left none_left => some_left
        (List.append_eq_nil_iff.1 ((List.filter_append ..).symm.trans none_left)).1

end FilePaths

end EventFlow
