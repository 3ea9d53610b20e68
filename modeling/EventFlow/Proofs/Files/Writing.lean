import EventFlow.Proofs.Files.Resolution

/-!
# When files can be written

`FileTree.makeDirectories` and `FileTree.append` come to the end of a path exactly if every name on
the way is short enough, no file stands where a directory has to be, and the path ends with a name
that is not a directory's (`FileTree.Writable`, `FileTree.written_iff`). The directories that a path
leads into can be read off its segments (`FileTree.waypoints`), as the place that it leads to can.
The tree is that of `EventFlow.Files.Tree`.
-/

set_option autoImplicit false

namespace EventFlow

namespace FileTree

/-- The directories that segments lead into: one for each segment that names something. -/
def waypoints : Names → List (List Char) → List Names
  | _, [] => []
  | here, segment :: rest =>
    if stays segment then waypoints here rest
    else if segment = dots then waypoints (above here) rest
    else (here ++ [segment]) :: waypoints (here ++ [segment]) rest

/-- A name is not too long. -/
def Short (segment : List Char) : Prop := (String.ofList segment).utf8ByteSize ≤ 255

/-- A directory is there, or none is in its place but it can be made. -/
def Passable (t : FileTree) (d : Names) : Prop := t.isDirectory d = true ∨ t.content? d = none

/-- A text that is a path at all. -/
structure Usable (path : String) : Prop where
  some_text : path ≠ ""
  no_nul : '\x00' ∉ path.toList
  fits : path.utf8ByteSize ≤ 4095

variable {t : FileTree} {here d : Names} {segment : List Char}

/-! ## One segment -/

/-- An empty segment, and a point, lead nowhere else. -/
theorem enter_of_stays (idle : stays segment = true) : t.enter here segment = .ok here := by
  rw [enter, if_pos idle]

/-- Two points lead up. -/
theorem enter_dots : t.enter here dots = .ok (above here) := by
  rw [enter, if_neg (by decide), if_pos rfl, up_eq_above]

/-- How a segment is entered that names something: its name is too long, it is a directory, a file
is in its place, or nothing is. -/
inductive Enters (t : FileTree) (here : Names) (segment : List Char) : Except FileError Names → Prop
  | long (long : ¬ Short segment) : Enters t here segment (.error .nameTooLong)
  | directory (short : Short segment) (there : t.isDirectory (here ++ [segment]) = true) :
      Enters t here segment (.ok (here ++ [segment]))
  | file {content : String} (short : Short segment)
      (other : t.isDirectory (here ++ [segment]) = false)
      (file : t.content? (here ++ [segment]) = some content) :
      Enters t here segment (.error .notADirectory)
  | nothing (short : Short segment) (other : t.isDirectory (here ++ [segment]) = false)
      (nothing : t.content? (here ++ [segment]) = none) :
      Enters t here segment (.error .notFound)

/-- A segment that names something is entered in one of the four ways. -/
theorem enters_of_moves (t : FileTree) (here : Names) (moves : stays segment = false)
    (down : segment ≠ dots) : t.Enters here segment (t.enter here segment) := by
  rw [enter, if_neg (Bool.eq_false_iff.1 moves), if_neg down]
  by_cases long : longestName < (String.ofList segment).utf8ByteSize
  · rw [if_pos long]
    exact .long (Nat.not_le.2 long)
  · rw [if_neg long]
    have short : Short segment := Nat.not_lt.1 long
    dsimp only
    cases there : t.isDirectory (here ++ [segment]) with
    | true => exact .directory short there
    | false =>
      cases file : t.content? (here ++ [segment]) with
      | some content => exact .file short there file
      | none => exact .nothing short there file

/-- An empty segment and a point are short. -/
theorem short_of_stays (idle : stays segment = true) : Short segment := by
  rw [stays, Bool.or_eq_true, List.isEmpty_iff, beq_iff_eq] at idle
  rcases idle with rfl | rfl <;> unfold Short <;> decide

theorem short_dots : Short dots := by
  unfold Short
  decide

/-- A directory that is made is there beside the others. -/
theorem isDirectory_addDirectory {names : Names} :
    (t.addDirectory names).isDirectory d = true ↔ t.isDirectory d = true ∨ d = names := by
  simp only [isDirectory, addDirectory, Bool.or_eq_true, List.contains_iff_mem, List.mem_append,
    List.mem_singleton]
  tauto

/-! ## All segments of a path -/

/-- Only segments that name something lead into a directory. -/
theorem waypoints_of_stays (idle : stays segment = true) (rest : List (List Char)) :
    waypoints here (segment :: rest) = waypoints here rest := by
  rw [waypoints, if_pos idle]

theorem waypoints_dots (here : Names) (rest : List (List Char)) :
    waypoints here (dots :: rest) = waypoints (above here) rest := by
  rw [waypoints, if_neg (by decide), if_pos rfl]

/-- A segment that names something leads into a directory of that name. -/
theorem waypoints_of_moves (moves : stays segment = false) (down : segment ≠ dots)
    (rest : List (List Char)) : waypoints here (segment :: rest) =
      (here ++ [segment]) :: waypoints (here ++ [segment]) rest := by
  rw [waypoints, if_neg (Bool.eq_false_iff.1 moves), if_neg down]

/-- The directories that segments lead into do not depend on those that stay where they are. -/
theorem waypoints_moving (here : Names) (segs : List (List Char)) :
    waypoints here (moving segs) = waypoints here segs := by
  induction segs generalizing here with
  | nil => rfl
  | cons segment rest ih =>
    rw [moving, List.filter_cons]
    cases idle : stays segment with
    | true =>
      rw [waypoints_of_stays idle, if_neg (by simp)]
      exact ih here
    | false =>
      rw [if_pos (by simp)]
      by_cases leadsUp : segment = dots
      · rw [leadsUp, waypoints_dots, waypoints_dots]
        exact ih (above here)
      · rw [waypoints_of_moves idle leadsUp, waypoints_of_moves idle leadsUp]
        exact congrArg _ (ih (here ++ [segment]))

/-- A directory is made where nothing is, so nothing else becomes passable. -/
theorem passable_addDirectory {names : Names} (nothing : t.content? names = none) :
    (t.addDirectory names).Passable d ↔ t.Passable d := by
  unfold Passable
  rw [isDirectory_addDirectory]
  constructor
  · rintro ((there | rfl) | nothing')
    · exact .inl there
    · exact .inr nothing
    · exact .inr nothing'
  · rintro (there | nothing')
    · exact .inl (.inl there)
    · exact .inr nothing'

/-- All directories can be made if no name is too long and no file is in the way. -/
theorem makeAll_succeeds_iff (t : FileTree) (here : Names) (segs : List (List Char)) :
    (t.makeAll here segs).1 = none ↔
      (∀ s ∈ segs, Short s) ∧ ∀ d ∈ waypoints here segs, t.Passable d := by
  induction here, segs using waypoints.induct generalizing t with
  | case1 here => simp [makeAll, waypoints]
  | case2 here segment rest idle ih =>
    rw [makeAll, enter_of_stays idle, waypoints_of_stays idle, List.forall_mem_cons]
    simp only [ih, short_of_stays idle, true_and]
  | case3 here rest idle ih =>
    rw [makeAll, enter_dots, waypoints_dots, List.forall_mem_cons]
    simp only [ih, short_dots, true_and]
  | case4 here segment rest moves down ih =>
    have moves := Bool.eq_false_iff.2 moves
    rw [makeAll, waypoints_of_moves moves down, List.forall_mem_cons, List.forall_mem_cons]
    have entered := t.enters_of_moves here moves down
    generalize t.enter here segment = result at entered
    cases entered with
    | long long => simp [long]
    | directory short there => simp [ih, short, Passable, there]
    | file short other file => simp [Passable, other, file]
    | nothing short other nothing =>
      have passable : t.Passable (here ++ [segment]) := .inr nothing
      simp [ih, short, passable, passable_addDirectory nothing]

/-- When all directories have been made, there are those that there were, and those on the way. -/
theorem isDirectory_makeAll {segs : List (List Char)} (h : (t.makeAll here segs).1 = none)
    (d : Names) : (t.makeAll here segs).2.isDirectory d = true ↔
      t.isDirectory d = true ∨ d ∈ waypoints here segs := by
  induction here, segs using waypoints.induct generalizing t with
  | case1 here => simp [makeAll, waypoints]
  | case2 here segment rest idle ih =>
    rw [makeAll, enter_of_stays idle] at h ⊢
    rw [waypoints_of_stays idle]
    exact ih h
  | case3 here rest idle ih =>
    rw [makeAll, enter_dots] at h ⊢
    rw [waypoints_dots]
    exact ih h
  | case4 here segment rest moves down ih =>
    have moves := Bool.eq_false_iff.2 moves
    rw [makeAll] at h ⊢
    rw [waypoints_of_moves moves down, List.mem_cons]
    have entered := t.enters_of_moves here moves down
    generalize t.enter here segment = result at entered h
    cases entered with
    | long | file => cases h
    | directory short there =>
      refine (ih h).trans ⟨Or.imp_right .inr, ?_⟩
      rintro (old | rfl | later)
      · exact .inl old
      · exact .inl there
      · exact .inr later
    | nothing =>
      refine (ih h).trans ?_
      rw [isDirectory_addDirectory, or_assoc]

/-- Segments can be walked if no name is too long and every directory is there. -/
theorem walk_succeeds_iff (t : FileTree) (here : Names) (segs : List (List Char)) :
    (∃ names, t.walk here segs = .ok names) ↔
      (∀ s ∈ segs, Short s) ∧ ∀ d ∈ waypoints here segs, t.isDirectory d = true := by
  induction here, segs using waypoints.induct with
  | case1 here => simp [walk, waypoints]
  | case2 here segment rest idle ih =>
    rw [walk, enter_of_stays idle, waypoints_of_stays idle, List.forall_mem_cons]
    simp only [ih, short_of_stays idle, true_and]
  | case3 here rest idle ih =>
    rw [walk, enter_dots, waypoints_dots, List.forall_mem_cons]
    simp only [ih, short_dots, true_and]
  | case4 here segment rest moves down ih =>
    have moves := Bool.eq_false_iff.2 moves
    rw [walk, waypoints_of_moves moves down, List.forall_mem_cons, List.forall_mem_cons]
    have entered := t.enters_of_moves here moves down
    generalize t.enter here segment = result at entered
    cases entered with
    | long long => simp [long]
    | directory short there => simp [ih, short, there]
    | file short other | nothing short other => simp [other]

/-! ## Whole paths -/

/-- A text is read as the segments between its slashes, if it can be used as a path. -/
theorem segments_eq_ok_iff {path : String} {all : List (List Char)} :
    segments path = .ok all ↔ Usable path ∧ Text.parts '/' path.toList = all := by
  unfold segments
  constructor
  · intro h
    split at h
    · cases h
    · next some_text =>
      split at h
      · cases h
      · next no_nul =>
        split at h
        · cases h
        · next fits =>
          refine ⟨⟨by simpa using some_text, by simpa using no_nul, Nat.not_lt.1 fits⟩, ?_⟩
          exact Except.ok.inj h
  · rintro ⟨⟨some_text, no_nul, fits⟩, rfl⟩
    have fits : ¬ longestPath < path.utf8ByteSize := Nat.not_lt.2 fits
    rw [if_neg (by simpa using some_text), if_neg (by simpa using no_nul), if_neg fits]

/-- A path that ends with a name ends where the segments before the name lead to. -/
theorem ending_of_named {path : String} {before : List (List Char)} {last : List Char}
    (usable : Usable path) (whole : Text.parts '/' path.toList = before ++ [last])
    (moves : stays last = false) :
    t.ending path = (t.walk (origin path) before).map fun here => some ⟨here, last, false⟩ := by
  have some_name : last.isEmpty = false := (Bool.or_eq_false_iff.1 moves).1
  rw [ending, segments_eq_ok_iff.2 ⟨usable, whole⟩]
  simp [some_name]

/-- A path that can be written to can be read as segments and ends with a name. -/
theorem named_of_target {path : String} {names : Names} (h : t.target path = .ok names) :
    Usable path ∧ ∃ before last, Text.parts '/' path.toList = before ++ [last] ∧
      stays last = false ∧ last ≠ dots := by
  unfold target at h
  cases found : t.ending path with
  | error e => rw [found] at h; cases h
  | ok found? =>
    rw [found] at h
    cases found? with
    | none => cases h
    | some e =>
      change (if e.isNameless || e.isClosed then _ else e.names t) = _ at h
      split at h
      · cases h
      · next plain =>
        rw [Bool.or_eq_true, not_or, Bool.not_eq_true, Bool.not_eq_true] at plain
        obtain ⟨moves, down⟩ := Bool.or_eq_false_iff.1 plain.1
        obtain ⟨before, -, whole⟩ := shown_of_ending found
        have usable : Usable path := by
          cases cut : segments path with
          | error e => rw [ending, cut] at found; cases found
          | ok all => exact (segments_eq_ok_iff.1 cut).1
        exact ⟨usable, before, e.last, whole plain.2, moves, by simpa using down⟩

/-- What can be appended to is named by its path. -/
theorem named_of_append {path text : String} {t' : FileTree} (h : t.append path text = .ok t') :
    Usable path ∧ ∃ before last, Text.parts '/' path.toList = before ++ [last] ∧
      stays last = false ∧ last ≠ dots := by
  unfold append at h
  cases aimed : t.target path with
  | error e =>
    rw [aimed] at h
    cases h
  | ok names => exact named_of_target aimed

/-- A path ends with the name of a file if the name is short and no directory has it. -/
theorem Ending.names_eq_ok_iff {e : Ending} {names : Names} : e.names t = .ok names ↔
    Short e.last ∧ t.isDirectory (e.here ++ [e.last]) = false ∧ names = e.here ++ [e.last] := by
  unfold Ending.names
  constructor
  · intro h
    split at h
    · cases h
    · next short =>
      dsimp only at h
      split at h
      · cases h
      · next other =>
        cases h
        exact ⟨Nat.not_lt.1 short, Bool.eq_false_iff.2 other, rfl⟩
  · rintro ⟨short, other, rfl⟩
    have short : ¬ longestName < (String.ofList e.last).utf8ByteSize := Nat.not_lt.2 short
    rw [if_neg short]
    simp [other]

/-- A text can be appended at a path that ends with a short name, to which directories lead, and
where none is. -/
theorem append_succeeds_iff {path text : String} {before : List (List Char)} {last : List Char}
    (usable : Usable path) (whole : Text.parts '/' path.toList = before ++ [last])
    (moves : stays last = false) (down : last ≠ dots) :
    (∃ t', t.append path text = .ok t') ↔
      (∀ s ∈ before ++ [last], Short s) ∧
        (∀ d ∈ waypoints (origin path) before, t.isDirectory d = true) ∧
        t.isDirectory (namesOf path) = false := by
  have named : (last == dots) = false := by simpa using down
  have place : namesOf path = resolved (origin path) before ++ [last] := by
    rw [namesOf, whole, resolved_append, resolved_singleton moves down]
  have appends : t.append path text = (t.walk (origin path) before).bind fun here =>
      (Ending.names t ⟨here, last, false⟩).map fun names =>
        t.setContent names ((t.content? names).getD "" ++ text) := by
    rw [append, target, ending_of_named usable whole moves]
    cases t.walk (origin path) before with
    | error e => rfl
    | ok here => simp [Except.map, Except.bind, Bind.bind, Ending.isNameless, moves, named]
  rw [appends, List.forall_mem_append, List.forall_mem_singleton, place]
  constructor
  · rintro ⟨t', written⟩
    cases walked : t.walk (origin path) before with
    | error e =>
      rw [walked] at written
      cases written
    | ok here =>
      rw [walked] at written
      obtain ⟨short, there⟩ := (t.walk_succeeds_iff (origin path) before).1 ⟨here, walked⟩
      cases ended : Ending.names t ⟨here, last, false⟩ with
      | error e =>
        rw [Except.bind, ended] at written
        cases written
      | ok names =>
        obtain ⟨last_short, free, -⟩ := Ending.names_eq_ok_iff.1 ended
        rw [← resolved_of_walk walked] at free
        exact ⟨⟨short, last_short⟩, there, free⟩
  · rintro ⟨⟨short, last_short⟩, there, free⟩
    obtain ⟨here, walked⟩ := (t.walk_succeeds_iff (origin path) before).2 ⟨short, there⟩
    rw [resolved_of_walk walked] at free
    have ended : Ending.names t ⟨here, last, false⟩ = .ok (here ++ [last]) :=
      Ending.names_eq_ok_iff.2 ⟨last_short, free, rfl⟩
    rw [walked, Except.bind, ended]
    exact ⟨_, rfl⟩

end FileTree

/-! ## The directory that a path is in -/

/-- The first parts of a text, joined, are where the text begins. -/
theorem Text.joined_prefix {separator : Char} {first all : List (List Char)} (h : first <+: all) :
    Text.joined separator first <+: Text.joined separator all := by
  induction first generalizing all with
  | nil => exact List.nil_prefix
  | cons part rest ih =>
    cases all with
    | nil => cases List.eq_nil_of_prefix_nil h
    | cons part' others =>
      obtain ⟨rfl, inside⟩ := List.cons_prefix_cons.1 h
      cases rest with
      | nil =>
        cases others with
        | nil => exact List.prefix_rfl
        | cons other others => exact List.prefix_append _ _
      | cons next rest =>
        cases others with
        | nil => cases List.eq_nil_of_prefix_nil inside
        | cons other others =>
          have cut (x y : List Char) (ys : List (List Char)) :
              Text.joined separator (x :: y :: ys) =
                x ++ separator :: Text.joined separator (y :: ys) := rfl
          rw [cut, cut]
          exact (List.prefix_append_right_inj part).2 (List.cons_prefix_cons.2 ⟨rfl, ih inside⟩)

namespace FilePaths

open FileTree (stays moving dots origin)

/-- What is dropped at the end of a path stays where it is. -/
theorem exists_idle_of_dropIdle (relative : Bool) (segments : List (List Char)) :
    ∃ idle, segments = idle ++ dropIdle relative segments ∧ ∀ s ∈ idle, stays s = true := by
  induction segments with
  | nil => exact ⟨[], rfl, List.forall_mem_nil _⟩
  | cons segment rest ih =>
    cases rest with
    | nil =>
      rw [dropIdle]
      split
      · next idle =>
        refine ⟨[segment], rfl, List.forall_mem_singleton.2 ?_⟩
        simp only [stays, Bool.or_eq_true, Bool.and_eq_true] at idle ⊢
        exact idle.imp_right And.left
      · exact ⟨[], rfl, List.forall_mem_nil _⟩
    | cons other rest =>
      rw [dropIdle]
      · split
        · next idle =>
          obtain ⟨more, split, stay⟩ := ih
          exact ⟨segment :: more, congrArg _ split, List.forall_mem_cons.2 ⟨idle, stay⟩⟩
        · exact ⟨[], rfl, List.forall_mem_nil _⟩
      · exact List.cons_ne_nil other rest

/-- A segment that names something is not dropped. -/
theorem dropIdle_of_moves {segment : List Char} (moves : stays segment = false) (relative : Bool)
    (rest : List (List Char)) : dropIdle relative (segment :: rest) = segment :: rest := by
  obtain ⟨some_name, apart⟩ := Bool.or_eq_false_iff.1 moves
  cases rest with
  | nil => simp [dropIdle, some_name, apart]
  | cons other rest => simp [dropIdle, some_name, apart]

/-- What is kept of the segments in front of a name are the first of them, with all that move. -/
theorem kept_of_named {body last : List Char} {front : List (List Char)}
    (cut : Text.parts '/' body = front ++ [last]) (relative : Bool) :
    Text.joined '/' (dropIdle relative front.reverse).reverse <+: body ∧
      moving (Text.parts '/' (Text.joined '/' (dropIdle relative front.reverse).reverse)) =
        moving front := by
  obtain ⟨idle, split, stay⟩ := exists_idle_of_dropIdle relative front.reverse
  have first : front = (dropIdle relative front.reverse).reverse ++ idle.reverse := by
    rw [← List.reverse_append, ← split, List.reverse_reverse]
  have stay : moving idle.reverse = [] := by
    refine List.filter_eq_nil_iff.2 fun s among => ?_
    simp [stay s (List.mem_reverse.1 among)]
  have shown : Text.joined '/' (front ++ [last]) = body := cut ▸ Text.joined_parts '/' body
  generalize (dropIdle relative front.reverse).reverse = kept at first ⊢
  have moves : moving front = moving kept := by
    rw [first, moving, List.filter_append]
    exact (congrArg (moving kept ++ ·) stay).trans (List.append_nil _)
  refine ⟨?_, ?_⟩
  · rw [← shown, first, List.append_assoc]
    exact Text.joined_prefix (List.prefix_append _ _)
  · rw [moves]
    by_cases some_kept : kept = []
    · rw [some_kept]
      rfl
    · rw [Text.parts_joined some_kept]
      intro part among inside
      have there : part ∈ Text.parts '/' body := by
        rw [cut, first]
        exact List.mem_append_left _ (List.mem_append_left _ among)
      exact (Text.mem_of_mem_parts there inside).2 rfl

/-- The directory of a path that ends with a name: an initial section of the path, without the name
and whatever stays where it is in front of it. -/
theorem exists_parent_of_named {path : String} {before : List (List Char)} {last : List Char}
    (whole : Text.parts '/' path.toList = before ++ [last]) (moves : stays last = false) :
    ∃ directory, parent? path = some directory ∧ directory.toList <+: path.toList ∧
      origin directory = origin path ∧
      moving (Text.parts '/' directory.toList) = moving before := by
  unfold parent?
  split
  next relative body start =>
  split at start
  · next rest rooted =>
    cases start
    -- The first segment of a path from the root is empty.
    rw [rooted, Text.parts, if_pos rfl] at whole
    obtain ⟨front, rfl, cut⟩ : ∃ front, before = [] :: front ∧
        Text.parts '/' body = front ++ [last] := by
      cases before with
      | nil => exact absurd (List.cons.inj whole).2 (Text.parts_ne_nil '/' body)
      | cons first front =>
        obtain ⟨rfl, cut⟩ := List.cons.inj whole
        exact ⟨front, rfl, cut⟩
    obtain ⟨inside, kept⟩ := kept_of_named cut false
    rw [cut, List.reverse_append, List.reverse_singleton, List.singleton_append,
      dropIdle_of_moves moves]
    refine ⟨_, rfl, ?_, ?_, ?_⟩
    · rw [String.toList_ofList, rooted]
      exact List.cons_prefix_cons.2 ⟨rfl, inside⟩
    · exact origin_congr (iff_of_true ⟨_, String.toList_ofList⟩ ⟨body, rooted⟩)
    · rw [String.toList_ofList, if_neg Bool.false_ne_true, Text.parts, if_pos rfl]
      exact kept
  · next plain =>
    cases start
    obtain ⟨inside, kept⟩ := kept_of_named whole true
    rw [whole, List.reverse_append, List.reverse_singleton, List.singleton_append,
      dropIdle_of_moves moves]
    refine ⟨_, rfl, ?_, ?_, ?_⟩
    · rw [String.toList_ofList]
      exact inside
    · refine origin_congr (iff_of_false ?_ ?_)
      · rintro ⟨s, rooted⟩
        rw [String.toList_ofList, if_pos rfl] at rooted
        rw [rooted] at inside
        obtain ⟨more, rooted⟩ := inside
        exact plain _ rooted.symm
      · rintro ⟨s, rooted⟩
        exact plain s rooted
    · rw [String.toList_ofList]
      exact kept

end FilePaths

namespace FileTree

/-! ## Writing -/

variable {path : String} {before : List (List Char)} {last : List Char}

/-- An initial section of a path is a path. -/
theorem Usable.of_prefix {directory : String} (h : Usable path) (some_text : directory ≠ "")
    (inside : directory.toList <+: path.toList) : Usable directory := by
  obtain ⟨rest, whole⟩ := inside
  have split : path = directory ++ String.ofList rest := by
    rw [← String.toList_inj, String.toList_append, String.toList_ofList, whole]
  refine ⟨some_text, fun nul => h.no_nul (whole ▸ List.mem_append_left rest nul), ?_⟩
  have fits := h.fits
  rw [split, String.utf8ByteSize_append] at fits
  omega

/-- Segments that stay are short, so the others decide. -/
theorem short_moving_iff {segs : List (List Char)} :
    (∀ s ∈ moving segs, Short s) ↔ ∀ s ∈ segs, Short s := by
  refine ⟨fun h s among => ?_, fun h s among => h s (List.mem_filter.1 among).1⟩
  cases idle : stays s with
  | true => exact short_of_stays idle
  | false => exact h s (List.mem_filter.2 ⟨among, by simp [idle]⟩)

/-- The directories on the way to a name are made if no name is too long and no file is in the way,
and then they are there. -/
theorem makeDirectories_of_named (t : FileTree) (usable : Usable path)
    (whole : Text.parts '/' path.toList = before ++ [last]) (moves : stays last = false) :
    ((t.makeDirectories ((FilePaths.parent? path).getD "")).1 = none ↔
        (∀ s ∈ before, Short s) ∧ ∀ d ∈ waypoints (origin path) before, t.Passable d) ∧
      ((t.makeDirectories ((FilePaths.parent? path).getD "")).1 = none →
        ∀ d, (t.makeDirectories ((FilePaths.parent? path).getD "")).2.isDirectory d = true ↔
          t.isDirectory d = true ∨ d ∈ waypoints (origin path) before) := by
  obtain ⟨directory, found, inside, start, same⟩ := FilePaths.exists_parent_of_named whole moves
  rw [found, Option.getD_some, ← short_moving_iff, ← waypoints_moving, ← same]
  unfold makeDirectories
  by_cases none_left : directory = ""
  · subst none_left
    have nothing : moving (Text.parts '/' "".toList) = [] := rfl
    rw [nothing]
    simp [waypoints]
  · rw [if_neg (by simpa using none_left),
      segments_eq_ok_iff.2 ⟨usable.of_prefix none_left inside, rfl⟩]
    dsimp only
    rw [short_moving_iff, waypoints_moving, start]
    exact ⟨t.makeAll_succeeds_iff _ _, isDirectory_makeAll⟩

/-- `t.Writable path`: a text can be appended to the file that a path leads to, when the directories
on the way to it have been made. The path ends with a name; no name is too long; nothing on the way
is a file; and there is no directory of this name, nor is one made. -/
structure Writable (t : FileTree) (path : String) : Prop where
  usable : Usable path
  short : ∀ s ∈ Text.parts '/' path.toList, Short s
  named : ∃ before last, Text.parts '/' path.toList = before ++ [last] ∧ stays last = false ∧
    last ≠ dots ∧ (∀ d ∈ waypoints (origin path) before, t.Passable d) ∧
    namesOf path ∉ waypoints (origin path) before
  free : t.isDirectory (namesOf path) = false

/-- The directories on the way to a path are made and a text is appended there exactly if the path
is writable. -/
theorem written_iff (t : FileTree) (path text : String) :
    ((t.makeDirectories ((FilePaths.parent? path).getD "")).1 = none ∧ ∃ t',
        (t.makeDirectories ((FilePaths.parent? path).getD "")).2.append path text = .ok t') ↔
      t.Writable path := by
  constructor
  · rintro ⟨done, t', written⟩
    obtain ⟨usable, before, last, whole, moves, down⟩ := named_of_append written
    obtain ⟨made, there⟩ := t.makeDirectories_of_named usable whole moves
    obtain ⟨short, -, free⟩ := (append_succeeds_iff usable whole moves down).1 ⟨t', written⟩
    have apart := mt (there done (namesOf path)).2 (Bool.eq_false_iff.1 free)
    exact ⟨usable, whole ▸ short, ⟨before, last, whole, moves, down, (made.1 done).2,
      fun among => apart (.inr among)⟩, Bool.eq_false_iff.2 fun old => apart (.inl old)⟩
  · rintro ⟨usable, short, ⟨before, last, whole, moves, down, passable, apart⟩, free⟩
    rw [whole] at short
    obtain ⟨made, there⟩ := t.makeDirectories_of_named usable whole moves
    have done := made.2 ⟨(List.forall_mem_append.1 short).1, passable⟩
    refine ⟨done, (append_succeeds_iff usable whole moves down).2 ⟨short, ?_, ?_⟩⟩
    · exact fun d among => (there done d).2 (.inr among)
    · refine Bool.eq_false_iff.2 fun directory => ?_
      rcases (there done (namesOf path)).1 directory with old | among
      · rw [free] at old
        cases old
      · exact apart among

end FileTree

end EventFlow
