import EventFlow.Data.Assoc
import Mathlib.Data.List.Forall2
import Mathlib.Data.List.Pairwise

/-!
# Association lists stay in order

Whatever is put into a list whose keys ascend, they ascend again (`ascending_insert`), and nothing
comes in but what is put in (`mem_insert`). A list in order is put in order as it is
(`ofList_eq_self`), and any other list keeps the entries whose keys do not come again
(`ofList_perm`). Two lists in order go together entry by entry if they do so key by key
(`forall₂_iff_find?`). The lists are those of `EventFlow.Data.Assoc`; tables of records and the
members of objects are such lists.
-/

set_option autoImplicit false

namespace EventFlow.Assoc

variable {α : Type}

/-! ## What is in a list -/

/-- What is found under a key is in the list. -/
theorem mem_of_find? {key : String} {value : α} {entries : List (String × α)}
    (h : find? key entries = some value) : (key, value) ∈ entries := by
  induction entries with
  | nil => cases h
  | cons entry rest ih =>
    obtain ⟨k, v⟩ := entry
    rw [find?] at h
    split at h
    · next same =>
      cases h
      rw [same]
      exact List.mem_cons_self
    · exact List.mem_cons_of_mem _ (ih h)

/-- What is in a list after an insertion was inserted or was there. -/
theorem mem_insert {key : String} {value : α} {entry : String × α} {entries : List (String × α)}
    (h : entry ∈ insert key value entries) : entry = (key, value) ∨ entry ∈ entries := by
  induction entries with
  | nil => exact .inl (List.mem_singleton.1 h)
  | cons first rest ih =>
    obtain ⟨k, v⟩ := first
    rw [insert] at h
    split at h
    · exact List.mem_cons.1 h
    · split at h
      · exact (List.mem_cons.1 h).imp_right (List.mem_cons_of_mem _)
      · rcases List.mem_cons.1 h with rfl | later
        · exact .inr List.mem_cons_self
        · exact (ih later).imp_right (List.mem_cons_of_mem _)

/-- What is in an overlay comes from one of the two lists. -/
theorem mem_overlay {entry : String × α} {lower upper : List (String × α)}
    (h : entry ∈ overlay lower upper) : entry ∈ upper ∨ entry ∈ lower := by
  induction upper generalizing lower with
  | nil => exact .inr h
  | cons first rest ih =>
    rcases ih h with later | earlier
    · exact .inl (List.mem_cons_of_mem _ later)
    · rcases mem_insert earlier with rfl | old
      · exact .inl List.mem_cons_self
      · exact .inr old

/-- To put a list in order adds nothing to it. -/
theorem mem_ofList {entry : String × α} {entries : List (String × α)} (h : entry ∈ ofList entries) :
    entry ∈ entries :=
  (mem_overlay h).resolve_right List.not_mem_nil

theorem mem_of_mem_erase {key : String} {entry : String × α} {entries : List (String × α)}
    (h : entry ∈ erase key entries) : entry ∈ entries :=
  (List.mem_filter.1 h).1

/-- Under the key of an insertion is what was inserted, and under others what was there. -/
theorem find?_insert (key : String) (value : α) (entries : List (String × α)) (other : String) :
    find? other (insert key value entries) =
      if other = key then some value else find? other entries := by
  split
  · next same => rw [same, find?_insert_self]
  · next apart => rw [find?_insert_of_ne apart]

/-- Of two values under one key the later is kept. -/
theorem insert_insert (key : String) (value later : α) (entries : List (String × α)) :
    insert key later (insert key value entries) = insert key later entries := by
  induction entries with
  | nil => simp [insert]
  | cons entry rest ih =>
    obtain ⟨k, v⟩ := entry
    simp only [insert]
    split
    · simp [insert]
    · split
      · simp [insert]
      · next after apart => rw [insert, if_neg after, if_neg apart, ih]

/-- What is erased is nothing to other keys. -/
theorem find?_erase_of_ne {key other : String} (h : other ≠ key) (entries : List (String × α)) :
    find? other (erase key entries) = find? other entries := by
  induction entries with
  | nil => rfl
  | cons entry rest ih =>
    obtain ⟨k, v⟩ := entry
    rw [erase] at ih ⊢
    by_cases erased : k = key
    · subst erased
      rw [List.filter_cons_of_neg (by simp), ih, find?, if_neg h.symm]
    · rw [List.filter_cons_of_pos (by simpa using erased), find?, find?, ih]

/-- A key is listed if something is found under it. -/
theorem mem_keys_iff {key : String} {entries : List (String × α)} :
    key ∈ entries.map (·.1) ↔ ∃ value, find? key entries = some value := by
  induction entries with
  | nil => simp [find?]
  | cons entry rest ih =>
    obtain ⟨k, v⟩ := entry
    by_cases same : k = key
    · simp [find?, same]
    · rw [find?, if_neg same, ← ih, List.map_cons, List.mem_cons]
      exact or_iff_right (Ne.symm same)

/-- Entries that are all taken from one place, put where there may be some already: what is found
under a key that one of them has is what is found at that place. -/
theorem find?_foldl_insert {table : List (String × α)} {entries : List (String × α)}
    (taken : ∀ entry ∈ entries, find? entry.1 table = some entry.2) (key : String)
    (sorted : List (String × α)) :
    find? key (entries.foldl (fun sorted entry => insert entry.1 entry.2 sorted) sorted) =
      if key ∈ entries.map (·.1) then find? key table else find? key sorted := by
  induction entries generalizing sorted with
  | nil => simp
  | cons entry rest ih =>
    rw [List.foldl_cons, ih fun other hother => taken other (List.mem_cons_of_mem entry hother)]
    by_cases hrest : key ∈ rest.map (·.1)
    · simp [hrest]
    · by_cases hkey : key = entry.1
      · subst hkey
        simp [hrest, find?_insert_self, taken entry]
      · simp [hrest, hkey, find?_insert_of_ne hkey]

/-! ## Order -/

theorem ascending_nil : Ascending ([] : List (String × α)) := List.Pairwise.nil

/-- An insertion keeps a list in order. -/
theorem ascending_insert (key : String) (value : α) {entries : List (String × α)}
    (h : Ascending entries) : Ascending (insert key value entries) := by
  induction entries with
  | nil => exact List.pairwise_singleton _ _
  | cons first rest ih =>
    obtain ⟨k, v⟩ := first
    obtain ⟨above, rest_ascending⟩ := List.pairwise_cons.1 h
    rw [insert]
    split
    · next below =>
      refine List.pairwise_cons.2 ⟨fun entry hentry => ?_, h⟩
      rcases List.mem_cons.1 hentry with rfl | later
      · exact below
      · exact String.lt_trans below (above entry later)
    · split
      · next same => exact List.pairwise_cons.2 ⟨same ▸ above, rest_ascending⟩
      · next not_below different =>
        refine List.pairwise_cons.2 ⟨fun entry hentry => ?_, ih rest_ascending⟩
        rcases mem_insert hentry with rfl | old
        · by_cases low : k < key
          · exact low
          · exact absurd (String.le_antisymm (String.not_lt.1 not_below) (String.not_lt.1 low))
              different
        · exact above entry old

/-- An erasure keeps a list in order. -/
theorem ascending_erase (key : String) {entries : List (String × α)} (h : Ascending entries) :
    Ascending (erase key entries) :=
  List.Pairwise.filter _ h

/-- An overlay on a list in order is in order. -/
theorem ascending_overlay {lower : List (String × α)} (h : Ascending lower)
    (upper : List (String × α)) : Ascending (overlay lower upper) := by
  induction upper generalizing lower with
  | nil => exact h
  | cons first rest ih => exact ih (ascending_insert first.1 first.2 h)

/-- A list that is put in order is so. -/
theorem ascending_ofList (entries : List (String × α)) : Ascending (ofList entries) :=
  ascending_overlay ascending_nil entries

/-- An entry of a list in order is what is found under its key. -/
theorem find?_of_mem {entry : String × α} {entries : List (String × α)} (h : Ascending entries)
    (hentry : entry ∈ entries) : find? entry.1 entries = some entry.2 := by
  induction entries with
  | nil => cases hentry
  | cons first rest ih =>
    obtain ⟨k, v⟩ := first
    obtain ⟨above, rest_ascending⟩ := List.pairwise_cons.1 h
    rcases List.mem_cons.1 hentry with rfl | later
    · exact if_pos rfl
    · rw [find?, if_neg (String.ne_of_lt (above entry later)), ih rest_ascending later]

/-- What is put after all that is there comes last. -/
theorem insert_eq_append {key : String} (value : α) {entries : List (String × α)}
    (h : ∀ entry ∈ entries, entry.1 < key) :
    insert key value entries = entries ++ [(key, value)] := by
  induction entries with
  | nil => rfl
  | cons first rest ih =>
    obtain ⟨k, v⟩ := first
    have below : k < key := h (k, v) List.mem_cons_self
    have different : k ≠ key := by
      rintro rfl
      exact String.lt_irrefl k below
    rw [insert, if_neg (String.lt_asymm below), if_neg different,
      ih fun entry hentry => h entry (List.mem_cons_of_mem _ hentry), List.cons_append]

/-- A list in order that is laid over what comes before it is put at its end. -/
theorem overlay_eq_append {lower upper : List (String × α)} (h : Ascending (lower ++ upper)) :
    overlay lower upper = lower ++ upper := by
  induction upper generalizing lower with
  | nil => exact (List.append_nil lower).symm
  | cons first rest ih =>
    have below : ∀ entry ∈ lower, entry.1 < first.1 := fun entry hentry =>
      (List.pairwise_append.1 h).2.2 entry hentry first List.mem_cons_self
    have step : insert first.1 first.2 lower = lower ++ [first] := insert_eq_append first.2 below
    have rest_appended : overlay (lower ++ [first]) rest = lower ++ [first] ++ rest :=
      ih (by simpa using h)
    rw [overlay, List.foldl_cons, step]
    rw [overlay] at rest_appended
    rw [rest_appended, List.append_assoc, List.singleton_append]

/-- A list in order is put in order as it is. -/
theorem ofList_eq_self {entries : List (String × α)} (h : Ascending entries) :
    ofList entries = entries :=
  overlay_eq_append (show Ascending ([] ++ entries) from h)

/-! ## What is found and kept when entries are put in order -/

variable {entries : List (String × α)} {key : String}

/-- Under a key that is not listed nothing is found. -/
theorem find?_eq_none_of_notMem (h : key ∉ entries.map (·.1)) : find? key entries = none := by
  rw [mem_keys_iff] at h
  exact Option.eq_none_iff_forall_ne_some.2 fun v found => h ⟨v, found⟩

/-- Where a key is there once at most, what is overlaid with entries has what these have under it,
and else what it had. -/
theorem find?_overlay (once : (entries.map (·.1)).count key ≤ 1) (lower : List (String × α)) :
    find? key (overlay lower entries) = (find? key entries).or (find? key lower) := by
  induction entries generalizing lower with
  | nil => rfl
  | cons entry rest ih =>
    obtain ⟨k, v⟩ := entry
    rw [List.map_cons, List.count_cons] at once
    rw [overlay, List.foldl_cons]
    have later := ih (by omega) (insert k v lower)
    rw [overlay] at later
    rw [later, find?]
    by_cases same : k = key
    · subst same
      have gone : find? k rest = none := find?_eq_none_of_notMem (by
        rw [beq_self_eq_true, if_pos rfl] at once
        exact List.count_eq_zero.1 (by omega))
      rw [gone, find?_insert_self, if_pos rfl]
      rfl
    · rw [if_neg same, find?_insert_of_ne (Ne.symm same)]

/-- Where a key is there once at most, putting the entries in order keeps what is found. -/
theorem find?_ofList (once : (entries.map (·.1)).count key ≤ 1) :
    find? key (ofList entries) = find? key entries := by
  have whole := find?_overlay once []
  rw [find?, Option.or_none] at whole
  exact whole

/-- Entries in order have no key twice. -/
theorem count_le_one_of_ascending (h : Ascending entries) (key : String) :
    (entries.map (·.1)).count key ≤ 1 := by
  apply List.nodup_iff_count.1
  rw [List.Nodup, List.pairwise_map]
  refine h.imp ?_
  intro a b before same
  rw [same] at before
  exact String.lt_irrefl _ before

/-- What is put before all that is there comes first. -/
theorem insert_eq_cons (value : α) (h : ∀ entry ∈ entries, key < entry.1) :
    insert key value entries = (key, value) :: entries := by
  cases entries with
  | nil => rfl
  | cons first rest =>
    obtain ⟨k, v⟩ := first
    rw [insert, if_pos (h (k, v) List.mem_cons_self)]

/-- An insertion commutes with a selection by keys. -/
theorem filter_insert (p : String → Bool) (value : α) (ascending : Ascending entries) :
    (insert key value entries).filter (fun e => p e.1) =
      if p key then insert key value (entries.filter fun e => p e.1)
      else entries.filter fun e => p e.1 := by
  induction entries with
  | nil => by_cases kept : p key <;> simp [insert, kept]
  | cons first rest ih =>
    obtain ⟨k, v⟩ := first
    obtain ⟨above, rest_ascending⟩ := List.pairwise_cons.1 ascending
    rw [insert]
    split
    · next before =>
      have all : ∀ entry ∈ ((k, v) :: rest).filter fun e => p e.1, key < entry.1 := fun e he => by
        rcases List.mem_cons.1 (List.mem_filter.1 he).1 with rfl | later
        · exact before
        · exact String.lt_trans before (above e later)
      rw [insert_eq_cons value all, List.filter_cons]
    · next after =>
      split
      · next same =>
        subst same
        by_cases kept : p k <;> simp [kept, insert]
      · next other =>
        by_cases here : p k <;> by_cases kept : p key <;>
          simp [here, kept, insert, after, other, ih rest_ascending]

/-- Putting entries in order and keeping those with some keys are done in any order. -/
theorem filter_ofList (p : String → Bool) (entries : List (String × α)) :
    (ofList entries).filter (fun e => p e.1) = ofList (entries.filter fun e => p e.1) := by
  have general : ∀ sorted : List (String × α), Ascending sorted →
      (overlay sorted entries).filter (fun e => p e.1) =
        overlay (sorted.filter fun e => p e.1) (entries.filter fun e => p e.1) := by
    induction entries with
    | nil => exact fun sorted _ => rfl
    | cons entry rest ih =>
      obtain ⟨k, v⟩ := entry
      intro sorted ascending
      have later := ih _ (ascending_insert k v ascending)
      rw [filter_insert p v ascending] at later
      rw [overlay, List.foldl_cons, ← overlay, later, List.filter_cons]
      split
      · rfl
      · rfl
  exact general [] ascending_nil

/-! ## Lists that name keys twice -/

/-- Where the key is not listed there is nothing to erase. -/
theorem erase_eq_self (h : ∀ entry ∈ entries, entry.1 ≠ key) : erase key entries = entries :=
  List.filter_eq_self.2 fun entry hentry => bne_iff_ne.2 (h entry hentry)

/-- What is put in takes the place of the entry with its key. -/
theorem insert_perm (key : String) (value : α) (ascending : Ascending entries) :
    (insert key value entries).Perm ((key, value) :: erase key entries) := by
  induction entries with
  | nil => exact .refl _
  | cons first rest ih =>
    obtain ⟨k, v⟩ := first
    obtain ⟨above, rest_ascending⟩ := List.pairwise_cons.1 ascending
    have others {key : String} (before : ∀ entry ∈ rest, key < entry.1) : erase key rest = rest :=
      erase_eq_self fun entry hentry => (String.ne_of_lt (before entry hentry)).symm
    rw [insert]
    split
    · next before =>
      have all : ∀ entry ∈ rest, key < entry.1 := fun entry hentry =>
        String.lt_trans before (above entry hentry)
      have apart : k ≠ key := (String.ne_of_lt before).symm
      rw [erase, List.filter_cons_of_pos (by simpa using apart), ← erase, others all]
    · split
      · next same =>
        subst same
        rw [erase, List.filter_cons_of_neg (by simp), ← erase, others above]
      · next apart =>
        rw [erase, List.filter_cons_of_pos (by simpa using apart), ← erase]
        exact ((ih rest_ascending).cons (k, v)).trans (.swap _ _ _)

/-- What is put in under a key that is free comes to what is there. -/
theorem insert_perm_cons (value : α) (free : find? key entries = none) :
    (insert key value entries).Perm ((key, value) :: entries) := by
  induction entries with
  | nil => exact .refl _
  | cons first rest ih =>
    obtain ⟨k, v⟩ := first
    by_cases same : k = key
    · rw [find?, if_pos same] at free
      cases free
    · rw [find?, if_neg same] at free
      rw [insert]
      split
      · exact .refl _
      · exact ((ih free).cons (k, v)).trans (.swap _ _ _)

/-- What is kept of a list, of all that have one name the last, has all its names. -/
theorem forall_mem_pwFilter_iff {β : Type} (name : β → String) (b : β) (list : List β) :
    (∀ other ∈ list.pwFilter fun a b => name a ≠ name b, name b ≠ name other) ↔
      name b ∉ list.map name := by
  have general := List.forall_mem_pwFilter (R := fun a b : β => name a ≠ name b)
    (fun {a b c} apart => by
      by_cases same : name a = name b
      · exact .inr (same ▸ apart)
      · exact .inl same) b list
  rw [general]
  constructor
  · intro apart there
    obtain ⟨other, listed, same⟩ := List.mem_map.1 there
    exact apart other listed same.symm
  · intro out other listed same
    exact out (same ▸ List.mem_map_of_mem listed)

/-- Of entries that are put in order, those stay whose keys do not come again. -/
theorem ofList_perm (entries : List (String × α)) :
    (ofList entries).Perm (entries.pwFilter fun a b => a.1 ≠ b.1) := by
  -- They are put into a list in order, of which those stay whose keys do not come at all.
  have general : ∀ sorted : List (String × α), Ascending sorted →
      (overlay sorted entries).Perm ((sorted.filter fun e => e.1 ∉ entries.map (·.1)) ++
        entries.pwFilter fun a b => a.1 ≠ b.1) := by
    induction entries with
    | nil =>
      intro sorted _
      rw [List.pwFilter_nil, List.append_nil, List.filter_eq_self.2 (by simp)]
      exact .refl sorted
    | cons entry rest ih =>
      obtain ⟨k, v⟩ := entry
      intro sorted ascending
      have later := ih _ (ascending_insert k v ascending)
      rw [filter_insert (fun other => decide (other ∉ rest.map (·.1))) v ascending] at later
      rw [overlay, List.foldl_cons, ← overlay]
      refine later.trans ?_
      by_cases there : k ∈ rest.map (·.1)
      · -- The entry is replaced by the one that comes with its key.
        have same : (sorted.filter fun e => e.1 ∉ rest.map (·.1)) =
            sorted.filter fun e => e.1 ∉ ((k, v) :: rest).map (·.1) := by
          refine List.filter_congr fun e _ => decide_eq_decide.2 ?_
          rw [List.map_cons, List.mem_cons, not_or]
          constructor
          · intro out
            exact ⟨fun same => out (same ▸ there), out⟩
          · exact And.right
        rw [if_neg (by simpa using there), same, List.pwFilter_cons_of_neg
          (mt (forall_mem_pwFilter_iff Prod.fst (k, v) rest).1 (not_not_intro there))]
      · have same : erase k (sorted.filter fun e => e.1 ∉ rest.map (·.1)) =
            sorted.filter fun e => e.1 ∉ ((k, v) :: rest).map (·.1) := by
          rw [erase, List.filter_filter]
          refine List.filter_congr fun e _ => Bool.eq_iff_iff.2 ?_
          simp only [Bool.and_eq_true, bne_iff_ne, decide_eq_true_eq, List.map_cons,
            List.mem_cons, not_or]
        rw [if_pos (by simpa using there),
          List.pwFilter_cons_of_pos ((forall_mem_pwFilter_iff Prod.fst (k, v) rest).2 there)]
        refine ((insert_perm k v (ascending.filter _)).append_right _).trans ?_
        rw [same]
        exact List.perm_middle.symm
  exact general [] ascending_nil

/-! ## Two lists in order -/

section Rows

variable {β : Type} {R : α → β → Prop} {k l : String} {v : α} {w : β}
variable {xs : List (String × α)} {ys : List (String × β)}

/-- Under a key before all others nothing is found. -/
theorem find?_eq_none_of_lt {key : String} {entries : List (String × α)}
    (above : ∀ entry ∈ entries, key < entry.1) : find? key entries = none := by
  induction entries with
  | nil => rfl
  | cons entry rest ih =>
    obtain ⟨first, others⟩ := List.forall_mem_cons.1 above
    rw [find?, if_neg (String.ne_of_lt first).symm, ih others]

theorem find?_cons_self (key : String) (v : α) (entries : List (String × α)) :
    find? key ((key, v) :: entries) = some v := if_pos rfl

/-- What is found in a list in order is not below its first key. -/
theorem le_of_find? {first key : String} {v v' : α} {entries : List (String × α)}
    (h : Ascending ((first, v) :: entries)) (found : find? key ((first, v) :: entries) = some v') :
    first ≤ key := by
  refine String.not_lt.1 fun below => ?_
  have above := (List.pairwise_cons.1 h).1
  rw [find?_eq_none_of_lt (List.forall_mem_cons.2
    ⟨below, fun entry among => String.lt_trans below (above entry among)⟩)] at found
  cases found

/-- Lists in order that go together under each key have one first key. -/
theorem first_eq_of_rel (h : Ascending ((k, v) :: xs)) (h' : Ascending ((l, w) :: ys))
    (each : ∀ key, Option.Rel R (find? key ((k, v) :: xs)) (find? key ((l, w) :: ys))) :
    k = l := by
  have at_k := each k
  have at_l := each l
  rw [find?_cons_self] at at_k at_l
  refine String.le_antisymm ?_ ?_
  · cases found : find? l ((k, v) :: xs) with
    | none => rw [found] at at_l; cases at_l
    | some _ => exact le_of_find? h found
  · cases found : find? k ((l, w) :: ys) with
    | none => rw [found] at at_k; cases at_k
    | some _ => exact le_of_find? h' found

/-- Two lists in order that begin with one key correspond if these entries do and the rests. -/
theorem rel_find?_cons_iff (h : Ascending ((k, v) :: xs)) (h' : Ascending ((k, w) :: ys)) :
    (∀ key, Option.Rel R (find? key ((k, v) :: xs)) (find? key ((k, w) :: ys))) ↔
      R v w ∧ ∀ key, Option.Rel R (find? key xs) (find? key ys) := by
  constructor
  · intro each
    have first := each k
    rw [find?_cons_self, find?_cons_self] at first
    refine ⟨by cases first with | some related => exact related, fun key => ?_⟩
    by_cases there : k = key
    · subst there
      rw [find?_eq_none_of_lt (List.pairwise_cons.1 h).1,
        find?_eq_none_of_lt (List.pairwise_cons.1 h').1]
      exact .none
    · have found := each key
      rwa [find?, find?, if_neg there, if_neg there] at found
  · rintro ⟨related, rest⟩ key
    rw [find?, find?]
    split
    · exact .some related
    · exact rest key

/-- Lists in order go together entry by entry if what they have under each key goes together. -/
theorem forall₂_iff_find? (h : Ascending xs) (h' : Ascending ys) :
    List.Forall₂ (fun x y => x.1 = y.1 ∧ R x.2 y.2) xs ys ↔
      ∀ key, Option.Rel R (find? key xs) (find? key ys) := by
  induction xs generalizing ys with
  | nil =>
    cases ys with
    | nil => simp [find?]
    | cons y ys =>
      refine ⟨fun related => (by cases related), fun each => ?_⟩
      have there := each y.1
      rw [find?_cons_self y.1 y.2] at there
      cases there
  | cons x xs ih =>
    obtain ⟨k, v⟩ := x
    cases ys with
    | nil =>
      refine ⟨fun related => (by cases related), fun each => ?_⟩
      have there := each k
      rw [find?_cons_self] at there
      cases there
    | cons y ys =>
      obtain ⟨l, w⟩ := y
      rw [List.forall₂_cons, ih (List.pairwise_cons.1 h).2 (List.pairwise_cons.1 h').2]
      constructor
      · rintro ⟨⟨rfl, related⟩, rest⟩
        exact (rel_find?_cons_iff h h').2 ⟨related, rest⟩
      · intro each
        obtain rfl := first_eq_of_rel h h' each
        obtain ⟨related, rest⟩ := (rel_find?_cons_iff h h').1 each
        exact ⟨⟨rfl, related⟩, rest⟩

end Rows

end EventFlow.Assoc
