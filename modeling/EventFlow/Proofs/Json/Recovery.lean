import EventFlow.Json.Record
import EventFlow.Proofs.Data.Uuid
import EventFlow.Proofs.Json.RoundTrip
import EventFlow.Proofs.Time.Rfc3339

/-!
# Fields are read back

A reader of records goes through a document whose deeper parts may be unreadable, and it may draw on
a supply of identifiers and points of time for what is absent. `Reading.Recovers` says that a
reading is decided by a height alone, and draws on nothing; `Document.Yields` says so of what is
read of a document within any number of levels. Of readings in sequence the higher decides
(`Reading.Recovers.bind`), so a record yields itself field by field (`yields_record`): there is one
lemma for each kind of part, and one for each way in which a field is asked for. The parts are read
by `Document.readString` and its like, the fields by `Fields.required`, `Fields.orElse` and
`Fields.optional`, all in `EventFlow.Json.Record`.
-/

set_option autoImplicit false

namespace EventFlow

variable {α β : Type}

namespace Reading

/-- The reading of something of a height ends with a value and draws on nothing, if the levels that
are left suffice, and is refused otherwise. -/
def Recovers (nesting : Nat) (r : Reading α) (height : Nat) (a : α) : Prop :=
  ∀ supply, r supply = if height ≤ nesting then some (a, supply) else none

variable {nesting height height' : Nat} {a : α} {b : β}

/-- A value that is there needs no levels. -/
theorem recovers_pure (nesting : Nat) (a : α) : Recovers nesting (pure a : Reading α) 0 a := by
  intro supply
  rw [if_pos (Nat.zero_le nesting)]
  rfl

/-- Of two readings, one after the other, the higher decides. -/
theorem Recovers.bind {r : Reading α} {f : α → Reading β} (first : Recovers nesting r height a)
    (second : Recovers nesting (f a) height' b) :
    Recovers nesting (r >>= f) (max height height') b := by
  intro supply
  show (r supply).bind (fun p => f p.1 p.2) = _
  rw [first supply]
  by_cases fits : height ≤ nesting
  · rw [if_pos fits, Option.bind_some, second supply]
    simp only [Nat.max_le, fits, true_and]
  · rw [if_neg fits, if_neg fun h => fits (Nat.max_le.1 h).1]
    rfl

/-- What is not high may be left out. -/
theorem Recovers.after_low {r : Reading α} (h : Recovers nesting r height a) :
    Recovers nesting r (max 0 height) a := by
  rw [Nat.zero_max]
  exact h

/-- A reading that is refused where something else is too high. -/
theorem Recovers.guarded {f : Unit → Reading α} {refused : Bool}
    (guard : refused = false ↔ height' ≤ nesting) (h : Recovers nesting (f ()) height a) :
    Recovers nesting (if refused then refuse >>= f else f ()) (max height' height) a := by
  intro supply
  cases refused with
  | true =>
    have high : ¬ height' ≤ nesting := fun fits => Bool.noConfusion (guard.2 fits)
    rw [if_neg fun fits => high (Nat.max_le.1 fits).1]
    rfl
  | false =>
    have fits : height' ≤ nesting := guard.1 rfl
    rw [if_neg Bool.false_ne_true, h supply]
    simp only [Nat.max_le, fits, true_and]

/-- What is made of a value needs as many levels as the value. -/
theorem Recovers.map {r : Reading α} (f : α → β) (h : Recovers nesting r height a) :
    Recovers nesting (f <$> r) height (f a) := by
  have done := h.bind (f := fun a => pure (f a)) (recovers_pure nesting (f a))
  rw [Nat.max_zero] at done
  exact done

end Reading

namespace Document

open Reading (Recovers)

/-- A document is read as a value, as far as the levels go. -/
def Yields (d : Document) (read : Document → Reading α) (a : α) : Prop :=
  ∀ nesting, Recovers nesting (read (d.pruned nesting)) d.height a

/-! ## Parts -/

/-- A string yields its text. -/
theorem yields_string (s : String) : (Document.string s).Yields readString s :=
  fun nesting => Reading.recovers_pure nesting s

/-- A test that holds as long as the levels suffice recovers its value. -/
theorem recovers_ofOption {nesting height : Nat} {o : Option α} {a : α}
    (h : o = if height ≤ nesting then some a else none) :
    Recovers nesting (Reading.ofOption o) height a := by
  intro supply
  subst h
  split <;> rfl

/-- The document of a canonical value yields it. Free values are the only part that may be too high.
-/
theorem yields_json {v : Json} (canonical : v.Canonical) : (ofJson v).Yields readJson v :=
  fun nesting => recovers_ofOption (toJson?_pruned_ofJson v canonical nesting)

/-- A test that holds needs no levels. -/
theorem recovers_some {o : Option α} {a : α} (h : o = some a) (nesting : Nat) :
    Recovers nesting (Reading.ofOption o) 0 a :=
  recovers_ofOption (by rw [h, if_pos (Nat.zero_le nesting)])

/-- A time that has a text yields itself. -/
theorem yields_instant {a : Instant} (readable : a.Readable) :
    (ofInstant a).Yields readInstant a :=
  recovers_some (Instant.read?_text readable)

theorem yields_uuid (u : Uuid) : (Document.string u.text).Yields readUuid u :=
  recovers_some (Uuid.read?_text u)

/-- The name of a variant yields it. -/
theorem yields_name {named : String → Option α} {s : String} {a : α} (h : named s = some a) :
    (Document.string s).Yields (readName named) a :=
  recovers_some h

/-- A number that fits into its field is found there. -/
theorem natBelow?_ofNat {bound n : Nat} (small : n < bound) (fits : n < UInt64.size) :
    (ofNat n).natBelow? bound = some n := by
  have value : ((UInt64.ofNat n).toNat : Int) = n := by
    rw [UInt64.toNat_ofNat_of_lt' fits]
  simp only [ofNat, ofUInt64, natBelow?, JsonInteger.ofUInt64, value]
  simp [small]

/-- A number that fits into its field yields itself. -/
theorem yields_nat {bound n : Nat} (small : n < bound) (fits : n < UInt64.size) :
    (ofNat n).Yields (readNat bound) n :=
  recovers_some (natBelow?_ofNat small fits)

theorem yields_uint64 (n : UInt64) : (ofUInt64 n).Yields readUInt64 n := by
  intro nesting
  have fits : n.toNat < UInt64.size := n.toNat_lt
  have read := (yields_nat fits fits nesting).map UInt64.ofNat
  rw [ofNat, UInt64.ofNat_toNat] at read
  exact read

/-- A number of 32 bits is written as one of 64. -/
theorem ofNat_toNat_uint32 (n : UInt32) : ofNat n.toNat = ofUInt64 n.toUInt64 := by
  have fits : n.toNat < UInt64.size := Nat.lt_trans n.toNat_lt (by decide)
  have same : UInt64.ofNat n.toNat = n.toUInt64 := by
    rw [← UInt64.toNat_inj, UInt64.toNat_ofNat_of_lt' fits, UInt32.toNat_toUInt64]
  rw [ofNat, same]

theorem yields_uint32 (n : UInt32) : (ofUInt64 n.toUInt64).Yields readUInt32 n := by
  intro nesting
  have small : n.toNat < UInt32.size := n.toNat_lt
  have fits : n.toNat < UInt64.size := Nat.lt_trans small (by decide)
  have read := (yields_nat small fits nesting).map UInt32.ofNat
  rw [ofNat_toNat_uint32, UInt32.ofNat_toNat] at read
  exact read

/-- A list is read item by item. -/
theorem yields_list {read : Document → Reading α} {write : α → Document} {list : List α}
    (h : ∀ a ∈ list, (write a).Yields read a) :
    (Document.array (list.map write)).Yields (readList read) list := by
  have each (nesting : Nat) : Recovers nesting
      (readEach read (prunedItems nesting (list.map write)))
      (itemsHeight (list.map write)) list := by
    induction list with
    | nil => exact Reading.recovers_pure nesting []
    | cons a rest ih =>
      have first := h a List.mem_cons_self nesting
      have others := ih fun b hb => h b (List.mem_cons_of_mem _ hb)
      exact first.bind (others.map (a :: ·))
  intro nesting supply
  cases nesting with
  -- Where no level is left, the list is unreadable, and it is one level high itself.
  | zero => rfl
  | succ n =>
    show readEach read (prunedItems n (list.map write)) supply = _
    rw [each n supply]
    simp only [height, Nat.add_le_add_iff_right]

/-- A list of texts yields them. -/
theorem yields_strings (texts : List String) :
    (ofStrings texts).Yields (readList readString) texts :=
  yields_list fun s _ => yields_string s

/-- What may be absent is read as absent or as what it is. -/
theorem yields_option {write : α → Document} {read : Document → Reading α} {o : Option α}
    (h : ∀ a, o = some a → (write a).Yields read a ∧ ∀ nesting, (write a).pruned nesting ≠ .null) :
    (ofOption write o).Yields (readOption read) o := by
  intro nesting
  cases o with
  | none => exact Reading.recovers_pure nesting none
  | some a =>
    obtain ⟨yields, not_null⟩ := h a rfl
    have there : readOption read ((write a).pruned nesting) =
        some <$> read ((write a).pruned nesting) := by
      rw [readOption]
      exact not_null nesting
    show Recovers nesting (readOption read ((write a).pruned nesting)) (write a).height (some a)
    rw [there]
    exact (yields nesting).map some

/-! ## Fields -/

/-- What is cut off leaves the names of the members. -/
theorem map_fst_prunedMembers (nesting : Nat) (members : List (String × Document)) :
    (prunedMembers nesting members).map (·.1) = members.map (·.1) := by
  induction members with
  | nil => rfl
  | cons m rest ih =>
    obtain ⟨k, d⟩ := m
    rw [prunedMembers, List.map_cons, List.map_cons, ih]

/-- A field is found under its name, and is cut off as deep as its place. -/
theorem find?_prunedMembers (nesting : Nat) (name : String) (members : List (String × Document)) :
    Assoc.find? name (prunedMembers nesting members) =
      (Assoc.find? name members).map (pruned nesting) := by
  induction members with
  | nil => rfl
  | cons m rest ih =>
    obtain ⟨k, d⟩ := m
    rw [prunedMembers, Assoc.find?, Assoc.find?, ih]
    split <;> rfl

section Fields

variable {members : List (String × Document)} {name : String} {d : Document} {a : α}
  {read : Document → Reading α}

/-- A required field is recovered if its document is not too high for its place. -/
theorem recovers_required (found : Assoc.find? name members = some d) (yields : d.Yields read a)
    (nesting : Nat) : Recovers nesting
      ((Fields.mk (prunedMembers nesting members) false).required name read) d.height a := by
  rw [Fields.required, Fields.find?, find?_prunedMembers, found]
  exact yields nesting

/-- A field that was written is recovered, whatever its default. -/
theorem recovers_orElse (found : Assoc.find? name members = some d) (yields : d.Yields read a)
    (default : Reading α) (nesting : Nat) : Recovers nesting
      ((Fields.mk (prunedMembers nesting members) false).orElse name read default) d.height a := by
  rw [Fields.orElse, Fields.find?, find?_prunedMembers, found]
  exact yields nesting

/-- A field that may be missing is recovered, also where `null` was written for it. -/
theorem recovers_optional {a : Option α} (found : Assoc.find? name members = some d)
    (yields : d.Yields (readOption read) a) (nesting : Nat) : Recovers nesting
      ((Fields.mk (prunedMembers nesting members) false).optional name read) d.height a := by
  rw [Fields.optional, Fields.find?, find?_prunedMembers, found]
  exact yields nesting

/-- The fields of an object in which no name is there twice. -/
theorem ofDocument_object {names keys : List String} {members : List (String × Document)}
    (keyed : members.map (·.1) = keys) (once : ∀ name ∈ names, keys.count name ≤ 1) :
    Fields.ofDocument names (.object members) = pure ⟨members, false⟩ := by
  have all : names.all (fun name => (members.filter (·.1 == name)).length ≤ 1) = true := by
    rw [List.all_eq_true]
    intro name hname
    have count := once name hname
    rw [← keyed, List.count_eq_length_filter, List.filter_map, List.length_map] at count
    exact decide_eq_true count
  rw [Fields.ofDocument, if_pos all]

/-- The fields of an object are read one by one. -/
theorem recovers_fields (members : List (String × Document)) (keys : List String)
    {names : List String} {f : Fields → Reading α} {nesting height : Nat}
    (keyed : members.map (·.1) = keys) (once : ∀ name ∈ names, keys.count name ≤ 1)
    (inside : Recovers nesting (f ⟨prunedMembers nesting members, false⟩) height a) :
    Recovers nesting (Fields.ofDocument names (.object (prunedMembers nesting members)) >>= f)
      height a := by
  have fields := ofDocument_object ((map_fst_prunedMembers nesting members).trans keyed) once
  rw [fields, pure_bind]
  exact inside

/-- An object is read field by field. -/
theorem yields_record (keys : List String) {names : List String} {f : Fields → Reading α}
    (keyed : members.map (·.1) = keys) (once : ∀ name ∈ names, keys.count name ≤ 1)
    (inside : ∀ nesting, Recovers nesting (f ⟨prunedMembers nesting members, false⟩)
      (membersHeight members) a) :
    (Document.object members).Yields (fun d => Fields.ofDocument names d >>= f) a := by
  intro nesting supply
  cases nesting with
  | zero => rfl
  | succ n =>
    have fields := recovers_fields members keys keyed once (inside n) supply
    simp only [height, Nat.add_le_add_iff_right]
    exact fields

end Fields

end Document

end EventFlow
