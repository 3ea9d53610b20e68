import EventFlow.Proofs.Json.Canonical
import EventFlow.Proofs.Json.Recovery
import Mathlib.Data.List.Forall2
import Mathlib.Data.List.Nodup

/-!
# Reading what a document means

A document can be read as it is written, or as the value that it means: there, the members of every
object are in key order and no key is there twice. `Document.ReadsMeaning` says of a reader that
whatever it reads of a document it reads of the value too, drawing on the supply in the same way.
Readers that go through the fields of a record have it where the readers of the fields do
(`readsMeaning_record`), as they look members up by name and refuse a name that is there twice.

A record `Document.Tells` itself if it is read back both ways; that follows from what
`Document.Yields` says about texts of any depth (`Yields.tells`). The readers are put together from
those of `EventFlow.Json.Record`.
-/

set_option autoImplicit false

namespace EventFlow

variable {α β : Type}

namespace Reading

/-- Where one reading ends with a value, so does another, and both draw on the supply alike. -/
def Keeps (r r' : Reading α) : Prop :=
  ∀ ⦃supply out⦄, r supply = some out → r' supply = some out

/-- A reader that reads the same as another keeps what the other reads. -/
theorem Keeps.refl (r : Reading α) : Keeps r r := fun _ _ read => read

/-- Where the first reader reads nothing there is nothing to keep. -/
theorem refuse_keeps (r : Reading α) : Keeps refuse r := nofun

theorem refuse_bind_keeps (f : α → Reading β) (r : Reading β) : Keeps (refuse >>= f) r := nofun

/-- Readers that go on from what is kept keep what is read in the end. -/
theorem Keeps.bind {r r' : Reading α} {f f' : α → Reading β} (first : Keeps r r')
    (second : ∀ a, Keeps (f a) (f' a)) : Keeps (r >>= f) (r' >>= f') := by
  intro supply out read
  obtain ⟨⟨a, middle⟩, one, two⟩ := Option.bind_eq_some_iff.1 read
  exact Option.bind_eq_some_iff.2 ⟨⟨a, middle⟩, first one, second a two⟩

/-- Where one reading goes on, so does another. -/
theorem Keeps.guarded {f f' : Unit → Reading α} {refused refused' : Bool}
    (guard : refused' = false) (h : Keeps (f ()) (f' ())) :
    Keeps (if refused then refuse >>= f else f ()) (if refused' then refuse >>= f' else f' ()) := by
  subst guard
  cases refused with
  | true => exact refuse_bind_keeps _ _
  | false => exact h

theorem Keeps.map {r r' : Reading α} (f : α → β) (h : Keeps r r') : Keeps (f <$> r) (f <$> r') :=
  h.bind fun a => .refl (pure (f a))

/-- A test may only become more generous. -/
theorem Keeps.ofOption {o o' : Option α} (h : ∀ a, o = some a → o' = some a) :
    Keeps (Reading.ofOption o) (Reading.ofOption o') := by
  cases o with
  | none => exact refuse_keeps _
  | some a =>
    rw [h a rfl]
    exact .refl _

end Reading

open Reading (Keeps)

namespace Document

/-! ## Documents that are not too high -/

mutual

/-- Where enough levels are left, all of a document is read. -/
theorem pruned_of_height_le : (d : Document) → ∀ {n : Nat}, d.height ≤ n → d.pruned n = d
  | .null, _, _ => rfl
  | .bool _, _, _ => rfl
  | .number _, _, _ => rfl
  | .string _, _, _ => rfl
  | .unreadable, _, _ => rfl
  | .array items, n, h => by
    cases n with
    | zero => cases h
    | succ n =>
      have inside := prunedItems_of_itemsHeight_le items (Nat.le_of_succ_le_succ h)
      rw [pruned, Nat.add_sub_cancel, inside, within, if_neg (Nat.succ_ne_zero n)]
  | .object members, n, h => by
    cases n with
    | zero => cases h
    | succ n =>
      have inside := prunedMembers_of_membersHeight_le members (Nat.le_of_succ_le_succ h)
      rw [pruned, Nat.add_sub_cancel, inside, within, if_neg (Nat.succ_ne_zero n)]

/-- A reader that goes deep enough cuts nothing off a list of documents, nor, by the same recursion,
off a document or its members. -/
theorem prunedItems_of_itemsHeight_le : (items : List Document) → ∀ {n : Nat},
    itemsHeight items ≤ n → prunedItems n items = items
  | [], _, _ => rfl
  | d :: rest, n, h => by
    obtain ⟨first, others⟩ := Nat.max_le.1 h
    rw [prunedItems, pruned_of_height_le d first, prunedItems_of_itemsHeight_le rest others]

/-- A reader that goes deep enough cuts nothing off the members of an object. -/
theorem prunedMembers_of_membersHeight_le : (members : List (String × Document)) → ∀ {n : Nat},
    membersHeight members ≤ n → prunedMembers n members = members
  | [], _, _ => rfl
  | (k, d) :: rest, n, h => by
    obtain ⟨first, others⟩ := Nat.max_le.1 h
    rw [prunedMembers, pruned_of_height_le d first, prunedMembers_of_membersHeight_le rest others]

end

/-! ## Documents and their meanings -/

/-- A document is the value that another means, written down. -/
def Means (d d' : Document) : Prop := ∃ v, d.toJson? = some v ∧ d' = ofJson v

/-- An entry of an object has the key of a member, and what the member means. -/
def MemberMeans (m : String × Document) (e : String × Json) : Prop :=
  e.1 = m.1 ∧ m.2.toJson? = some e.2

/-- What is read of a document is read of the value that it means. -/
def ReadsMeaning (read : Document → Reading α) : Prop :=
  ∀ ⦃d d'⦄, Means d d' → Keeps (read d) (read d')

section Means

variable {d d' : Document}

/-- A string has no meaning but itself. -/
theorem Means.string {s : String} (h : Means (.string s) d') : d' = .string s := by
  obtain ⟨v, value, rfl⟩ := h
  cases value
  rfl

theorem Means.number {n : JsonNumber} (h : Means (.number n) d') : d' = .number n := by
  obtain ⟨v, value, rfl⟩ := h
  cases value
  rfl

theorem Means.null (h : Means .null d') : d' = .null := by
  obtain ⟨v, value, rfl⟩ := h
  cases value
  rfl

/-- What is not `null` does not mean it. -/
theorem Means.ne_null (h : Means d d') (not_null : d ≠ .null) : d' ≠ .null := by
  obtain ⟨v, value, rfl⟩ := h
  rintro same
  cases v with
  | null =>
    cases d with
    | null => exact not_null rfl
    | array items =>
      rw [toJson?, Option.map_eq_some_iff] at value
      obtain ⟨values, -, no⟩ := value
      cases no
    | object members =>
      rw [toJson?, Option.map_eq_some_iff] at value
      obtain ⟨entries, -, no⟩ := value
      cases no
    | _ => cases value
  | _ => cases same

/-- Item by item, the values of a list are what its documents mean. -/
theorem forall₂_of_toItems? {items : List Document} {values : List Json}
    (h : toItems? items = some values) : List.Forall₂ Means items (ofItems values) := by
  induction items generalizing values with
  | nil =>
    cases h
    exact .nil
  | cons d rest ih =>
    rw [toItems?] at h
    split at h
    · next v vs first others =>
      cases h
      exact .cons ⟨v, first, rfl⟩ (ih others)
    · cases h

/-- Member by member, the entries of an object are what its documents mean. -/
theorem forall₂_of_toMembers? {members : List (String × Document)} {entries : List (String × Json)}
    (h : toMembers? members = some entries) : List.Forall₂ MemberMeans members entries := by
  induction members generalizing entries with
  | nil =>
    cases h
    exact .nil
  | cons m rest ih =>
    obtain ⟨k, d⟩ := m
    rw [toMembers?] at h
    split at h
    · next v vs first others =>
      cases h
      exact .cons ⟨rfl, first⟩ (ih others)
    · cases h

/-- What an array means is an array, item by item. -/
theorem Means.array {items : List Document} (h : Means (.array items) d') :
    ∃ items', d' = .array items' ∧ List.Forall₂ Means items items' := by
  obtain ⟨v, value, rfl⟩ := h
  rw [toJson?, Option.map_eq_some_iff] at value
  obtain ⟨values, read, rfl⟩ := value
  exact ⟨ofItems values, rfl, forall₂_of_toItems? read⟩

/-- What an object means has its members in key order, and of two under one key the later. -/
theorem Means.object {members : List (String × Document)} (h : Means (.object members) d') :
    ∃ entries, d' = .object (ofMembers (Assoc.ofList entries)) ∧
      List.Forall₂ MemberMeans members entries := by
  obtain ⟨v, value, rfl⟩ := h
  rw [toJson?, Option.map_eq_some_iff] at value
  obtain ⟨entries, read, rfl⟩ := value
  exact ⟨entries, rfl, forall₂_of_toMembers? read⟩

/-- A canonical value is what its document means. -/
theorem toJson?_ofJson {v : Json} (canonical : v.Canonical) : (ofJson v).toJson? = some v := by
  have whole := toJson?_pruned_ofJson v canonical (ofJson v).height
  rw [pruned_of_height_le _ (Nat.le_refl _), if_pos (Nat.le_refl _)] at whole
  exact whole

/-- What a document means is readable, so a document with a part that is not means nothing. -/
theorem Means.isReadable (h : Means d d') : d'.isReadable = true := by
  obtain ⟨v, value, rfl⟩ := h
  rw [Document.isReadable, toJson?_ofJson (d.canonical_of_toJson? value)]
  rfl

end Means

/-! ## Parts -/

/-- Text is read alike from a document and from what it means. -/
theorem readsMeaning_string : ReadsMeaning readString := by
  intro d d' h
  cases d with
  | string s =>
    rw [h.string]
    exact .refl _
  | _ => exact Reading.refuse_keeps _

/-- A number that fits in a document fits in what the document means. -/
theorem natBelow?_of_means {d d' : Document} (bound : Nat) (h : Means d d') {n : Nat}
    (found : d.natBelow? bound = some n) : d'.natBelow? bound = some n := by
  cases d with
  | number n =>
    rw [h.number]
    exact found
  | _ => cases found

theorem readsMeaning_nat (bound : Nat) : ReadsMeaning (readNat bound) :=
  fun _ _ h => .ofOption fun _ => natBelow?_of_means bound h

theorem readsMeaning_uint32 : ReadsMeaning readUInt32 :=
  fun _ _ h => (readsMeaning_nat _ h).map _

theorem readsMeaning_uint64 : ReadsMeaning readUInt64 :=
  fun _ _ h => (readsMeaning_nat _ h).map _

/-- A free value is where the two could come apart, and do not: it is what the document means. -/
theorem readsMeaning_json : ReadsMeaning readJson := by
  rintro d d' ⟨v, value, rfl⟩
  refine .ofOption fun w same => ?_
  rw [value] at same
  cases same
  exact toJson?_ofJson (d.canonical_of_toJson? value)

theorem readsMeaning_instant : ReadsMeaning readInstant := by
  intro d d' h
  cases d with
  | string s =>
    rw [h.string]
    exact .refl _
  | _ => exact Reading.refuse_keeps _

theorem readsMeaning_uuid : ReadsMeaning readUuid := by
  intro d d' h
  cases d with
  | string s =>
    rw [h.string]
    exact .refl _
  | _ => exact Reading.refuse_keeps _

/-- A name out of a list of names, such as a status or a policy, may be written as an object with
that name; both forms are kept. -/
theorem readsMeaning_name (named : String → Option α) : ReadsMeaning (readName named) := by
  intro d d' h
  unfold readName
  split
  · rw [h.string]
    exact .refl _
  · obtain ⟨v, value, rfl⟩ := h
    cases value
    exact .refl _
  · exact Reading.refuse_keeps _

/-- A list is read alike if its items are. -/
theorem readsMeaning_list {read : Document → Reading α} (h : ReadsMeaning read) :
    ReadsMeaning (readList read) := by
  have each {items items' : List Document} (means : List.Forall₂ Means items items') :
      Keeps (readEach read items) (readEach read items') := by
    induction means with
    | nil => exact .refl _
    | cons first _ ih => exact .bind (h first) fun a => ih.bind fun as => .refl _
  intro d d' means
  cases d with
  | array items =>
    obtain ⟨items', rfl, same⟩ := means.array
    exact each same
  | _ => exact Reading.refuse_keeps _

theorem readsMeaning_strings : ReadsMeaning (readList readString) :=
  readsMeaning_list readsMeaning_string

theorem readsMeaning_option {read : Document → Reading α} (h : ReadsMeaning read) :
    ReadsMeaning (readOption read) := by
  intro d d' means
  by_cases null : d = .null
  · subst null
    rw [means.null]
    exact .refl _
  · have there {d : Document} (not_null : d ≠ .null) : readOption read d = some <$> read d := by
      rw [readOption]
      exact not_null
    rw [there null, there (means.ne_null null)]
    exact (h means).map some

/-! ## Fields -/

/-- Under each of some names, the fields of a record have what the fields of another mean. -/
structure FieldsMean (names : List String) (fields fields' : Fields) : Prop where
  listed : fields'.listed = fields.listed
  found : ∀ name ∈ names, Option.Rel Means (fields.find? name) (fields'.find? name)

section Members

variable {members : List (String × Document)} {entries : List (String × Json)}
  {names : List String} {f f' : Fields → Reading α}

/-- Unknown members can be left out before or after the meaning is taken. -/
theorem forall₂_filter (p : String → Bool) (h : List.Forall₂ MemberMeans members entries) :
    List.Forall₂ MemberMeans (members.filter fun m => p m.1) (entries.filter fun e => p e.1) :=
  List.rel_filter (fun _ _ means => by simp only [means.1]) h

theorem map_fst_of_forall₂ (h : List.Forall₂ MemberMeans members entries) :
    entries.map (·.1) = members.map (·.1) := by
  induction h with
  | nil => rfl
  | cons first _ ih => rw [List.map_cons, List.map_cons, first.1, ih]

/-- What a field means is what is found under its name in the meaning. -/
theorem find?_of_forall₂ (name : String) (h : List.Forall₂ MemberMeans members entries) :
    Option.Rel Means (Assoc.find? name members) ((Assoc.find? name entries).map ofJson) := by
  induction h with
  | nil => exact .none
  | @cons m e _ _ first _ ih =>
    obtain ⟨k, d⟩ := m
    obtain ⟨k', v⟩ := e
    obtain ⟨rfl, value⟩ := first
    rw [Assoc.find?, Assoc.find?]
    split
    · exact .some ⟨v, value, rfl⟩
    · exact ih

/-- The members of a value's document, written without the recursion. -/
theorem ofMembers_eq_map (entries : List (String × Json)) :
    ofMembers entries = entries.map fun e => (e.1, ofJson e.2) := by
  induction entries with
  | nil => rfl
  | cons e rest ih =>
    obtain ⟨k, v⟩ := e
    rw [ofMembers, List.map_cons, ih]

theorem map_fst_ofMembers (entries : List (String × Json)) :
    (ofMembers entries).map (·.1) = entries.map (·.1) := by
  rw [ofMembers_eq_map, List.map_map]
  rfl

/-- The field of a value's document is the document of the value's field. -/
theorem find?_ofMembers (name : String) (entries : List (String × Json)) :
    Assoc.find? name (ofMembers entries) = (Assoc.find? name entries).map ofJson := by
  induction entries with
  | nil => rfl
  | cons e rest ih =>
    obtain ⟨k, v⟩ := e
    rw [ofMembers, Assoc.find?, Assoc.find?, ih]
    split <;> rfl

/-- To leave out members and to sort them can be done in either order. -/
theorem filter_ofMembers_ofList (p : String → Bool) (entries : List (String × Json)) :
    (ofMembers (Assoc.ofList entries)).filter (fun m => p m.1) =
      ofMembers (Assoc.ofList (entries.filter fun e => p e.1)) := by
  rw [ofMembers_eq_map, ofMembers_eq_map, ← Assoc.filter_ofList, List.filter_map]
  rfl

/-- The only member of an object among some names is the only one of the value that it means. -/
theorem filter_eq_singleton (h : List.Forall₂ MemberMeans members entries) {p : String → Bool}
    {k : String} {d : Document} (single : members.filter (fun m => p m.1) = [(k, d)]) :
    ∃ d', (ofMembers (Assoc.ofList entries)).filter (fun m => p m.1) = [(k, d')] ∧
      Means d d' := by
  have kept := forall₂_filter p h
  rw [single] at kept
  rw [filter_ofMembers_ofList]
  generalize entries.filter (fun e => p e.1) = others at kept ⊢
  cases kept with
  | @cons _ e _ _ first rest =>
    cases rest
    obtain ⟨k', v⟩ := e
    obtain ⟨rfl, value⟩ := first
    exact ⟨ofJson v, rfl, v, value, rfl⟩

/-- All that a value says is readable. -/
theorem isReadable_of_mem (h : List.Forall₂ MemberMeans members entries)
    {m : String × Document} (hm : m ∈ ofMembers (Assoc.ofList entries)) :
    m.2.isReadable = true := by
  rw [ofMembers_eq_map] at hm
  obtain ⟨e, he, rfl⟩ := List.mem_map.1 hm
  have entry := Assoc.mem_ofList he
  clear hm he
  induction h with
  | nil => cases entry
  | cons first _ ih =>
    rcases List.mem_cons.1 entry with rfl | later
    · exact Means.isReadable ⟨_, first.2, rfl⟩
    · exact ih later

/-- The fields of an object are looked up in the value that it means. -/
theorem keeps_object (h : List.Forall₂ MemberMeans members entries)
    (inside : ∀ fields fields', FieldsMean names fields fields' → Keeps (f fields) (f' fields')) :
    Keeps (Fields.ofDocument names (.object members) >>= f)
      (Fields.ofDocument names (.object (ofMembers (Assoc.ofList entries))) >>= f') := by
  by_cases once : ∀ name ∈ names, (members.map (·.1)).count name ≤ 1
  · have distinct : ((Assoc.ofList entries).map (·.1)).Nodup :=
      List.pairwise_map.2 ((Assoc.ascending_ofList entries).imp String.ne_of_lt)
    rw [ofDocument_object rfl once, pure_bind, ofDocument_object (map_fst_ofMembers _) fun name _ =>
      List.nodup_iff_count_le_one.1 distinct name, pure_bind]
    refine inside _ _ ⟨rfl, fun name listed => ?_⟩
    have found := find?_of_forall₂ name h
    rw [Fields.find?, Fields.find?, find?_ofMembers, Assoc.find?_ofList]
    · exact found
    · rw [map_fst_of_forall₂ h]
      exact once name listed
  · have twice : ¬ names.all (fun name => (members.filter (·.1 == name)).length ≤ 1) = true := by
      refine fun all => once fun name listed => ?_
      rw [List.count_eq_length_filter, List.filter_map, List.length_map]
      exact of_decide_eq_true (List.all_eq_true.1 all name listed)
    rw [Fields.ofDocument, if_neg twice]
    exact Reading.refuse_bind_keeps _ _

/-- The fields of a list are the values that its items mean, in the same order. -/
theorem find?_zip {items items' : List Document} (names : List String) (name : String)
    (h : List.Forall₂ Means items items') :
    Option.Rel Means (Assoc.find? name (names.zip items))
      (Assoc.find? name (names.zip items')) := by
  induction h generalizing names with
  | nil =>
    rw [List.zip_nil_right]
    exact .none
  | cons first _ ih =>
    cases names with
    | nil => exact .none
    | cons k names =>
      rw [List.zip_cons_cons, List.zip_cons_cons, Assoc.find?, Assoc.find?]
      split
      · exact .some first
      · exact ih names

/-- A record whose fields are read of what they mean is itself. -/
theorem readsMeaning_record
    (inside : ∀ fields fields', FieldsMean names fields fields' → Keeps (f fields) (f fields')) :
    ReadsMeaning fun d => Fields.ofDocument names d >>= f := by
  intro d d' means
  cases d with
  | object members =>
    obtain ⟨entries, rfl, same⟩ := means.object
    exact keeps_object same inside
  | array items =>
    obtain ⟨items', rfl, same⟩ := means.array
    simp only [Fields.ofDocument, same.length_eq]
    split
    · exact inside ⟨names.zip items, true⟩ ⟨names.zip items', true⟩
        ⟨rfl, fun name _ => find?_zip names name same⟩
    · exact Reading.refuse_bind_keeps _ _
  | _ => exact Reading.refuse_bind_keeps _ _

end Members

section Fields

variable {names : List String} {fields fields' : Fields} {name : String}
  {read : Document → Reading α}

/-- A required field is read alike from a document and from what it means. -/
theorem FieldsMean.required (means : FieldsMean names fields fields') (listed : name ∈ names)
    (h : ReadsMeaning read) : Keeps (fields.required name read) (fields'.required name read) := by
  have found := means.found name listed
  unfold Fields.required
  generalize fields.find? name = o, fields'.find? name = o' at found ⊢
  cases found with
  | some means => exact h means
  | none => exact .refl _

/-- A field with a default is, and the default stands in for it in both or in neither. -/
theorem FieldsMean.orElse (means : FieldsMean names fields fields') (listed : name ∈ names)
    (h : ReadsMeaning read) (default : Reading α) :
    Keeps (fields.orElse name read default) (fields'.orElse name read default) := by
  have found := means.found name listed
  unfold Fields.orElse
  generalize fields.find? name = o, fields'.find? name = o' at found ⊢
  cases found with
  | some means => exact h means
  | none => exact .refl _

/-- A field that may be missing or `null` is. -/
theorem FieldsMean.optional (means : FieldsMean names fields fields') (listed : name ∈ names)
    (h : ReadsMeaning read) : Keeps (fields.optional name read) (fields'.optional name read) := by
  have found := means.found name listed
  unfold Fields.optional
  rw [means.listed]
  generalize fields.find? name = o, fields'.find? name = o' at found ⊢
  cases found with
  | some means => exact readsMeaning_option h means
  | none => exact .refl _

end Fields

/-! ## Readable documents -/

/-- An array is readable if its items are. -/
theorem isReadable_array {items : List Document} (h : ∀ d ∈ items, d.isReadable = true) :
    (Document.array items).isReadable = true := by
  have each : (toItems? items).isSome = true := by
    induction items with
    | nil => rfl
    | cons d rest ih =>
      obtain ⟨first, others⟩ := List.forall_mem_cons.1 h
      obtain ⟨v, value⟩ := Option.isSome_iff_exists.1 first
      obtain ⟨vs, values⟩ := Option.isSome_iff_exists.1 (ih others)
      rw [toItems?, value, values]
      rfl
  rw [isReadable, toJson?, Option.isSome_map, each]

/-- An object is readable if its members are. -/
theorem isReadable_object {members : List (String × Document)}
    (h : ∀ m ∈ members, m.2.isReadable = true) : (Document.object members).isReadable = true := by
  have each : (toMembers? members).isSome = true := by
    induction members with
    | nil => rfl
    | cons m rest ih =>
      obtain ⟨k, d⟩ := m
      obtain ⟨first, others⟩ := List.forall_mem_cons.1 h
      obtain ⟨v, value⟩ := Option.isSome_iff_exists.1 first
      obtain ⟨vs, values⟩ := Option.isSome_iff_exists.1 (ih others)
      rw [toMembers?, value, values]
      rfl
  rw [isReadable, toJson?, Option.isSome_map, each]

theorem isReadable_list {write : α → Document} {list : List α}
    (h : ∀ a ∈ list, (write a).isReadable = true) :
    (Document.array (list.map write)).isReadable = true :=
  isReadable_array (List.forall_mem_map.2 h)

theorem isReadable_strings (texts : List String) : (ofStrings texts).isReadable = true :=
  isReadable_list fun _ _ => rfl

/-- The document of a canonical value can be read. -/
theorem isReadable_json {v : Json} (canonical : v.Canonical) : (ofJson v).isReadable = true := by
  rw [isReadable, toJson?_ofJson canonical]
  rfl

/-! ## Telling -/

/-- A document tells a value: the value is read of the document as it is written, and of the value
that the document means, and neither draws on the supply. -/
structure Tells (d : Document) (read : Document → Reading α) (a : α) : Prop where
  written : ∀ supply, read d supply = some (a, supply)
  meant : ∃ v, d.toJson? = some v ∧ ∀ supply, read (ofJson v) supply = some (a, supply)

/-- A document that tells a value can be read. -/
theorem Tells.isReadable {d : Document} {read : Document → Reading α} {a : α}
    (h : d.Tells read a) : d.isReadable = true := by
  obtain ⟨v, value, -⟩ := h.meant
  rw [Document.isReadable, value]
  rfl

/-- What a document yields is read from it, and nothing is drawn for that. -/
theorem Yields.read_eq {d : Document} {read : Document → Reading α} {a : α} (h : d.Yields read a)
    (supply : Supply) : read d supply = some (a, supply) := by
  have whole := h d.height supply
  rw [pruned_of_height_le _ (Nat.le_refl _), if_pos (Nat.le_refl _)] at whole
  exact whole

/-- A readable document that yields a value tells it, if its reader reads meanings. -/
theorem Yields.tells {d : Document} {read : Document → Reading α} {a : α} (h : d.Yields read a)
    (readable : d.isReadable = true) (keeps : ReadsMeaning read) : d.Tells read a := by
  obtain ⟨v, value⟩ := Option.isSome_iff_exists.1 readable
  exact ⟨h.read_eq, v, value, fun supply => keeps ⟨v, value, rfl⟩ (h.read_eq supply)⟩

end Document

end EventFlow
