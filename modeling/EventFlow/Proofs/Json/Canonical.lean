import EventFlow.Json.Document
import EventFlow.Proofs.Data.Assoc

/-!
# Values in key order

Whatever a document means, its objects have their members in key order (`canonical_of_toJson?`), and
so have the values that are made of such values. The value that a document means is
`Document.toJson?` of it, in `EventFlow.Json.Document`.
-/

set_option autoImplicit false

namespace EventFlow

namespace Json

theorem canonicalItems_iff {items : List Json} :
    CanonicalItems items ↔ ∀ v ∈ items, v.Canonical := by
  induction items with
  | nil => simp [CanonicalItems]
  | cons v rest ih => simp [CanonicalItems, ih]

theorem canonicalMembers_iff {members : List (String × Json)} :
    CanonicalMembers members ↔ ∀ m ∈ members, m.2.Canonical := by
  induction members with
  | nil => simp [CanonicalMembers]
  | cons m rest ih =>
    obtain ⟨k, v⟩ := m
    simp [CanonicalMembers, ih]

theorem canonical_array {items : List Json} (h : ∀ v ∈ items, v.Canonical) :
    (array items).Canonical :=
  canonicalItems_iff.2 h

theorem canonical_object {members : List (String × Json)} (ascending : Assoc.Ascending members)
    (h : ∀ m ∈ members, m.2.Canonical) : (object members).Canonical :=
  ⟨ascending, canonicalMembers_iff.2 h⟩

theorem canonical_emptyObject : emptyObject.Canonical := ⟨Assoc.ascending_nil, trivial⟩

/-- Members in any order are put in order. -/
theorem canonical_ofMembers {members : List (String × Json)} (h : ∀ m ∈ members, m.2.Canonical) :
    (ofMembers members).Canonical :=
  canonical_object (Assoc.ascending_ofList members) fun m hm => h m (Assoc.mem_ofList hm)

end Json

namespace Document

mutual

/-- What a document means has its members in key order. -/
theorem canonical_of_toJson? : (d : Document) → ∀ {v : Json}, d.toJson? = some v → v.Canonical
  | .null, _, h => by
    cases h
    trivial
  | .bool _, _, h => by
    cases h
    trivial
  | .number _, _, h => by
    cases h
    trivial
  | .string _, _, h => by
    cases h
    trivial
  | .array items, v, h => by
    rw [toJson?, Option.map_eq_some_iff] at h
    obtain ⟨values, read, rfl⟩ := h
    exact Json.canonical_array (canonical_of_toItems? items read)
  | .object members, v, h => by
    rw [toJson?, Option.map_eq_some_iff] at h
    obtain ⟨entries, read, rfl⟩ := h
    exact Json.canonical_ofMembers (canonical_of_toMembers? members read)
  | .unreadable, _, h => nomatch h

theorem canonical_of_toItems? : (items : List Document) → ∀ {values : List Json},
    toItems? items = some values → ∀ v ∈ values, v.Canonical
  | [], _, h => by
    cases h
    exact nofun
  | d :: rest, values, h => by
    rw [toItems?] at h
    split at h
    · next v vs first others =>
      cases h
      exact List.forall_mem_cons.2 ⟨canonical_of_toJson? d first, canonical_of_toItems? rest others⟩
    · cases h

theorem canonical_of_toMembers? : (members : List (String × Document)) →
    ∀ {entries : List (String × Json)}, toMembers? members = some entries →
      ∀ m ∈ entries, m.2.Canonical
  | [], _, h => by
    cases h
    exact nofun
  | (k, d) :: rest, entries, h => by
    rw [toMembers?] at h
    split at h
    · next v vs first others =>
      cases h
      exact List.forall_mem_cons.2
        ⟨canonical_of_toJson? d first, canonical_of_toMembers? rest others⟩
    · cases h

end

end Document

end EventFlow
