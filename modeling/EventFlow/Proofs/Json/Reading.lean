import EventFlow.Json.Record
import EventFlow.Proofs.Json.Canonical
import EventFlow.Proofs.Time.Rfc3339

/-!
# What is read

`Reading.Ensures P r` says that whatever `r` ends with satisfies `P`, if the clock that it draws on
tells regular points of time. A reading of parts ensures what the readings of the parts do
(`Ensures.bind`): values are read in key order, and times, whether they are written or told by the
clock, are regular. Readings are those of `EventFlow.Json.Record`.
-/

set_option autoImplicit false

namespace EventFlow

variable {α β : Type}

namespace Reading

/-- What a reading that is not refused ends with has a property, and leaves the clock regular, if
the clock was regular before. -/
def Ensures (P : α → Prop) (r : Reading α) : Prop :=
  ∀ ⦃supply a later⦄, supply.clock.Regular → r supply = some (a, later) →
    P a ∧ later.clock.Regular

variable {P : α → Prop} {Q : β → Prop}

/-- A value that is there ensures what it has. -/
theorem ensures_pure {a : α} (h : P a) : (pure a : Reading α).Ensures P := by
  intro supply b later clock read
  cases read
  exact ⟨h, clock⟩

/-- Who refuses ensures anything. -/
theorem ensures_refuse : (refuse : Reading α).Ensures P := by
  intro supply a later clock read
  cases read

/-- What a reader ensures may be used by the readers behind it. -/
theorem Ensures.bind {r : Reading α} {f : α → Reading β} (first : r.Ensures P)
    (second : ∀ a, P a → (f a).Ensures Q) : (r >>= f).Ensures Q := by
  intro supply b later clock read
  obtain ⟨⟨a, middle⟩, one, two⟩ := Option.bind_eq_some_iff.1 read
  obtain ⟨holds, regular⟩ := first clock one
  exact second a holds regular two

/-- A test in front of a reader takes nothing from what the reader ensures. -/
theorem Ensures.guarded {f : Unit → Reading α} {refused : Bool} (h : (f ()).Ensures P) :
    (if refused then refuse >>= f else f ()).Ensures P := by
  cases refused with
  | true => exact (ensures_refuse (P := fun _ => True)).bind fun _ _ => h
  | false => exact h

theorem Ensures.map {r : Reading α} {f : α → β} (h : r.Ensures P) (along : ∀ a, P a → Q (f a)) :
    (f <$> r).Ensures Q :=
  h.bind fun a holds => ensures_pure (along a holds)

theorem ensures_ofOption {o : Option α} (h : ∀ a, o = some a → P a) :
    (Reading.ofOption o).Ensures P := by
  cases o with
  | none => exact ensures_refuse
  | some a => exact ensures_pure (h a rfl)

/-- The clock says times that exist. -/
theorem ensures_now : Reading.now.Ensures Instant.Regular := by
  intro supply a later clock read
  cases read
  exact ⟨clock, supply.clock.regular_succ⟩

end Reading

namespace Document

theorem ensures_readString (d : Document) : (readString d).Ensures fun _ => True := by
  cases d with
  | string s => exact Reading.ensures_pure trivial
  | _ => exact Reading.ensures_refuse

theorem ensures_readName (named : String → Option α) (d : Document) :
    (readName named d).Ensures fun _ => True := by
  unfold readName
  split
  · exact Reading.ensures_ofOption fun _ _ => trivial
  · exact Reading.ensures_ofOption fun _ _ => trivial
  · exact Reading.ensures_refuse

/-- A number that is read fits into its field. -/
theorem ensures_readNat (bound : Nat) (d : Document) : (readNat bound d).Ensures (· < bound) := by
  apply Reading.ensures_ofOption
  intro n h
  unfold natBelow? at h
  split at h
  · split at h
    · next inside =>
      cases h
      omega
    · cases h
  · cases h

theorem ensures_readUInt32 (d : Document) : (readUInt32 d).Ensures fun _ => True :=
  (ensures_readNat _ d).map fun _ _ => trivial

theorem ensures_readUInt64 (d : Document) : (readUInt64 d).Ensures fun _ => True :=
  (ensures_readNat _ d).map fun _ _ => trivial

/-- A free value is canonical when it is read: its members have been sorted. -/
theorem ensures_readJson (d : Document) : (readJson d).Ensures Json.Canonical :=
  Reading.ensures_ofOption fun _ => d.canonical_of_toJson?

/-- A time that is read exists. -/
theorem ensures_readInstant (d : Document) : (readInstant d).Ensures Instant.Regular := by
  cases d with
  | string s => exact Reading.ensures_ofOption fun _ h => (Instant.readable_of_read? h).regular
  | _ => exact Reading.ensures_refuse

theorem ensures_readUuid (d : Document) : (readUuid d).Ensures fun _ => True := by
  cases d with
  | string s => exact Reading.ensures_ofOption fun _ _ => trivial
  | _ => exact Reading.ensures_refuse

variable {P : α → Prop} {read : Document → Reading α}

/-- All items of a list have what every item ensures. -/
theorem ensures_readList (h : ∀ d, (read d).Ensures P) (d : Document) :
    (readList read d).Ensures fun list => ∀ a ∈ list, P a := by
  have each (items : List Document) :
      (readEach read items).Ensures fun list => ∀ a ∈ list, P a := by
    induction items with
    | nil => exact Reading.ensures_pure nofun
    | cons d rest ih =>
      refine (h d).bind fun a first => ih.bind fun others later => ?_
      exact Reading.ensures_pure (List.forall_mem_cons.2 ⟨first, later⟩)
  cases d with
  | array items => exact each items
  | _ => exact Reading.ensures_refuse

theorem ensures_readOption (h : ∀ d, (read d).Ensures P) (d : Document) :
    (readOption read d).Ensures fun o => ∀ a, o = some a → P a := by
  have something : (some <$> read d).Ensures fun o => ∀ a, o = some a → P a := by
    refine (h d).map fun a holds b same => ?_
    cases same
    exact holds
  cases d with
  | null => exact Reading.ensures_pure nofun
  | _ => exact something

end Document

namespace Fields

variable {P : α → Prop} {read : Document → Reading α}

theorem ensures_ofDocument (names : List String) (d : Document) :
    (ofDocument names d).Ensures fun _ => True := by
  unfold ofDocument
  split
  · split
    · exact Reading.ensures_pure trivial
    · exact Reading.ensures_refuse
  · split
    · exact Reading.ensures_pure trivial
    · exact Reading.ensures_refuse
  · exact Reading.ensures_refuse

variable (fields : Fields) (name : String)

/-- A required field ensures what its reader does. -/
theorem ensures_required (h : ∀ d, (read d).Ensures P) :
    (fields.required name read).Ensures P := by
  unfold required
  split
  · exact h _
  · exact Reading.ensures_refuse

/-- A field with a default ensures what both the reader and the default do. -/
theorem ensures_orElse {default : Reading α} (h : ∀ d, (read d).Ensures P)
    (otherwise : default.Ensures P) : (fields.orElse name read default).Ensures P := by
  unfold orElse
  split
  · exact h _
  · exact otherwise

/-- A field that may be missing ensures it of what is there. -/
theorem ensures_optional (h : ∀ d, (read d).Ensures P) :
    (fields.optional name read).Ensures fun o => ∀ a, o = some a → P a := by
  unfold optional
  split
  · exact Document.ensures_readOption h _
  · split
    · exact Reading.ensures_refuse
    · exact Reading.ensures_pure nofun

theorem ensures_text (default : String) : (fields.text name default).Ensures fun _ => True :=
  fields.ensures_orElse name Document.ensures_readString (Reading.ensures_pure trivial)

theorem ensures_texts : (fields.texts name).Ensures fun _ => True := by
  refine fields.ensures_orElse name (fun d => ?_) (Reading.ensures_pure trivial)
  intro supply a later clock read
  exact ⟨trivial, (Document.ensures_readList Document.ensures_readString d clock read).2⟩

/-- A free value with a canonical default is canonical. -/
theorem ensures_json {default : Json} (h : default.Canonical) :
    (fields.json name default).Ensures Json.Canonical :=
  fields.ensures_orElse name Document.ensures_readJson (Reading.ensures_pure h)

theorem ensures_instant : (fields.instant name).Ensures Instant.Regular :=
  fields.ensures_orElse name Document.ensures_readInstant Reading.ensures_now

end Fields

end EventFlow
