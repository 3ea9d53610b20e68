import EventFlow.Proofs.Store.Requests
import EventFlow.Proofs.Text.ByteOrder
import Mathlib.Data.Finmap
import Mathlib.Data.Finset.Sort

/-!
# The definitions as finite maps

A `Catalogue` is what a store of definitions is about: for each kind of definition a finite map from
identifiers to records, and how the writes to come will end where there is a file. Its answers are
read off the maps. A store answers every request as its catalogue does, and becomes the store of the
catalogue that is left (`Store.Request.perform_refines`), so a store that starts empty answers
whatever sequence of requests comes as empty maps would (`Store.Request.refined_of_performAll`). The
requests are those of `EventFlow.Store.Definitions` and `EventFlow.Store.Workflows`.
-/

set_option autoImplicit false

namespace EventFlow

/-- The records of a kind by their identifiers. -/
abbrev Records (k : Kind) := Finmap fun _ : String => k.Record

/-- A finite map for each kind of definition, and how writes to the file will end if there is
one. -/
structure Catalogue where
  records : (k : Kind) → Records k
  writes : Option (Nat → WriteOutcome)

namespace Catalogue

open Definition (collection idWord withId)

/-- Maps that hold nothing. -/
def empty (writes : Option (Nat → WriteOutcome)) : Catalogue := ⟨fun _ => ∅, writes⟩

/-- The record of a kind under an identifier. -/
def find? (c : Catalogue) (k : Kind) (key : String) : Option k.Record := (c.records k).lookup key

/-- A record is answered, with another map in the place of one, unless that cannot be written. -/
def adopt (c : Catalogue) (k : Kind) (changed : Records k) (r : k.Record) : Answer × Catalogue :=
  let adopted := Function.update c.records k changed
  match c.writes with
  | none => (.record k r, ⟨adopted, none⟩)
  | some writes =>
    let later := some fun n => writes (n + 1)
    match writes 0 with
    | .written => (.record k r, ⟨adopted, later⟩)
    | .temporaryFailed reason => (.refused (.snapshotFile reason), ⟨c.records, later⟩)
    | .renameFailed reason => (.refused (.snapshotFile reason), ⟨c.records, later⟩)

/-- Adds a record under its identifier, unless that is taken. -/
def add (c : Catalogue) (k : Kind) (r : k.Record) : Answer × Catalogue :=
  if Definition.id r ∈ c.records k then
    (.refused (.duplicate (collection k.Record) (Definition.id r)), c)
  else c.adopt k ((c.records k).insert (Definition.id r) r) r

/-- Adds a record, under a generated identifier if its own is blank. -/
def create (c : Catalogue) (k : Kind) (r : k.Record) (supply : Supply) :
    Answer × Catalogue × Supply :=
  if Text.isBlankText (Definition.id r) then
    let (fresh, later) := supply.recordId (idWord k.Record)
    let (answer, c) := c.add k (withId fresh r)
    (answer, c, later)
  else
    let (answer, c) := c.add k r
    (answer, c, supply)

/-- The record under an identifier, if there is one. -/
def get (c : Catalogue) (k : Kind) (key : String) : Answer :=
  match c.find? k key with
  | some r => .record k r
  | none => .refused (.notFound (collection k.Record) key)

/-- The records of a kind in the order of the bytes of their identifiers. -/
def list (c : Catalogue) (k : Kind) : List k.Record :=
  ((c.records k).keys.sort Text.InByteOrder).filterMap (c.find? k)

/-- Edits the record under an identifier, which it keeps, if there is one. -/
def edit (c : Catalogue) (k : Kind) (key : String) (change : k.Record → k.Record) :
    Answer × Catalogue :=
  match c.find? k key with
  | some r =>
    let edited := withId key (change r)
    c.adopt k ((c.records k).insert key edited) edited
  | none => (.refused (.notFound (collection k.Record) key), c)

/-- Takes out the record under an identifier, if there is one. -/
def remove (c : Catalogue) (k : Kind) (key : String) : Answer × Catalogue :=
  match c.find? k key with
  | some r => c.adopt k ((c.records k).erase key) r
  | none => (.refused (.notFound (collection k.Record) key), c)

/-- Sets the fields of a workflow that an update names, and the time of the update. -/
def update (c : Catalogue) (id : String) (update : WorkflowUpdate) (supply : Supply) :
    Answer × Catalogue × Supply :=
  let (time, later) := supply.now
  let (answer, c) := c.edit .workflow id (update.apply time)
  (answer, c, later)

/-- The answer of a catalogue to a request, and the catalogue after it. -/
def answer (c : Catalogue) (supply : Supply) : Store.Request → Answer × Catalogue × Supply
  | .create k r => c.create k r supply
  | .createWorkflow w => c.create .workflow { w with updatedAt := w.createdAt } supply
  | .get k id => (c.get k id, c, supply)
  | .list k => (.records k (c.list k), c, supply)
  | .replace k id r =>
    let (answer, c) := c.edit k id fun _ => r
    (answer, c, supply)
  | .modify k id change =>
    let (answer, c) := c.edit k id change
    (answer, c, supply)
  | .updateWorkflow id update => c.update id update supply
  | .setWorkflowStatus id status => c.update id { WorkflowUpdate.empty with status } supply
  | .delete k id =>
    let (answer, c) := c.remove k id
    (answer, c, supply)

/-- The answers of a catalogue to requests, one after the other, and the catalogue after them. -/
def answerAll : List Store.Request → Catalogue → Supply → List Answer × Catalogue × Supply
  | [], c, supply => ([], c, supply)
  | request :: rest, c, supply =>
    let (answer, c, supply) := c.answer supply request
    let (answers, c, supply) := answerAll rest c supply
    (answer :: answers, c, supply)

/-! What a catalogue does to one record leaves the others. -/

section Others

variable {c : Catalogue} {k other : Kind} {own key : String}

theorem find?_adopt {changed : Records k} (r : k.Record)
    (others : ∀ key, key ≠ own → changed.lookup key = c.find? k key)
    (apart : (other, key) ≠ (k, own)) :
    (c.adopt k changed r).2.find? other key = c.find? other key := by
  have adopted : (Function.update c.records k changed other).lookup key = c.find? other key := by
    by_cases same : other = k
    · subst same
      rw [Function.update_self]
      exact others key fun h => apart (by rw [h])
    · rw [Function.update_of_ne same, find?]
  unfold adopt
  split
  · exact adopted
  · dsimp only
    split
    · exact adopted
    · rfl
    · rfl

theorem find?_add {r : k.Record} (apart : (other, key) ≠ (k, Definition.id r)) :
    (c.add k r).2.find? other key = c.find? other key := by
  unfold add
  split
  · rfl
  · exact find?_adopt r (fun _ h => Finmap.lookup_insert_of_ne _ h) apart

theorem find?_edit {change : k.Record → k.Record} (apart : (other, key) ≠ (k, own)) :
    (c.edit k own change).2.find? other key = c.find? other key := by
  unfold edit
  split
  · exact find?_adopt _ (fun _ h => Finmap.lookup_insert_of_ne _ h) apart
  · rfl

theorem find?_remove (apart : (other, key) ≠ (k, own)) :
    (c.remove k own).2.find? other key = c.find? other key := by
  unfold remove
  split
  · exact find?_adopt _ (fun _ h => Finmap.lookup_erase_ne h) apart
  · rfl

theorem find?_create {r : k.Record} {supply : Supply}
    (apart : (other, key) ≠ (k, Definition.id (Store.identified r supply).1)) :
    (c.create k r supply).2.1.find? other key = c.find? other key := by
  unfold create
  unfold Store.identified at apart
  split
  · next blank =>
    rw [if_pos blank] at apart
    exact find?_add apart
  · next named =>
    rw [if_neg named] at apart
    exact find?_add apart

end Others

/-- What a request is not about stays. -/
theorem find?_answer (c : Catalogue) {supply : Supply} {request : Store.Request} {k : Kind}
    {key : String} (apart : request.subject? supply ≠ some (k, key)) :
    (c.answer supply request).2.1.find? k key = c.find? k key := by
  have apart' {own : Kind × String} (h : request.subject? supply = some own) : (k, key) ≠ own :=
    fun same => apart (by rw [h, same])
  cases request with
  | create k r => exact find?_create (apart' rfl)
  | createWorkflow w => exact find?_create (k := .workflow) (apart' rfl)
  | get k id => rfl
  | list k => rfl
  | replace k id r => exact find?_edit (apart' rfl)
  | modify k id edit => exact find?_edit (apart' rfl)
  | updateWorkflow id update => exact find?_edit (k := .workflow) (apart' rfl)
  | setWorkflowStatus id status => exact find?_edit (k := .workflow) (apart' rfl)
  | delete k id => exact find?_remove (apart' rfl)

end Catalogue

/-! ## The map of a table -/

namespace Table

variable {k : Kind}

/-- The records of a table by their identifiers. -/
def toMap (table : Table k.Record) : Records k :=
  (table.map fun entry => (⟨entry.1, entry.2⟩ : Sigma fun _ : String => k.Record)).toFinmap

@[simp] theorem lookup_toMap (table : Table k.Record) (key : String) :
    table.toMap.lookup key = Assoc.find? key table := by
  rw [toMap, Finmap.dlookup_list_toFinmap]
  induction table with
  | nil => rfl
  | cons entry rest ih =>
    obtain ⟨other, r⟩ := entry
    by_cases same : other = key
    · subst same
      simp [Assoc.find?]
    · rw [List.map_cons, List.dlookup_cons_ne _ _ (Ne.symm same), ih, Assoc.find?, if_neg same]

theorem mem_toMap_iff {table : Table k.Record} {key : String} :
    key ∈ table.toMap ↔ ∃ r, Assoc.find? key table = some r := by
  rw [Finmap.mem_iff]
  simp only [lookup_toMap]

theorem toMap_insert (table : Table k.Record) (key : String) (r : k.Record) :
    toMap (Assoc.insert key r table) = table.toMap.insert key r := by
  refine Finmap.ext_lookup fun other => ?_
  by_cases same : other = key
  · subst same
    rw [lookup_toMap, Assoc.find?_insert_self, Finmap.lookup_insert]
  · rw [lookup_toMap, Assoc.find?_insert_of_ne same, Finmap.lookup_insert_of_ne _ same,
      lookup_toMap]

theorem toMap_erase (table : Table k.Record) (key : String) :
    toMap (Assoc.erase key table) = table.toMap.erase key := by
  refine Finmap.ext_lookup fun other => ?_
  by_cases same : other = key
  · subst same
    rw [lookup_toMap, Assoc.find?_erase_self, Finmap.lookup_erase]
  · rw [lookup_toMap, Assoc.find?_erase_of_ne same, Finmap.lookup_erase_ne same, lookup_toMap]

/-- The keys of the map in the order of their bytes are those of the table in its own order. -/
theorem sort_keys_toMap {table : Table k.Record} (ascending : Assoc.Ascending table) :
    table.toMap.keys.sort Text.InByteOrder = table.map (·.1) := by
  have keys : table.toMap.keys = (table.map (·.1)).toFinset := by
    ext key
    rw [Finmap.mem_keys, mem_toMap_iff, List.mem_toFinset, Assoc.mem_keys_iff]
  have sorted : (table.map (·.1)).Pairwise (· < ·) := List.pairwise_map.2 ascending
  rw [keys, List.toFinset_sort _ (sorted.imp fun h => ne_of_lt h)]
  exact sorted.imp fun h => Text.inByteOrder_iff.2 (le_of_lt h)

/-- The records of the map in the order of the bytes of their keys are those of the table. -/
theorem records_toMap {table : Table k.Record} (ascending : Assoc.Ascending table) :
    (table.toMap.keys.sort Text.InByteOrder).filterMap table.toMap.lookup = table.records := by
  rw [sort_keys_toMap ascending, List.filterMap_map, records, ← List.filterMap_eq_map]
  refine List.filterMap_congr fun entry hentry => ?_
  exact (lookup_toMap _ _).trans (Assoc.find?_of_mem ascending hentry)

end Table

/-! ## The catalogue of a store -/

namespace Collections

/-- The records of collections by their identifiers. -/
def maps (c : Collections) (k : Kind) : Records k := (c.table k).toMap

/-- Another table in the place of one is another map in the place of one. -/
theorem maps_setTable {k : Kind} (t : Table k.Record) (c : Collections) :
    (Definition.setTable t c).maps = Function.update c.maps k t.toMap := by
  funext other
  by_cases same : other = k
  · subst same
    rw [Function.update_self, maps, table_setTable]
  · rw [Function.update_of_ne same, maps, table_setTable_of_ne same, maps]

end Collections

namespace Store

variable {k : Kind}

/-- The definitions of a store by their identifiers, and how its writes will end. -/
def catalogue (s : Store) : Catalogue := ⟨s.collections.maps, s.backing.map Backing.outcomes⟩

@[simp] theorem find?_catalogue (s : Store) (k : Kind) (key : String) :
    s.catalogue.find? k key = s.find? key :=
  Table.lookup_toMap _ _

/-- The catalogue of a store without definitions holds nothing. -/
theorem catalogue_of_empty {s : Store} (started : ∀ k, s.collections.table k = []) :
    s.catalogue = .empty (s.backing.map Backing.outcomes) := by
  have maps : s.collections.maps = fun _ => ∅ := funext fun k => by
    rw [Collections.maps, started]
    rfl
  rw [catalogue, maps, Catalogue.empty]

/-- A change that answers a record and puts another table in the place of one is committed as the
catalogue adopts it. -/
theorem adopt_catalogue {s : Store} {change : Change k.Record} {r : k.Record} {t : Table k.Record}
    (accepted : change s.collections = (.ok r, Definition.setTable t s.collections)) :
    s.catalogue.adopt k t.toMap r =
      (.ofResult k (s.commit change).1, (s.commit change).2.catalogue) := by
  unfold commit Catalogue.adopt
  rcases hb : s.backing with _ | b
  · simp [catalogue, hb, accepted, Answer.ofResult, Collections.maps_setTable]
  · unfold Backing.write
    cases outcome : b.outcomes 0 <;>
      simp [catalogue, hb, accepted, outcome, Answer.ofResult, Collections.maps_setTable]

/-- A record is added as the catalogue adds it. -/
theorem add_catalogue (s : Store) (r : k.Record) :
    s.catalogue.add k r =
      (.ofResult k (s.commit (creation r)).1, (s.commit (creation r)).2.catalogue) := by
  cases found : Assoc.find? (Definition.id r) (s.collections.table k) with
  | some old =>
    have taken : Definition.id r ∈ s.catalogue.records k := Table.mem_toMap_iff.2 ⟨old, found⟩
    have refused : creation r s.collections =
        (.error (.duplicate (Definition.collection k.Record) (Definition.id r)),
          s.collections) := by
      rw [creation, ← Collections.table, found]
    rw [Catalogue.add, if_pos taken, commit_of_error (careful_creation r) refused]
    rfl
  | none =>
    have free : Definition.id r ∉ s.catalogue.records k := fun taken => by
      obtain ⟨old, other⟩ := Table.mem_toMap_iff.1 taken
      rw [found] at other
      cases other
    have accepted : creation r s.collections = (.ok r, Definition.setTable
        (Assoc.insert (Definition.id r) r (s.collections.table k)) s.collections) := by
      rw [creation, ← Collections.table, found]
      rfl
    rw [Catalogue.add, if_neg free, ← adopt_catalogue accepted, Table.toMap_insert]
    rfl

/-- A record is created as the catalogue creates it. -/
theorem create_catalogue (s : Store) (r : k.Record) (supply : Supply) :
    s.catalogue.create k r supply = (.ofResult k (s.create r supply).1,
      (s.create r supply).2.1.catalogue, (s.create r supply).2.2) := by
  unfold Catalogue.create create identified
  split <;> simp only [add_catalogue]

/-- A record is edited as the catalogue edits it. -/
theorem edit_catalogue (s : Store) (key : String) (edit : k.Record → k.Record) :
    s.catalogue.edit k key edit =
      (.ofResult k (s.modify key edit).1, (s.modify key edit).2.catalogue) := by
  rw [Catalogue.edit, find?_catalogue, find?, modify]
  cases found : Assoc.find? key (Definition.table s.collections : Table k.Record) with
  | some r =>
    have accepted : modification key edit s.collections =
        (.ok (Definition.withId key (edit r)), Definition.setTable
          (Assoc.insert key (Definition.withId key (edit r)) (s.collections.table k))
          s.collections) := by
      rw [modification, found]
      rfl
    rw [← adopt_catalogue accepted, Table.toMap_insert]
    rfl
  | none =>
    have refused : modification key edit s.collections =
        (.error (.notFound (Definition.collection k.Record) key), s.collections) := by
      rw [modification, found]
    rw [commit_of_error (careful_modification key edit) refused]
    rfl

/-- A record is removed as the catalogue removes it. -/
theorem remove_catalogue (s : Store) (key : String) :
    s.catalogue.remove k key =
      (.ofResult k (s.delete k.Record key).1, (s.delete k.Record key).2.catalogue) := by
  rw [Catalogue.remove, find?_catalogue, find?, delete]
  cases found : Assoc.find? key (Definition.table s.collections : Table k.Record) with
  | some r =>
    have accepted : deletion k.Record key s.collections = (.ok r,
        Definition.setTable (Assoc.erase key (s.collections.table k)) s.collections) := by
      rw [deletion, found]
      rfl
    rw [← adopt_catalogue accepted, Table.toMap_erase]
    rfl
  | none =>
    have refused : deletion k.Record key s.collections =
        (.error (.notFound (Definition.collection k.Record) key), s.collections) := by
      rw [deletion, found]
    rw [commit_of_error (careful_deletion key) refused]
    rfl

/-- A record is looked up as the catalogue looks it up. -/
theorem get_catalogue (s : Store) (key : String) :
    s.catalogue.get k key = .ofResult k (s.get k.Record key) := by
  rw [Catalogue.get, find?_catalogue, get]
  cases s.find? (α := k.Record) key <;> rfl

/-- The records of a store whose tables are tidy are listed as its catalogue lists them. -/
theorem list_catalogue {s : Store} (tidy : s.collections.Tidy) :
    s.catalogue.list k = s.list k.Record :=
  Table.records_toMap (tidy k).ascending

end Store

/-! ## Requests -/

namespace Store.Request

/-- A store answers a request as its catalogue does, and becomes the store of the catalogue that is
left. -/
theorem perform_refines (request : Request) {s : Store} (supply : Supply)
    (tidy : s.collections.Tidy) :
    s.catalogue.answer supply request = ((request.perform s supply).1,
      (request.perform s supply).2.1.catalogue, (request.perform s supply).2.2) := by
  cases request with
  | create k r => exact s.create_catalogue r supply
  | createWorkflow w => exact s.create_catalogue (k := .workflow) _ supply
  | get k id => simp only [Catalogue.answer, perform, s.get_catalogue id]
  | list k => simp only [Catalogue.answer, perform, Store.list_catalogue tidy]
  | replace k id r => simp only [Catalogue.answer, perform, s.edit_catalogue, Store.replace]
  | modify k id edit => simp only [Catalogue.answer, perform, s.edit_catalogue]
  | updateWorkflow id update =>
    simp only [Catalogue.answer, Catalogue.update, perform, Store.updateWorkflow]
    rw [s.edit_catalogue (k := .workflow)]
  | setWorkflowStatus id status =>
    simp only [Catalogue.answer, Catalogue.update, perform, Store.setWorkflowStatus,
      Store.updateWorkflow]
    rw [s.edit_catalogue (k := .workflow)]
  | delete k id => simp only [Catalogue.answer, perform, s.remove_catalogue]

/-- A store answers requests, one after the other, as its catalogue does. -/
theorem performAll_answerAll (requests : List Request) {s : Store} (supply : Supply)
    (tidy : s.collections.Tidy) :
    Catalogue.answerAll requests s.catalogue supply = ((performAll requests s supply).1,
      (performAll requests s supply).2.1.catalogue, (performAll requests s supply).2.2) := by
  induction requests generalizing s supply with
  | nil => rfl
  | cons request rest ih =>
    rw [Catalogue.answerAll, performAll, request.perform_refines supply tidy]
    dsimp only
    rw [ih _ (request.tidy_perform supply tidy)]

/-- What a store does with requests that come one after the other, and with one more, is what finite
maps would do that hold nothing in the beginning. -/
structure Refined (requests : List Request) (s : Store) (supply : Supply) : Prop where
  answers : (performAll requests s supply).1 =
    (Catalogue.answerAll requests (.empty (s.backing.map Backing.outcomes)) supply).1
  catalogue : (performAll requests s supply).2.1.catalogue =
    (Catalogue.answerAll requests (.empty (s.backing.map Backing.outcomes)) supply).2.1
  /-- Every record is under its own identifier. -/
  tidy : (performAll requests s supply).2.1.collections.Tidy
  /-- No identifier is blank. -/
  named : (performAll requests s supply).2.1.collections.Named
  /-- The next request does not touch the ledger. -/
  executions : ∀ (next : Request) (supply' : Supply),
    (next.perform (performAll requests s supply).2.1 supply').2.1.collections.executions =
      (performAll requests s supply).2.1.collections.executions
  /-- The next request leaves every record but the one that it is about. -/
  others : ∀ (next : Request) (supply' : Supply) (k : Kind) (key : String),
    next.subject? supply' ≠ some (k, key) →
      ((next.perform (performAll requests s supply).2.1 supply').2.1.find? key : Option k.Record) =
        (performAll requests s supply).2.1.find? key

/-- A store that starts without definitions answers any sequence of requests as empty maps would,
and keeps its records apart. -/
theorem refined_of_performAll (requests : List Request) {s : Store}
    (started : ∀ k, s.collections.table k = []) (supply : Supply) : Refined requests s supply := by
  have tidy : s.collections.Tidy := fun k => by
    rw [started k]
    exact .nil
  have named : s.collections.Named := fun k => by
    rw [started k]
    exact nofun
  have refines := performAll_answerAll requests supply tidy
  rw [Store.catalogue_of_empty started] at refines
  have reached_tidy := tidy_performAll requests supply tidy
  refine ⟨by rw [refines], by rw [refines], reached_tidy, named_performAll requests supply named,
    fun next supply' => next.executions_perform supply' _, fun next supply' k key apart => ?_⟩
  have others := Catalogue.find?_answer (performAll requests s supply).2.1.catalogue apart
  rw [next.perform_refines supply' reached_tidy] at others
  exact (Store.find?_catalogue _ k key).symm.trans
    (others.trans (Store.find?_catalogue _ k key))

/-- An action that leaves its identifier to the store. -/
def unnamed : Action :=
  ⟨" ", "Letter", "", "log", "", [], .emptyObject, default, anonymous⟩

theorem refined_of_performAll_unnamed :
    (∀ k, Store.inMemory.collections.table k = []) ∧
      Refined [.create .action unnamed, .list .action, .delete .step "step_1"] .inMemory default :=
  have started : ∀ k, Store.inMemory.collections.table k = [] := fun k => by cases k <;> rfl
  ⟨started, refined_of_performAll _ started default⟩

end Store.Request

end EventFlow
