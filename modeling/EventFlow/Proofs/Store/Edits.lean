import EventFlow.Proofs.Store.Requests

/-!
# What updates leave in a workflow

The updates of a workflow that succeed can be read off a log of requests (`updatesOf`). One request
more sets in the workflow what it sets (`find?_perform`), if it is an update, and nothing if it is
about something else; only to replace, to edit or to delete the workflow `Overrides` that. Two
updates that have no field in common can be made in either order (`updateWorkflow_comm`). Updates
are made by `Store.updateWorkflow`, in `EventFlow.Store.Workflows`.
-/

set_option autoImplicit false

namespace EventFlow

/-! ## Updates one after the other -/

namespace WorkflowUpdate

variable {β : Type}

/-- The value that the last of the updates gives that sets a field, or the one before all of
them. -/
def lastSet (field : WorkflowUpdate → Option β) (before : β) (updates : List WorkflowUpdate) : β :=
  (updates.reverse.findSome? field).getD before

theorem lastSet_append (field : WorkflowUpdate → Option β) (before : β)
    (earlier later : List WorkflowUpdate) :
    lastSet field before (earlier ++ later) =
      lastSet field (lastSet field before earlier) later := by
  rw [lastSet, List.reverse_append, List.findSome?_append, Option.getD_or]
  rfl

theorem lastSet_singleton (field : WorkflowUpdate → Option β) (before : β) (u : WorkflowUpdate) :
    lastSet field before [u] = (field u).getD before := by
  rw [lastSet, List.reverse_singleton, List.findSome?_singleton]

/-- A workflow with the last value that updates set in each of its fields. -/
def applyAll (updates : List WorkflowUpdate) (time : Instant) (w : Workflow) : Workflow :=
  { w with
    name := lastSet (·.name) w.name updates
    description := lastSet (·.description) w.description updates
    status := lastSet (·.status) w.status updates
    triggerEventType := lastSet (·.triggerEventType) w.triggerEventType updates
    stepIds := lastSet (·.stepIds) w.stepIds updates
    defaults := lastSet (·.defaults) w.defaults updates
    updatedAt := time }

theorem applyAll_append (earlier later : List WorkflowUpdate) (time time' : Instant)
    (w : Workflow) :
    applyAll later time' (applyAll earlier time w) = applyAll (earlier ++ later) time' w := by
  simp only [applyAll, lastSet_append]

theorem applyAll_singleton (u : WorkflowUpdate) (time : Instant) (w : Workflow) :
    applyAll [u] time w = u.apply time w := by
  simp only [applyAll, apply, lastSet_singleton]

/-- No field is set by both updates. -/
structure Apart (u v : WorkflowUpdate) : Prop where
  name : u.name = none ∨ v.name = none
  description : u.description = none ∨ v.description = none
  status : u.status = none ∨ v.status = none
  triggerEventType : u.triggerEventType = none ∨ v.triggerEventType = none
  stepIds : u.stepIds = none ∨ v.stepIds = none
  defaults : u.defaults = none ∨ v.defaults = none

theorem getD_comm {a b : Option β} (h : a = none ∨ b = none) (before : β) :
    b.getD (a.getD before) = a.getD (b.getD before) := by
  rcases h with rfl | rfl <;> rfl

/-- Updates that are apart can be applied in either order; the last one gives the time. -/
theorem Apart.apply_comm {u v : WorkflowUpdate} (h : u.Apart v) (time time' later : Instant)
    (w : Workflow) :
    { v.apply time' (u.apply time w) with updatedAt := later } =
      { u.apply time (v.apply time' w) with updatedAt := later } := by
  simp only [apply, getD_comm h.name, getD_comm h.description, getD_comm h.status,
    getD_comm h.triggerEventType, getD_comm h.stepIds, getD_comm h.defaults]

end WorkflowUpdate

/-! ## Commits that succeed -/

namespace Store

variable {α : Type} {s : Store}

/-- What is committed has been changed. -/
theorem change_of_commit {change : Change α} {a : α} (h : (s.commit change).1 = .ok a) :
    change s.collections = (.ok a, (s.commit change).2.collections) := by
  revert h
  unfold commit
  cases s.backing with
  | none => exact fun h => Prod.ext h rfl
  | some b =>
    rcases change s.collections with ⟨_ | answer, copy⟩
    · exact nofun
    · rcases hwrite : b.write (snapshotText copy) with ⟨b', _ | reason⟩
      · simp only [hwrite]
        rintro ⟨⟩
        rfl
      · simp only [hwrite]
        exact nofun

/-- The first writes of a store succeed, if it has a file to write. -/
def Writes (s : Store) (count : Nat) : Prop :=
  ∀ b, s.backing = some b → ∀ n < count, b.outcomes n = .written

/-- A change succeeds, and writes do after it, if it is not refused and one write more does. -/
theorem ok_commit_iff {change : Change α} {count : Nat} :
    ((∃ a, (s.commit change).1 = .ok a) ∧ (s.commit change).2.Writes count) ↔
      (∃ a, (change s.collections).1 = .ok a) ∧ s.Writes (count + 1) := by
  unfold commit Writes
  cases s.backing with
  | none => exact and_congr_right fun _ => iff_of_true nofun nofun
  | some b =>
    rcases change s.collections with ⟨_ | answer, copy⟩
    · simp
    · cases first : b.outcomes 0 with
      | written =>
        simp only [Backing.write, first, Option.some.injEq, forall_eq', Nat.forall_lt_succ_left,
          true_and]
      | temporaryFailed reason | renameFailed reason =>
        refine iff_of_false (fun ⟨⟨a, made⟩, _⟩ => ?_) fun ⟨_, written⟩ => ?_
        · simp [Backing.write, first] at made
        · cases first.symm.trans (written b rfl 0 count.succ_pos)

/-- A modification succeeds if there is a record to modify. -/
theorem ok_modification_iff [Definition α] {key : String} {edit : α → α} {c : Collections} :
    (∃ a, (modification key edit c).1 = .ok a) ↔
      ∃ r, Assoc.find? key (Definition.table (α := α) c) = some r := by
  unfold modification
  cases Assoc.find? key (Definition.table (α := α) c) <;> simp

section Modify

variable {k : Kind} {key : String} {edit edit' : k.Record → k.Record}

/-- A record that is modified is put in its place. -/
theorem collections_modify {r : k.Record} (found : Assoc.find? key (s.collections.table k) = some r)
    (done : ∃ a, (s.modify key edit).1 = .ok a) :
    (s.modify key edit).2.collections =
      Definition.setTable
        (Assoc.insert key (Definition.withId key (edit r)) (s.collections.table k))
        s.collections := by
  obtain ⟨a, done⟩ := done
  have changed := congrArg Prod.snd (change_of_commit done)
  rw [modification, ← Collections.table, found] at changed
  exact changed.symm

theorem find?_modify {r : k.Record} (found : Assoc.find? key (s.collections.table k) = some r)
    (done : ∃ a, (s.modify key edit).1 = .ok a) :
    Assoc.find? key ((s.modify key edit).2.collections.table k) =
      some (Definition.withId key (edit r)) := by
  rw [collections_modify found done, Collections.table_setTable, Assoc.find?_insert_self]

/-- A record can be modified twice if it is there and two writes succeed. -/
theorem ok_modify_modify_iff :
    ((∃ a, (s.modify key edit).1 = .ok a) ∧
        ∃ a, ((s.modify key edit).2.modify key edit').1 = .ok a) ↔
      (∃ r, Assoc.find? key (s.collections.table k) = some r) ∧ s.Writes 2 := by
  have nothing (t : Store) : t.Writes 0 := nofun
  constructor
  · rintro ⟨first, second⟩
    have writes := (ok_commit_iff.1 ⟨second, nothing _⟩).2
    have both := ok_commit_iff.1 ⟨first, writes⟩
    exact ⟨ok_modification_iff.1 both.1, both.2⟩
  · rintro ⟨⟨r, found⟩, writes⟩
    obtain ⟨first, once⟩ := ok_commit_iff.2 ⟨ok_modification_iff.2 ⟨r, found⟩, writes⟩
    have there := find?_modify found first
    exact ⟨first, (ok_commit_iff.2 ⟨ok_modification_iff.2 ⟨_, there⟩, once⟩).1⟩

/-- A record that is modified twice is put in its place once, as the second time makes it. -/
theorem collections_modify_modify {r : k.Record}
    (found : Assoc.find? key (s.collections.table k) = some r)
    (first : ∃ a, (s.modify key edit).1 = .ok a)
    (second : ∃ a, ((s.modify key edit).2.modify key edit').1 = .ok a) :
    ((s.modify key edit).2.modify key edit').2.collections =
      Definition.setTable (Assoc.insert key
        (Definition.withId key (edit' (Definition.withId key (edit r)))) (s.collections.table k))
        s.collections := by
  rw [collections_modify (find?_modify found first) second, collections_modify found first,
    Collections.table_setTable, Assoc.insert_insert, Collections.setTable_setTable]

end Modify

/-- Two updates of a workflow that are apart can be made in either order: they succeed as well, and
put the same workflow in the place of the one before, but for the time of the update. -/
theorem updateWorkflow_comm {id : String} {u v : WorkflowUpdate} (apart : u.Apart v)
    (supply later supply' later' : Supply) :
    let first := s.updateWorkflow id u supply
    let second := first.2.1.updateWorkflow id v later
    let first' := s.updateWorkflow id v supply'
    let second' := first'.2.1.updateWorkflow id u later'
    (∃ w, first.1 = .ok w) → (∃ w, second.1 = .ok w) →
      (∃ w, first'.1 = .ok w) ∧ (∃ w, second'.1 = .ok w) ∧
        ∃ (w : Workflow) (time time' : Instant),
          second.2.1.collections = put { w with updatedAt := time } s.collections ∧
          second'.2.1.collections = put { w with updatedAt := time' } s.collections := by
  intro first second first' second' done again
  have can := (ok_modify_modify_iff (k := .workflow)).1 ⟨done, again⟩
  obtain ⟨done', again'⟩ : (∃ w, first'.1 = .ok w) ∧ ∃ w, second'.1 = .ok w :=
    (ok_modify_modify_iff (k := .workflow)).2 can
  obtain ⟨⟨w, found⟩, -⟩ := can
  have made := collections_modify_modify (k := .workflow) found done again
  have made' := collections_modify_modify (k := .workflow) found done' again'
  let both : Workflow := { v.apply later.now.1 (u.apply supply.now.1 w) with id }
  have same : { u.apply supply.now.1 (v.apply later.now.1 w) with id, updatedAt := later'.now.1 } =
      { both with updatedAt := later'.now.1 } :=
    congrArg (fun x : Workflow => { x with id }) (apart.apply_comm _ _ later'.now.1 w).symm
  exact ⟨done', again', both, later.now.1, later'.now.1, made,
    made'.trans (congrArg (put · s.collections) same)⟩

/-! ## Changes of other records -/

section Others

variable {k : Kind} (other : Kind) {key : String} {r : k.Record}

/-- The record under an identifier is a certain one. -/
def Holds (k : Kind) (key : String) (r : k.Record) (c : Collections) : Prop :=
  Assoc.find? key (c.table k) = some r

theorem holds_setTable {t : Table other.Record} {c : Collections} (h : Holds k key r c)
    (kept : ∀ same : other = k, Assoc.find? key (same ▸ t) = some r) :
    Holds k key r (Definition.setTable t c) := by
  unfold Holds
  by_cases same : other = k
  · subst same
    rw [Collections.table_setTable]
    exact kept rfl
  · rw [Collections.table_setTable_of_ne (Ne.symm same)]
    exact h

/-- No record takes the place of another by being created. -/
theorem holds_creation (new : other.Record) : (creation new).Keeps (Holds k key r) := by
  intro c h
  unfold creation
  split
  · exact h
  · next free =>
    refine holds_setTable other h fun same => ?_
    subst same
    have apart : key ≠ Definition.id new := by
      rintro rfl
      cases h.symm.trans free
    rw [Assoc.find?_insert_of_ne apart]
    exact h

theorem holds_modification {id : String} {edit : other.Record → other.Record}
    (apart : (other, id) ≠ (k, key)) : (modification id edit).Keeps (Holds k key r) := by
  intro c h
  unfold modification
  split
  · refine holds_setTable other h fun same => ?_
    subst same
    rw [Assoc.find?_insert_of_ne fun same => apart (by rw [same])]
    exact h
  · exact h

theorem holds_deletion {id : String} (apart : (other, id) ≠ (k, key)) :
    (deletion other.Record id).Keeps (Holds k key r) := by
  intro c h
  unfold deletion
  split
  · refine holds_setTable other h fun same => ?_
    subst same
    rw [Assoc.find?_erase_of_ne fun same => apart (by rw [same])]
    exact h
  · exact h

end Others

end Store

/-! ## What a request sets -/

/-- Whether a request is refused. -/
def Answer.isRefused : Answer → Bool
  | refused _ => true
  | _ => false

namespace Store.Request

/-- The fields that a request is to set in the workflow under an identifier. -/
def update? (id : String) : Request → Option WorkflowUpdate
  | updateWorkflow key update => if key = id then some update else none
  | setWorkflowStatus key status =>
    if key = id then some { WorkflowUpdate.empty with status } else none
  | _ => none

/-- A request is to delete the workflow under an identifier, or to put another in its place. -/
inductive Overrides (id : String) : Request → Prop
  | replace (w : Workflow) : Overrides id (.replace .workflow id w)
  | modify (edit : Workflow → Workflow) : Overrides id (.modify .workflow id edit)
  | delete : Overrides id (.delete .workflow id)

end Store.Request

/-- Requests and what they have been answered, in the order of the changes they have made. -/
abbrev Store.Log := List (Store.Request × Answer)

namespace Store

/-- The updates of the workflow under an identifier that have succeeded. -/
def updatesOf (id : String) (log : Log) : List WorkflowUpdate :=
  log.filterMap fun entry => if entry.2.isRefused then none else entry.1.update? id

/-- The workflow under an identifier has neither been deleted nor replaced. -/
def Spared (id : String) (log : Log) : Prop :=
  ∀ entry ∈ log, entry.2.isRefused = false → ¬ entry.1.Overrides id

namespace Request

variable {s : Store} {w : Workflow}

theorem isRefused_ofResult {k : Kind} {answer : Except StoreError k.Record} :
    (Answer.ofResult k answer).isRefused = true ↔ ∃ e, answer = .error e := by
  cases answer <;> simp [Answer.ofResult, Answer.isRefused]

/-- What is refused changes nothing. -/
theorem collections_of_isRefused (request : Request) (supply : Supply)
    (refused : (request.perform s supply).1.isRefused = true) :
    (request.perform s supply).2.1.collections = s.collections := by
  have kept {k : Kind} {answer : Except StoreError k.Record} {s' : Store}
      (h : AllOrNothing s answer s') (refused : (Answer.ofResult k answer).isRefused = true) :
      s'.collections = s.collections := by
    obtain ⟨e, error⟩ := isRefused_ofResult.1 refused
    exact (h.nothing e error).collections
  cases request with
  | create k r => exact kept (s.allOrNothing_create r supply) refused
  | createWorkflow w => exact kept (k := .workflow) (s.allOrNothing_createWorkflow w supply) refused
  | get k id => rfl
  | list k => rfl
  | replace k id r => exact kept (s.allOrNothing_modify id _) refused
  | modify k id edit => exact kept (s.allOrNothing_modify id edit) refused
  | updateWorkflow id update =>
    exact kept (k := .workflow) (s.allOrNothing_updateWorkflow id update supply) refused
  | setWorkflowStatus id status =>
    exact kept (k := .workflow) (s.allOrNothing_setWorkflowStatus id status supply) refused
  | delete k id => exact kept (s.allOrNothing_delete id) refused

/-- A request that neither updates nor overrides a workflow leaves it. -/
theorem holds_perform (request : Request) (supply : Supply)
    (found : Holds .workflow w.id w s.collections) (still : request.update? w.id = none)
    (spared : ¬ request.Overrides w.id) :
    Holds .workflow w.id w (request.perform s supply).2.1.collections := by
  cases request with
  | create k r => exact keeps_commit (holds_creation k _) found
  | createWorkflow new => exact keeps_commit (holds_creation .workflow _) found
  | get k id => exact found
  | list k => exact found
  | replace k id r =>
    refine keeps_commit (holds_modification k fun same => ?_) found
    cases same
    exact spared (.replace r)
  | modify k id edit =>
    refine keeps_commit (holds_modification k fun same => ?_) found
    cases same
    exact spared (.modify edit)
  | updateWorkflow id update =>
    refine keeps_commit (holds_modification .workflow fun same => ?_) found
    cases same
    simp [update?] at still
  | setWorkflowStatus id status =>
    refine keeps_commit (holds_modification .workflow fun same => ?_) found
    cases same
    simp [update?] at still
  | delete k id =>
    refine keeps_commit (holds_deletion k fun same => ?_) found
    cases same
    exact spared .delete

/-- An update that succeeds sets what it is to set. -/
theorem holds_updateWorkflow (supply : Supply) (u : WorkflowUpdate)
    (found : Holds .workflow w.id w s.collections)
    (accepted : (Answer.ofResult .workflow (s.updateWorkflow w.id u supply).1).isRefused = false) :
    Holds .workflow w.id (u.apply supply.now.1 w)
      (s.updateWorkflow w.id u supply).2.1.collections := by
  have done : ∃ a, (s.modify w.id (u.apply supply.now.1)).1 = .ok a := by
    cases answer : (s.modify w.id (u.apply supply.now.1)).1 with
    | error e =>
      have refused := (isRefused_ofResult (k := .workflow)).2 ⟨e, answer⟩
      cases refused.symm.trans accepted
    | ok a => exact ⟨a, rfl⟩
  exact find?_modify (k := .workflow) found done

theorem holds_perform_update (request : Request) (supply : Supply)
    (found : Holds .workflow w.id w s.collections) {u : WorkflowUpdate}
    (sets : request.update? w.id = some u)
    (accepted : (request.perform s supply).1.isRefused = false) :
    Holds .workflow w.id (u.apply supply.now.1 w) (request.perform s supply).2.1.collections := by
  cases request with
  | updateWorkflow id update =>
    obtain ⟨rfl, given⟩ := Option.ite_none_right_eq_some.1 sets
    cases given
    exact holds_updateWorkflow supply _ found accepted
  | setWorkflowStatus id status =>
    obtain ⟨rfl, given⟩ := Option.ite_none_right_eq_some.1 sets
    cases given
    exact holds_updateWorkflow supply _ found accepted
  | _ => cases sets

/-- What a request makes of a workflow that it does not override. -/
theorem find?_perform (request : Request) (supply : Supply) (found : s.find? w.id = some w)
    (spared : Spared w.id [(request, (request.perform s supply).1)]) :
    ∃ time, (request.perform s supply).2.1.find? w.id =
      some (WorkflowUpdate.applyAll (updatesOf w.id [(request, (request.perform s supply).1)])
        time w) := by
  cases refused : (request.perform s supply).1.isRefused with
  | true =>
    have none_set : updatesOf w.id [(request, (request.perform s supply).1)] = [] := by
      simp [updatesOf, refused]
    rw [none_set, Store.find?, collections_of_isRefused request supply refused]
    exact ⟨w.updatedAt, found⟩
  | false =>
    cases sets : request.update? w.id with
    | none =>
      have none_set : updatesOf w.id [(request, (request.perform s supply).1)] = [] := by
        simp [updatesOf, sets]
      rw [none_set]
      exact ⟨w.updatedAt, holds_perform request supply found sets
        (spared _ List.mem_cons_self refused)⟩
    | some u =>
      have one_set : updatesOf w.id [(request, (request.perform s supply).1)] = [u] := by
        simp [updatesOf, refused, sets]
      refine ⟨supply.now.1, ?_⟩
      rw [one_set, WorkflowUpdate.applyAll_singleton]
      exact holds_perform_update request supply found sets refused

end Request

end Store

end EventFlow
