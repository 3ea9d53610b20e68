import EventFlow.Store.Ledger
import EventFlow.Store.Workflows

/-!
# Mutations of a store

A `Mutation` is one of the operations that change a store. It is all or nothing (`AllOrNothing`):
what is refused, and what cannot be written, leaves the collections and the file as they were, and
what succeeds leaves the snapshot of the new collections in the file. In memory this rests on the
changes themselves, which check before they touch anything (`Change.Careful`); on a file it rests on
`Store.commit` working on a copy. So after any sequence of mutations the file is either as it was in
the beginning or the snapshot of the memory (`kept_or_saved_of_applyAll`). `Store.commit` is in
`EventFlow.Store.Basic`.
-/

set_option autoImplicit false

namespace EventFlow

namespace Store

variable {α : Type}

/-- The text in the file of a store, if there is any. -/
def content? (s : Store) : Option String := s.backing.bind Backing.content

/-- The file of a store, if it has one, holds the snapshot of its collections. -/
def Saved (s : Store) : Prop :=
  ∀ b, s.backing = some b → b.content = some (snapshotText s.collections)

/-- All that a store holds, in memory and in its file, is as it was. -/
structure Kept (s s' : Store) : Prop where
  collections : s'.collections = s.collections
  content : s'.content? = s.content?
  backed : s'.backing.isSome = s.backing.isSome

/-- A store that nothing is done to is kept. -/
theorem Kept.refl (s : Store) : s.Kept s := ⟨rfl, rfl, rfl⟩

/-- A store that is kept twice is kept. -/
theorem Kept.trans {s s' s'' : Store} (h : s.Kept s') (h' : s'.Kept s'') : s.Kept s'' :=
  ⟨h'.collections.trans h.collections, h'.content.trans h.content, h'.backed.trans h.backed⟩

/-- A store whose collections and file stay the same is as much saved as it was. -/
theorem Saved.of_kept {s s' : Store} (saved : s.Saved) (kept : s.Kept s') : s'.Saved := by
  intro b' hb'
  obtain ⟨b, hb⟩ := Option.isSome_iff_exists.1 (kept.backed.symm.trans (by simp [hb']))
  have content := kept.content
  simp only [content?, hb, hb', Option.bind_some] at content
  rw [content, kept.collections, saved b hb]

/-- What an operation on a store answers, and the store after it: nothing has changed if there is an
error, and otherwise the file is up to date. -/
structure AllOrNothing (s : Store) (answer : Except StoreError α) (s' : Store) : Prop where
  nothing : ∀ e, answer = .error e → s.Kept s'
  all : ∀ a, answer = .ok a → s'.Saved
  backed : s'.backing.isSome = s.backing.isSome

/-- To fail and keep everything is one of the two. -/
theorem AllOrNothing.of_error {s s' : Store} {e : StoreError} (kept : s.Kept s') :
    AllOrNothing s (.error e : Except StoreError α) s' :=
  ⟨fun _ _ => kept, fun _ h => (nomatch h), kept.backed⟩

/-- To succeed and save everything is all of it. -/
theorem AllOrNothing.of_ok {s s' : Store} {a : α} (saved : s'.Saved)
    (backed : s'.backing.isSome = s.backing.isSome) :
    AllOrNothing s (.ok a : Except StoreError α) s' :=
  ⟨fun _ h => (nomatch h), fun _ _ => saved, backed⟩

/-- Forgetting the answer does not matter. -/
theorem AllOrNothing.map {β : Type} {s s' : Store} {answer : Except StoreError α} (f : α → β)
    (h : AllOrNothing s answer s') : AllOrNothing s (answer.map f) s' := by
  cases answer with
  | error e => exact .of_error (h.nothing e rfl)
  | ok a => exact .of_ok (h.all a rfl) h.backed

end Store

/-! ## Changes that check first -/

/-- Where a change is refused, it has not touched anything. -/
def Change.Careful {α : Type} (change : Change α) : Prop :=
  ∀ c e, (change c).1 = .error e → (change c).2 = c

/-- Whatever a change makes of collections that have a property has it too. -/
def Change.Keeps {α : Type} (P : Collections → Prop) (change : Change α) : Prop :=
  ∀ c, P c → P (change c).2

namespace Store

variable {α : Type}

/-- What a change keeps is kept by committing it, whether or not the store takes the change. -/
theorem keeps_commit {P : Collections → Prop} {change : Change α} (keeps : change.Keeps P)
    {s : Store} (h : P s.collections) : P (s.commit change).2.collections := by
  have changed := keeps _ h
  unfold commit
  cases s.backing with
  | none => exact changed
  | some b =>
    rcases hchange : change s.collections with ⟨_ | answer, copy⟩
    · exact h
    · rcases hwrite : b.write (snapshotText copy) with ⟨b', _ | reason⟩
      · rw [hchange] at changed
        simp only [hwrite]
        exact changed
      · simp only [hwrite]
        exact h

/-- What adding an execution to the ledger keeps is kept by recording it. -/
theorem keeps_record {P : Collections → Prop} {e : Execution} (keeps : (recording e).Keeps P)
    {s : Store} (h : P s.collections) : P (s.record e).2.collections := by
  unfold record
  split
  · exact keeps_commit keeps h
  · exact h

/-- Where a careful change is refused, so is its commit, and the store stays. -/
theorem commit_of_error {s : Store} {change : Change α} (careful : change.Careful)
    {e : StoreError} {copy : Collections} (refused : change s.collections = (.error e, copy)) :
    s.commit change = (.error e, s) := by
  obtain ⟨c, backing⟩ := s
  have kept : (change c).2 = c := careful c e (by rw [refused])
  rw [refused] at kept
  subst kept
  cases backing <;> simp [commit, refused]

/-- A text that is written takes the place of the one before, or leaves it. -/
theorem content_of_write {b b' : Backing} {text : String} {reason : Option String}
    (h : b.write text = (b', reason)) :
    (reason = none → b'.content = some text) ∧ (reason ≠ none → b'.content = b.content) := by
  unfold Backing.write at h
  split at h <;> cases h <;> simp

/-- A change that checks before it writes is made altogether, on the disk as well, or not at all. -/
theorem allOrNothing_commit (s : Store) {change : Change α} (careful : change.Careful) :
    AllOrNothing s (s.commit change).1 (s.commit change).2 := by
  unfold commit
  cases hb : s.backing with
  | none =>
    -- There is no copy here: a refusal keeps the collections only because the change is careful.
    refine ⟨fun e h => ⟨careful _ e h, ?_, ?_⟩, fun _ _ b h => (nomatch h), ?_⟩ <;>
      simp [content?, hb]
  | some b =>
    rcases hchange : change s.collections with ⟨_ | answer, copy⟩
    · exact .of_error (.refl s)
    · rcases hwrite : b.write (snapshotText copy) with ⟨b', _ | reason⟩
      · have written := (content_of_write hwrite).1 rfl
        simp only [hwrite]
        refine .of_ok (fun b'' h => ?_) (by simp [hb])
        cases h
        exact written
      · have untouched := (content_of_write hwrite).2 (by simp)
        simp only [hwrite]
        exact .of_error ⟨rfl, by simp [content?, hb, untouched], by simp [hb]⟩

section Definitions

variable [Definition α]

/-- To add a record checks its identifier first. -/
theorem careful_creation (record : α) : (creation record).Careful := by
  intro c e refused
  unfold creation at refused ⊢
  split at refused <;> simp_all

/-- To edit a record looks for it first. -/
theorem careful_modification (key : String) (edit : α → α) : (modification key edit).Careful := by
  intro c e refused
  unfold modification at refused ⊢
  split at refused <;> simp_all

/-- To delete a record looks for it first. -/
theorem careful_deletion (key : String) : (deletion α key).Careful := by
  intro c e refused
  unfold deletion at refused ⊢
  split at refused <;> simp_all

theorem allOrNothing_create (s : Store) (record : α) (supply : Supply) :
    AllOrNothing s (s.create record supply).1 (s.create record supply).2.1 :=
  s.allOrNothing_commit (careful_creation _)

theorem allOrNothing_modify (s : Store) (key : String) (edit : α → α) :
    AllOrNothing s (s.modify key edit).1 (s.modify key edit).2 :=
  s.allOrNothing_commit (careful_modification key edit)

theorem allOrNothing_delete (s : Store) (key : String) :
    AllOrNothing s (s.delete α key).1 (s.delete α key).2 :=
  s.allOrNothing_commit (careful_deletion key)

end Definitions

/-- To record an execution looks for its identifier first. -/
theorem careful_recording (e : Execution) : (recording e).Careful := by
  intro c error refused
  unfold recording at refused ⊢
  split at refused <;> simp_all

/-- An execution is recorded altogether or not at all. -/
theorem allOrNothing_record (s : Store) (e : Execution) :
    AllOrNothing s (s.record e).1 (s.record e).2 := by
  unfold record
  split
  · exact s.allOrNothing_commit (careful_recording e)
  · exact .of_error (.refl s)

theorem allOrNothing_createWorkflow (s : Store) (w : Workflow) (supply : Supply) :
    AllOrNothing s (s.createWorkflow w supply).1 (s.createWorkflow w supply).2.1 :=
  s.allOrNothing_create _ supply

/-- An update sets all the fields that it names, or none. -/
theorem allOrNothing_updateWorkflow (s : Store) (id : String) (update : WorkflowUpdate)
    (supply : Supply) :
    AllOrNothing s (s.updateWorkflow id update supply).1 (s.updateWorkflow id update supply).2.1 :=
  s.allOrNothing_modify id (update.apply supply.now.1)

theorem allOrNothing_setWorkflowStatus (s : Store) (id : String) (status : WorkflowStatus)
    (supply : Supply) :
    AllOrNothing s (s.setWorkflowStatus id status supply).1
      (s.setWorkflowStatus id status supply).2.1 :=
  s.allOrNothing_updateWorkflow id _ supply

/-- A store that is opened is kept in the file that it was read from. -/
theorem backing_of_openFile {b : Backing} {s : Store} {supply supply' : Supply}
    (h : openFile b supply = .ok (s, supply')) : s.backing = some b := by
  unfold openFile at h
  split at h
  · cases h
    rfl
  · split at h <;> cases h
    rfl

end Store

/-! ## Mutations -/

/-- An operation that changes a store. -/
inductive Mutation where
  | create {α : Type} [Definition α] (record : α)
  | createWorkflow (w : Workflow)
  | replace {α : Type} [Definition α] (key : String) (record : α)
  | updateWorkflow (id : String) (update : WorkflowUpdate)
  | setWorkflowStatus (id : String) (status : WorkflowStatus)
  | delete (α : Type) [Definition α] (key : String)
  | record (e : Execution)

namespace Mutation

open Store (AllOrNothing Kept Saved)

/-- Whether a mutation succeeds, and the store after it. -/
def apply (s : Store) (supply : Supply) : Mutation → Except StoreError Unit × Store × Supply
  | create r =>
    let (answer, s, supply) := s.create r supply
    (answer.map fun _ => (), s, supply)
  | createWorkflow w =>
    let (answer, s, supply) := s.createWorkflow w supply
    (answer.map fun _ => (), s, supply)
  | replace key r =>
    let (answer, s) := s.replace key r
    (answer.map fun _ => (), s, supply)
  | updateWorkflow id update =>
    let (answer, s, supply) := s.updateWorkflow id update supply
    (answer.map fun _ => (), s, supply)
  | setWorkflowStatus id status =>
    let (answer, s, supply) := s.setWorkflowStatus id status supply
    (answer.map fun _ => (), s, supply)
  | delete α key =>
    let (answer, s) := s.delete α key
    (answer.map fun _ => (), s, supply)
  | record e =>
    let (answer, s) := s.record e
    (answer, s, supply)

/-- The store after mutations, one after the other, whether or not they succeed. -/
def applyAll : List Mutation → Store → Supply → Store × Supply
  | [], s, supply => (s, supply)
  | mutation :: rest, s, supply =>
    let (_, s, supply) := mutation.apply s supply
    applyAll rest s supply

/-- Every mutation is made altogether or not at all. -/
theorem allOrNothing_apply (mutation : Mutation) (s : Store) (supply : Supply) :
    AllOrNothing s (mutation.apply s supply).1 (mutation.apply s supply).2.1 := by
  cases mutation with
  | create r => exact (s.allOrNothing_create r supply).map _
  | createWorkflow w => exact (s.allOrNothing_createWorkflow w supply).map _
  | replace key r => exact (s.allOrNothing_modify key _).map _
  | updateWorkflow id update => exact (s.allOrNothing_updateWorkflow id update supply).map _
  | setWorkflowStatus id status => exact (s.allOrNothing_setWorkflowStatus id status supply).map _
  | delete α key => exact (s.allOrNothing_delete key).map _
  | record e => exact s.allOrNothing_record e

/-- One mutation keeps a store as it is or leaves it saved. -/
theorem kept_or_saved_of_apply (mutation : Mutation) (s : Store) (supply : Supply) :
    s.Kept (mutation.apply s supply).2.1 ∨ (mutation.apply s supply).2.1.Saved := by
  have h := mutation.allOrNothing_apply s supply
  cases answer : (mutation.apply s supply).1 with
  | error e => exact .inl (h.nothing e answer)
  | ok a => exact .inr (h.all a answer)

/-- Mutations leave a store in memory in memory, and a store on a disk there. -/
theorem backed_applyAll (mutations : List Mutation) (s : Store) (supply : Supply) :
    (applyAll mutations s supply).1.backing.isSome = s.backing.isSome := by
  induction mutations generalizing s supply with
  | nil => rfl
  | cons mutation rest ih => exact (ih _ _).trans (mutation.allOrNothing_apply s supply).backed

/-- A store that is saved stays so, whatever is done to it. -/
theorem saved_of_applyAll (mutations : List Mutation) {s : Store} (supply : Supply)
    (saved : s.Saved) : (applyAll mutations s supply).1.Saved := by
  induction mutations generalizing s supply with
  | nil => exact saved
  | cons mutation rest ih =>
    refine ih _ ?_
    cases mutation.kept_or_saved_of_apply s supply with
    | inl kept => exact saved.of_kept kept
    | inr saved' => exact saved'

/-- After mutations, some of which may have failed, all that a store holds is as it was in the
beginning, or its file is the snapshot of its collections. -/
theorem kept_or_saved_of_applyAll (mutations : List Mutation) (s : Store) (supply : Supply) :
    s.Kept (applyAll mutations s supply).1 ∨ (applyAll mutations s supply).1.Saved := by
  induction mutations generalizing s supply with
  | nil => exact .inl (.refl s)
  | cons mutation rest ih =>
    cases mutation.kept_or_saved_of_apply s supply with
    | inl kept => exact (ih _ _).imp kept.trans id
    | inr saved => exact .inr (saved_of_applyAll rest _ saved)

end Mutation

end EventFlow
