import EventFlow.Proofs.Record.Meaning
import EventFlow.Proofs.Store.Reopen

/-!
# Collections tell themselves

The five lists that collections are written as are read as the tables and the ledger they were, as
they stand in a text and as one value (`tells_document_of_sound`): reading keeps the executions in
order, and puts every record under its identifier again. The lists are those of
`Collections.document`, and `Collections.read` reads them (`EventFlow.Store.Collections`).
-/

set_option autoImplicit false

namespace EventFlow

open Document

namespace Collections

theorem readsMeaning_read : ReadsMeaning Collections.read := by
  refine readsMeaning_record fun fields fields' means => ?_
  refine .bind (means.orElse (by decide) (readsMeaning_list Workflow.readsMeaning_read) _)
    fun workflows => ?_
  refine .bind (means.orElse (by decide) (readsMeaning_list Step.readsMeaning_read) _)
    fun steps => ?_
  refine .bind (means.orElse (by decide) (readsMeaning_list Condition.readsMeaning_read) _)
    fun conditions => ?_
  refine .bind (means.orElse (by decide) (readsMeaning_list Action.readsMeaning_read) _)
    fun actions => ?_
  refine .bind (means.orElse (by decide) (readsMeaning_list Execution.readsMeaning_read) _)
    fun executions => ?_
  exact .refl _

theorem tells_document {c : Collections} (h : c.Sound Instant.Readable) :
    c.document.Tells Collections.read c := by
  refine (yields_document h).tells (isReadable_object ?_) readsMeaning_read
  simp only [List.forall_mem_cons]
  exact ⟨
    isReadable_list fun w hw => (Workflow.tells_document (h.workflows.records w hw)).isReadable,
    isReadable_list fun s hs => (Step.tells_document (h.steps.records s hs)).isReadable,
    isReadable_list fun x hx => (Condition.tells_document (h.conditions.records x hx)).isReadable,
    isReadable_list fun a ha => (Action.tells_document (h.actions.records a ha)).isReadable,
    isReadable_list fun e he => (Execution.tells_document (h.executions e he)).isReadable, nofun⟩

end Collections

/-- Every record is read back from what is written for it and from the value that this means, and so
are collections whose tables are keyed by the identifiers of their records. -/
theorem tells_document_of_sound :
    (∀ w : Workflow, Sound Instant.Readable w → w.document.Tells Workflow.read w) ∧
      (∀ s : Step, Sound Instant.Readable s → s.document.Tells Step.read s) ∧
      (∀ x : Condition, Sound Instant.Readable x → x.document.Tells Condition.read x) ∧
      (∀ a : Action, Sound Instant.Readable a → a.document.Tells Action.read a) ∧
      (∀ e : Execution, Sound Instant.Readable e → e.document.Tells Execution.read e) ∧
      ∀ c : Collections, c.Sound Instant.Readable → c.document.Tells Collections.read c :=
  ⟨fun _ => Workflow.tells_document, fun _ => Step.tells_document,
    fun _ => Condition.tells_document, fun _ => Action.tells_document,
    fun _ => Execution.tells_document, fun _ => Collections.tells_document⟩

/-- A condition between a field and a value. -/
def cold : Condition :=
  ⟨"cold", "Cold", "", .fieldCompare "kettle" .notEquals (.string "hot"), default, anonymous⟩

/-- A step that is tried again, the condition on it, and a run that has not ended. -/
def teahouse : Collections where
  workflows := []
  steps := [("boil", ⟨"boil", "tea", "Boil", "", .action, ["heat"], ["cold"], .retry 3, 90000, 1,
    .emptyObject, default, anonymous⟩)]
  conditions := [("cold", cold)]
  actions := []
  executions := [⟨default, "tea", "Tea", .null, .running, 0,
    [⟨"boil", "Boil", .array [.bool true], default⟩], [], default, none, anonymous⟩]

theorem tells_document_of_sound_teahouse :
    cold.document.Tells Condition.read cold ∧
      teahouse.document.Tells Collections.read teahouse := by
  have now : (default : Instant).Readable := ⟨by decide, fun leap => absurd leap (by decide)⟩
  have condition : Sound Instant.Readable cold :=
    Condition.sound_iff.2 ⟨List.forall_mem_singleton.2 trivial, now⟩
  have sound : teahouse.Sound Instant.Readable := by
    constructor
    · exact ⟨.nil, nofun, nofun⟩
    · refine ⟨List.pairwise_singleton _ _, List.forall_mem_singleton.2 rfl,
        List.forall_mem_singleton.2 (Step.sound_iff.2 ⟨Json.canonical_emptyObject, now⟩)⟩
    · exact ⟨List.pairwise_singleton _ _, List.forall_mem_singleton.2 rfl,
        List.forall_mem_singleton.2 condition⟩
    · exact ⟨.nil, nofun, nofun⟩
    · refine List.forall_mem_singleton.2 (Execution.sound_iff.2
        ⟨trivial, by decide, List.forall_mem_singleton.2 ?_, nofun, now, nofun⟩)
      exact StepResult.sound_iff.2 ⟨⟨trivial, trivial⟩, now⟩
  obtain ⟨-, -, conditions, -, -, collections⟩ := tells_document_of_sound
  exact ⟨conditions cold condition, collections teahouse sound⟩

end EventFlow
