import EventFlow.Proofs.Store.Ledger
import EventFlow.Proofs.Time.Newest
import Mathlib.Tactic.MkIffOfInductiveProp

/-!
# Queries of the ledger

An execution may stand in a ledger beside equal ones, and many may have started at one time, so an
entry is an execution with its place. `Ledger.NewestFirst` says which rows list the entries within
the bounds of a filter, each once and the newest first; no two lists of rows do
(`Ledger.NewestFirst.unique`), and what is answered to a query does (`Store.query_newest_first`).
The answer is that of `Store.query`, in `EventFlow.Store.Ledger`.
-/

set_option autoImplicit false

namespace EventFlow

namespace ExecutionFilter

/-- An execution is within all bounds that a filter gives; a time that is a bound is within it. -/
@[mk_iff]
structure Within (f : ExecutionFilter) (e : Execution) : Prop where
  workflow : ∀ id, f.workflowId = some id → e.workflowId = id
  status : ∀ status, f.status = some status → e.status = status
  earliest : ∀ t, f.startedFrom = some t → t = e.startedAt ∨ t.before e.startedAt = true
  latest : ∀ t, f.startedTo = some t → e.startedAt = t ∨ e.startedAt.before t = true

variable {f : ExecutionFilter} {e : Execution}

theorem admits_iff : f.admits e = true ↔ f.Within e := by
  simp only [admits, within_iff, Bool.and_eq_true, Option.all_eq_true, beq_iff_eq, and_assoc,
    Instant.notAfter_iff_eq_or_before]
  simp only [eq_comm]

instance (f : ExecutionFilter) : DecidablePred f.Within :=
  fun _ => decidable_of_iff _ admits_iff

end ExecutionFilter

namespace Ledger

variable {ledger : List Execution} {f : ExecutionFilter} {rows rows' : List Execution}

/-- One entry comes before another: it started later, or at the same time and was recorded
later. -/
def Newer (a b : Execution × Nat) : Prop :=
  b.1.startedAt.before a.1.startedAt = true ∨ a.1.startedAt = b.1.startedAt ∧ b.2 < a.2

/-- The rows are the entries of a ledger within the bounds of a filter, each once, and each is newer
than those behind it. -/
def NewestFirst (ledger : List Execution) (f : ExecutionFilter) (rows : List Execution) : Prop :=
  ∃ entries : List (Execution × Nat), entries.map Prod.fst = rows ∧
    entries.Perm (ledger.zipIdx.filter fun entry => f.Within entry.1) ∧ entries.Pairwise Newer

theorem Newer.asymm {a b : Execution × Nat} (h : Newer a b) : ¬ Newer b a := by
  rintro (later | ⟨same, behind⟩)
  · rcases h with earlier | ⟨same, -⟩
    · rw [Instant.before_asymm earlier] at later
      cases later
    · rw [same, Instant.before_irrefl] at later
      cases later
  · rcases h with earlier | ⟨-, before⟩
    · rw [same, Instant.before_irrefl] at earlier
      cases earlier
    · exact Nat.lt_asymm behind before

theorem NewestFirst.unique (h : NewestFirst ledger f rows) (h' : NewestFirst ledger f rows') :
    rows = rows' := by
  obtain ⟨entries, rfl, all, newer⟩ := h
  obtain ⟨entries', rfl, all', newer'⟩ := h'
  have same : entries = entries' :=
    List.Perm.eq_of_pairwise (fun _ _ _ _ ab ba => absurd ba ab.asymm) newer newer'
      (all.trans all'.symm)
  rw [same]

theorem map_filter_zipIdx (ledger : List Execution) (f : ExecutionFilter) :
    (ledger.zipIdx.filter fun entry => f.Within entry.1).map Prod.fst =
      ledger.filter fun e => f.Within e := by
  conv_rhs => rw [← List.zipIdx_map_fst 0 ledger, List.filter_map]
  rfl

/-- The rows are the executions within the bounds, as often as they are recorded. -/
theorem NewestFirst.perm (h : NewestFirst ledger f rows) :
    rows.Perm (ledger.filter fun e => f.Within e) := by
  obtain ⟨entries, rfl, all, -⟩ := h
  rw [← map_filter_zipIdx]
  exact all.map Prod.fst

theorem pairwise_zipIdx (ledger : List Execution) :
    ledger.zipIdx.Pairwise fun a b => a.2 < b.2 := by
  rw [← List.pairwise_map (f := Prod.snd) (R := (· < ·)), List.zipIdx_map_snd]
  exact List.pairwise_lt_range'

end Ledger

namespace Store

open Ledger

theorem query_eq (s : Store) (f : ExecutionFilter) :
    s.query f = (s.ledger.filter fun e => f.Within e).reverse.mergeSort fun a b =>
      b.startedAt.notAfter a.startedAt := by
  have same : s.ledger.reverse.filter f.admits =
      s.ledger.reverse.filter fun e => f.Within e :=
    List.filter_congr fun e _ => Bool.eq_iff_iff.2
      (ExecutionFilter.admits_iff.trans (decide_eq_true_iff).symm)
  rw [query, ← ledger, same, List.filter_reverse]

theorem newestFirst_query (s : Store) (f : ExecutionFilter) :
    NewestFirst s.ledger f (s.query f) := by
  -- The entries of the ledger are sorted as their executions are.
  refine ⟨(s.ledger.zipIdx.filter fun entry => f.Within entry.1).reverse.mergeSort fun a b =>
    b.1.startedAt.notAfter a.1.startedAt, ?_, ?_, ?_⟩
  · rw [query_eq, ← map_filter_zipIdx, ← List.map_reverse]
    exact List.map_mergeSort fun _ _ _ _ => rfl
  · exact (List.mergeSort_perm _ _).trans (List.reverse_perm _)
  · exact Instant.pairwise_newest (fun entry => entry.1.startedAt)
      (List.pairwise_reverse.2 ((pairwise_zipIdx s.ledger).sublist List.filter_sublist))

/-- A query is answered with the recorded executions within its bounds, each as often as it is
recorded, and in the only order in which each started after those behind it, or at the same time as
one that was recorded before. -/
theorem query_newest_first (s : Store) (f : ExecutionFilter) :
    (s.query f).Perm (s.ledger.filter fun e => f.Within e) ∧
      ∀ rows, NewestFirst s.ledger f rows ↔ rows = s.query f := by
  refine ⟨(newestFirst_query s f).perm, fun rows => ⟨?_, ?_⟩⟩
  · exact fun listed => listed.unique (newestFirst_query s f)
  · rintro rfl
    exact newestFirst_query s f

end Store

end EventFlow
