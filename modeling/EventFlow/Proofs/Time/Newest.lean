import EventFlow.Time.Instant
import Mathlib.Data.List.Nodup

/-!
# Sorting newest first

Points of time are in a total order. What is sorted by them, the newest first, keeps its order where
the times are the same (`Instant.pairwise_newest`): the sort is stable, so whatever relates any two
entries of a list relates those of them that tie (`pairwise_mergeSort_of_tied`). Times are compared
by `Instant.before`, in `EventFlow.Time.Instant`.
-/

set_option autoImplicit false

namespace EventFlow

/-! ## Stable sorting -/

section Stable

variable {α : Type} {le : α → α → Bool} {R : α → α → Prop} {l : List α}

/-- A list that is sorted is in order, and entries that tie come as they came. -/
theorem pairwise_mergeSort_of_tied (trans : ∀ a b c, le a b = true → le b c = true → le a c = true)
    (total : ∀ a b, (le a b || le b a) = true) (h : l.Pairwise R) :
    (l.mergeSort le).Pairwise fun a b => le a b = true ∧ (le b a = true → R a b) := by
  -- The places of the entries decide ties, and no two entries have one place.
  rw [← List.mergeSort_zipIdx, List.pairwise_map]
  have sorted := List.pairwise_mergeSort (List.zipIdxLE_trans trans) (List.zipIdxLE_total total)
    l.zipIdx
  have apart : (l.zipIdx.mergeSort (List.zipIdxLE le)).Pairwise fun x y => x.2 ≠ y.2 := by
    have places : (l.zipIdx.map Prod.snd).Nodup := by
      rw [List.zipIdx_map_snd]
      exact List.nodup_range'
    exact ((List.mergeSort_perm _ _).pairwise_iff Ne.symm).2 (List.pairwise_map.1 places)
  refine (sorted.and apart).imp_of_mem fun {x y} hx hy ⟨ordered, different⟩ => ?_
  rw [List.mem_mergeSort, List.mem_zipIdx_iff_getElem?, List.getElem?_eq_some_iff] at hx hy
  obtain ⟨hi, at_x⟩ := hx
  obtain ⟨hj, at_y⟩ := hy
  unfold List.zipIdxLE at ordered
  split at ordered
  · next first =>
    refine ⟨first, fun tied => ?_⟩
    rw [if_pos tied, decide_eq_true_eq] at ordered
    rw [← at_x, ← at_y]
    exact List.pairwise_iff_getElem.1 h x.2 y.2 hi hj (Nat.lt_of_le_of_ne ordered different)
  · cases ordered

end Stable

namespace Instant

/-! ## The order of time -/

variable {a b c : Instant}

theorem notAfter_iff : a.notAfter b = true ↔
    a.seconds < b.seconds ∨ a.seconds = b.seconds ∧ a.nanos ≤ b.nanos := by
  rw [notAfter, Bool.not_eq_true', ← Bool.not_eq_true, before_iff]
  rw [Fin.lt_def, Fin.le_def]
  omega

theorem notAfter_trans (a b c : Instant) (h : a.notAfter b = true) (h' : b.notAfter c = true) :
    a.notAfter c = true := by
  rw [notAfter_iff, Fin.le_def] at *
  omega

theorem notAfter_total (a b : Instant) : (a.notAfter b || b.notAfter a) = true := by
  rw [Bool.or_eq_true, notAfter_iff, notAfter_iff, Fin.le_def, Fin.le_def]
  omega

/-- Of two different points of time one comes before the other. -/
theorem notAfter_iff_eq_or_before : a.notAfter b = true ↔ a = b ∨ a.before b = true := by
  constructor
  · intro h
    rw [before_iff, Fin.lt_def]
    rcases notAfter_iff.1 h with earlier | ⟨same, nanos⟩
    · exact .inr (.inl earlier)
    · rcases Nat.lt_or_eq_of_le nanos with less | equal
      · exact .inr (.inr ⟨same, less⟩)
      · obtain ⟨seconds, nanos⟩ := a
        cases same
        cases Fin.ext equal
        exact .inl rfl
  · rintro (rfl | earlier)
    · rw [notAfter, before_irrefl]
      rfl
    · rw [notAfter_iff]
      rw [before_iff] at earlier
      exact earlier.imp_right fun ⟨same, less⟩ => ⟨same, Nat.le_of_lt less⟩

theorem before_asymm (h : a.before b = true) : b.before a = false := by
  have := notAfter_iff_eq_or_before.2 (.inr h)
  rwa [notAfter, Bool.not_eq_true'] at this

/-! ## Newest first -/

section Newest

variable {α : Type} (time : α → Instant)

theorem newer_trans (a b c : α) (h : (time b).notAfter (time a) = true)
    (h' : (time c).notAfter (time b) = true) : (time c).notAfter (time a) = true :=
  notAfter_trans _ _ _ h' h

theorem newer_total (a b : α) :
    ((time b).notAfter (time a) || (time a).notAfter (time b)) = true :=
  notAfter_total _ _

/-- Of entries sorted newest first, each started after those behind it, or at the same time, and
then they come as they came. -/
theorem pairwise_newest {R : α → α → Prop} {l : List α} (h : l.Pairwise R) :
    (l.mergeSort fun a b => (time b).notAfter (time a)).Pairwise fun a b =>
      (time b).before (time a) = true ∨ time a = time b ∧ R a b := by
  have sorted := pairwise_mergeSort_of_tied (newer_trans time) (newer_total time) h
  refine sorted.imp fun {a b} ⟨ordered, tied⟩ => ?_
  rcases notAfter_iff_eq_or_before.1 ordered with same | earlier
  · exact .inr ⟨same.symm, tied (notAfter_iff_eq_or_before.2 (.inl same.symm))⟩
  · exact .inl earlier

end Newest

end Instant

end EventFlow
