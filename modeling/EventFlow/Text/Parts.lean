/-!
# Parts of a text

A text is cut at every occurrence of a character. `parts` and `joined` are inverse to each other
where no part holds that character.
-/

set_option autoImplicit false

namespace EventFlow.Text

/-- What stands between the occurrences of a character. There is always at least one part. -/
def parts (separator : Char) : List Char → List (List Char)
  | [] => [[]]
  | c :: rest =>
    if c = separator then [] :: parts separator rest
    else match parts separator rest with
      | part :: others => (c :: part) :: others
      | [] => [[c]]

/-- Parts with a character between them. -/
def joined (separator : Char) : List (List Char) → List Char
  | [] => []
  | [part] => part
  | part :: rest => part ++ separator :: joined separator rest

theorem parts_ne_nil (separator : Char) (s : List Char) : parts separator s ≠ [] := by
  cases s with
  | nil => simp [parts]
  | cons c rest =>
    unfold parts
    split
    · simp
    · split <;> simp

theorem joined_parts (separator : Char) (s : List Char) :
    joined separator (parts separator s) = s := by
  induction s with
  | nil => rfl
  | cons c rest ih =>
    unfold parts
    split
    · next h =>
      cases hp : parts separator rest with
      | nil => exact absurd hp (parts_ne_nil separator rest)
      | cons part others => rw [hp] at ih; simp [joined, ih, h]
    · split
      · next part others hp =>
        rw [hp] at ih
        cases others with
        | nil => simpa [joined] using ih
        | cons other others => simpa [joined] using ih
      · next hp => exact absurd hp (parts_ne_nil separator rest)

/-- No part holds the character, and whatever a part holds is in the text. -/
theorem mem_of_mem_parts {separator : Char} {s part : List Char} (h : part ∈ parts separator s)
    {c : Char} (hc : c ∈ part) : c ∈ s ∧ c ≠ separator := by
  induction s generalizing part with
  | nil =>
    rw [parts, List.mem_singleton] at h
    rw [h] at hc
    cases hc
  | cons d rest ih =>
    unfold parts at h
    split at h
    · rcases List.mem_cons.1 h with rfl | later
      · cases hc
      · exact (ih later hc).imp_left (List.mem_cons_of_mem d)
    · next apart =>
      split at h
      · next first others cut =>
        rw [cut] at ih
        rcases List.mem_cons.1 h with rfl | later
        · rcases List.mem_cons.1 hc with rfl | inside
          · exact ⟨List.mem_cons_self, apart⟩
          · exact (ih List.mem_cons_self inside).imp_left (List.mem_cons_of_mem d)
        · exact (ih (List.mem_cons_of_mem first later) hc).imp_left (List.mem_cons_of_mem d)
      · next cut => exact absurd cut (parts_ne_nil separator rest)

theorem parts_eq_singleton {separator : Char} {s : List Char} (h : separator ∉ s) :
    parts separator s = [s] := by
  induction s with
  | nil => rfl
  | cons c rest ih =>
    rw [List.mem_cons, not_or] at h
    rw [parts, if_neg (Ne.symm h.1), ih h.2]

/-- A text is cut on both sides of the character on its own. -/
theorem parts_append_separator (separator : Char) (s t : List Char) :
    parts separator (s ++ separator :: t) = parts separator s ++ parts separator t := by
  induction s with
  | nil => simp [parts]
  | cons c rest ih =>
    rw [List.cons_append, parts, parts, ih]
    split
    · rfl
    · cases cut : parts separator rest with
      | nil => exact absurd cut (parts_ne_nil separator rest)
      | cons part others => rfl

theorem parts_append {separator : Char} {part : List Char} (h : separator ∉ part)
    (rest : List Char) :
    parts separator (part ++ separator :: rest) = part :: parts separator rest := by
  rw [parts_append_separator, parts_eq_singleton h, List.singleton_append]

/-- Parts that do not hold the character are found again. -/
theorem parts_joined {separator : Char} {ps : List (List Char)} (some_part : ps ≠ [])
    (h : ∀ part ∈ ps, separator ∉ part) : parts separator (joined separator ps) = ps := by
  induction ps with
  | nil => exact absurd rfl some_part
  | cons part rest ih =>
    obtain ⟨free, others⟩ := List.forall_mem_cons.1 h
    cases rest with
    | nil => exact parts_eq_singleton free
    | cons other rest =>
      rw [joined, parts_append free, ih (List.cons_ne_nil _ _) others]
      exact List.cons_ne_nil other rest

/-- Whatever parts with a character between them hold is that character or in a part. -/
theorem mem_joined {separator c : Char} {ps : List (List Char)} (h : c ∈ joined separator ps) :
    c = separator ∨ ∃ part ∈ ps, c ∈ part := by
  induction ps with
  | nil => cases h
  | cons part rest ih =>
    cases rest with
    | nil => exact .inr ⟨part, List.mem_cons_self, h⟩
    | cons other rest =>
      rw [joined, List.mem_append, List.mem_cons] at h
      · rcases h with first | between | later
        · exact .inr ⟨part, List.mem_cons_self, first⟩
        · exact .inl between
        · refine (ih later).imp_right ?_
          rintro ⟨found, among, inside⟩
          exact ⟨found, List.mem_cons_of_mem part among, inside⟩
      · exact List.cons_ne_nil other rest

end EventFlow.Text
