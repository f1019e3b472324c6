namespace EmulatorHost

variable {α : Type}

theorem concat_eq_split_iff {t before after : List α} {e f : α} :
    t ++ [e] = before ++ f :: after ↔
      t = before ∧ e = f ∧ after = [] ∨ ∃ rest, after = rest ++ [e] ∧ t = before ++ f :: rest := by
  constructor
  · intro h
    rcases List.eq_nil_or_concat after with rfl | ⟨rest, g, rfl⟩
    · obtain ⟨ht, he⟩ := List.append_inj' h rfl
      exact .inl ⟨ht, List.head_eq_of_cons_eq he, rfl⟩
    · rw [List.concat_eq_append, ← List.cons_append, ← List.append_assoc] at h
      obtain ⟨ht, he⟩ := List.append_inj' h rfl
      exact .inr ⟨rest, by simp [List.head_eq_of_cons_eq he], ht⟩
  · rintro (⟨rfl, rfl, rfl⟩ | ⟨rest, rfl, rfl⟩) <;> simp

theorem eq_split_of_getElem? {t : List α} {i : Nat} {e : α} (h : t[i]? = some e) :
    t = t.take i ++ e :: t.drop (i + 1) := by
  obtain ⟨bound, rfl⟩ := List.getElem?_eq_some_iff.1 h
  simp

/-- Some entry is a `P`, and none after it is a `Q`. -/
def Since (P Q : α → Prop) (t : List α) : Prop :=
  ∃ before e after, t = before ++ e :: after ∧ P e ∧ ∀ f ∈ after, ¬ Q f

namespace Since

variable {P P' Q : α → Prop} {t : List α} {e : α}

@[simp] theorem not_nil : ¬ Since P Q ([] : List α) := by
  rintro ⟨before, e, after, h, -⟩
  simp at h

theorem concat_iff : Since P Q (t ++ [e]) ↔ P e ∨ (Since P Q t ∧ ¬ Q e) := by
  constructor
  · rintro ⟨before, f, after, h, hP, hQ⟩
    rcases concat_eq_split_iff.1 h with ⟨-, rfl, -⟩ | ⟨rest, rfl, rfl⟩
    · exact .inl hP
    · refine .inr ⟨⟨before, f, rest, rfl, hP, fun x hx => hQ x ?_⟩, hQ e ?_⟩ <;> simp [*]
  · rintro (hP | ⟨⟨before, f, after, rfl, hP, hQ⟩, he⟩)
    · exact ⟨t, e, [], rfl, hP, by simp⟩
    · refine ⟨before, f, after ++ [e], by simp, hP, fun x hx => ?_⟩
      rcases List.mem_append.1 hx with hx | hx
      · exact hQ x hx
      · rwa [List.mem_singleton.1 hx]

theorem concat_of_not (hP : ¬ P e) (hQ : ¬ Q e) : Since P Q (t ++ [e]) ↔ Since P Q t := by
  simp [concat_iff, hP, hQ]

theorem mem_behind {before between : List α} (h : Since P Q (before ++ e :: between)) (hQ : Q e)
    (hP : ¬ P e) : ∃ f ∈ between, P f := by
  obtain ⟨earlier, f, after, cut, holds, kept⟩ := h
  rcases List.append_eq_append_iff.1 cut with ⟨middle, -, rest⟩ | ⟨middle, -, rest⟩
  · cases middle with
    | nil => exact absurd (List.head_eq_of_cons_eq rest ▸ holds) hP
    | cons g middle =>
      refine ⟨f, ?_, holds⟩
      rw [List.tail_eq_of_cons_eq rest]
      simp
  · cases middle with
    | nil => exact absurd (List.head_eq_of_cons_eq rest ▸ holds) hP
    | cons g middle =>
      refine absurd hQ (kept e ?_)
      rw [List.tail_eq_of_cons_eq rest]
      simp

theorem exists_both (h : Since P Q t) (h' : Since P' Q t) (ends : ∀ e, P e → Q e)
    (ends' : ∀ e, P' e → Q e) : ∃ e ∈ t, P e ∧ P' e := by
  obtain ⟨before, e, after, rfl, holds, kept⟩ := h
  by_cases both : P' e
  · exact ⟨e, by simp, holds, both⟩
  · obtain ⟨f, hf, holds'⟩ := h'.mem_behind (ends e holds) both
    exact absurd (ends' f holds') (kept f hf)

theorem mem (h : Since P Q t) : ∃ e ∈ t, P e := by
  obtain ⟨before, e, after, rfl, hP, -⟩ := h
  exact ⟨e, by simp, hP⟩

end Since

end EmulatorHost
