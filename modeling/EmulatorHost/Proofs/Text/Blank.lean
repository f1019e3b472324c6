import EmulatorHost.Text.Blank

namespace EmulatorHost.Blank

variable {text core : List Char}

structure Trims (text core : List Char) : Prop where
  around : ∃ left right, text = left ++ core ++ right ∧ (∀ c ∈ left, isBlank c = true) ∧
    ∀ c ∈ right, isBlank c = true
  first : ∀ c ∈ core.head?, isBlank c = false
  last : ∀ c ∈ core.getLast?, isBlank c = false

theorem dropWhile_of_head? (first : ∀ c ∈ text.head?, isBlank c = false) :
    text.dropWhile isBlank = text := by
  cases text with
  | nil => rfl
  | cons c rest => rw [List.dropWhile_cons_of_neg (by simp [first c rfl])]

theorem head?_dropWhile (text : List Char) :
    ∀ c ∈ (text.dropWhile isBlank).head?, isBlank c = false := by
  intro c hc
  have begins := List.head?_dropWhile_not isBlank text
  rw [hc] at begins
  simpa using begins

theorem mem_takeWhile {c : Char} (h : c ∈ text.takeWhile isBlank) : isBlank c = true :=
  List.all_eq_true.1 List.all_takeWhile c h

theorem isBlank_of_isDigit {c : Char} (h : c.isDigit = true) : isBlank c = false := by
  have digit : 48 ≤ c.toNat ∧ c.toNat ≤ 57 := Char.isDigit_iff_toNat.1 h
  simp only [isBlank, ranges, List.any_cons, List.any_nil, Bool.or_false, Bool.or_eq_false_iff,
    Bool.and_eq_false_iff, decide_eq_false_iff_not]
  omega

theorem trims_self (plain : ∀ c ∈ text, isBlank c = false) : Trims text text where
  around := ⟨[], [], by simp, List.forall_mem_nil _, List.forall_mem_nil _⟩
  first c hc := plain c (List.mem_of_mem_head? hc)
  last c hc := plain c (List.mem_of_mem_getLast? hc)

theorem trims_trim (text : List Char) : Trims text (trim text) := by
  have front := List.takeWhile_append_dropWhile (p := isBlank) (l := text)
  have begins := head?_dropWhile text
  unfold trim
  generalize text.dropWhile isBlank = rest at front begins
  have back := List.takeWhile_append_dropWhile (p := isBlank) (l := rest.reverse)
  have ends := head?_dropWhile rest.reverse
  generalize rest.reverse.dropWhile isBlank = core at back ends
  have whole : core.reverse ++ (rest.reverse.takeWhile isBlank).reverse = rest := by
    rw [← List.reverse_append, back, List.reverse_reverse]
  refine ⟨⟨text.takeWhile isBlank, (rest.reverse.takeWhile isBlank).reverse, ?_,
    fun c => mem_takeWhile, fun c hc => mem_takeWhile (List.mem_reverse.1 hc)⟩,
    fun c hc => begins c ?_, by simpa using ends⟩
  · rw [List.append_assoc, whole, front]
  · rw [← whole, List.head?_append, Option.mem_def.1 hc]
    rfl

theorem Trims.eq (h : Trims text core) : trim text = core := by
  obtain ⟨⟨left, right, rfl, before, behind⟩, first, last⟩ := h
  unfold trim
  rw [List.append_assoc, List.dropWhile_append_of_pos before]
  cases core with
  | nil =>
    rw [List.nil_append, ← List.append_nil right, List.dropWhile_append_of_pos behind]
    rfl
  | cons c rest =>
    have begins : ∀ d ∈ (c :: rest ++ right).head?, isBlank d = false := first
    have ends : ∀ d ∈ (c :: rest).reverse.head?, isBlank d = false := by
      rw [List.head?_reverse]
      exact last
    rw [dropWhile_of_head? begins, List.reverse_append,
      List.dropWhile_append_of_pos fun d hd => behind d (List.mem_reverse.1 hd),
      dropWhile_of_head? ends, List.reverse_reverse]

end EmulatorHost.Blank
