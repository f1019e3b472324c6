import EmulatorHost.Headless.SizeText
import EmulatorHost.Proofs.Text.Blank
import EmulatorHost.Proofs.Text.Numeral

namespace EmulatorHost.Headless.SizeText

variable {text before after : List Char} {c : Char} {n width height : UInt32} {size : Size}

theorem isSeparator_iff : isSeparator c = true ↔ c = 'x' ∨ c = 'X' := by simp [isSeparator]

theorem split?_eq_some : split? text = some (before, after) ↔
    ∃ sep, text = before ++ sep :: after ∧ isSeparator sep = true ∧
      ∀ c ∈ before, isSeparator c = false := by
  induction text generalizing before with
  | nil => simp [split?]
  | cons c rest ih =>
    rw [split?]
    cases separates : isSeparator c with
    | true =>
      simp only [if_true, Option.some.injEq, Prod.mk.injEq]
      constructor
      · rintro ⟨rfl, rfl⟩
        exact ⟨c, rfl, separates, List.forall_mem_nil _⟩
      · rintro ⟨sep, cut, -, plain⟩
        cases before with
        | nil => exact ⟨rfl, List.tail_eq_of_cons_eq cut⟩
        | cons d before =>
          obtain rfl : c = d := List.head_eq_of_cons_eq cut
          rw [plain c List.mem_cons_self] at separates
          cases separates
    | false =>
      simp only [Bool.false_eq_true, if_false, Option.map_eq_some_iff, Prod.exists, Prod.mk.injEq]
      constructor
      · rintro ⟨first, _, found, rfl, rfl⟩
        obtain ⟨sep, rfl, is, plain⟩ := ih.1 found
        exact ⟨sep, rfl, is, List.forall_mem_cons.2 ⟨separates, plain⟩⟩
      · rintro ⟨sep, cut, is, plain⟩
        cases before with
        | nil =>
          rw [List.head_eq_of_cons_eq cut, is] at separates
          cases separates
        | cons d before =>
          obtain rfl : c = d := List.head_eq_of_cons_eq cut
          refine ⟨before, after, ih.2 ⟨sep, List.tail_eq_of_cons_eq cut, is, ?_⟩, rfl, rfl⟩
          exact (List.forall_mem_cons.1 plain).2

def Shows (n : UInt32) (text : List Char) : Prop :=
  ∃ numeral, Blank.Trims text numeral ∧ Numeral.Spells n.toNat numeral

theorem readSide_eq_ok : readSide text = .ok n ↔ Shows n text := by
  have shows_iff :
      Shows n text ↔ Numeral.readNat (UInt32.size - 1) (Blank.trim text) = .ok n.toNat := by
    rw [Numeral.readNat_eq_ok]
    constructor
    · rintro ⟨numeral, trims, spells⟩
      exact ⟨trims.eq ▸ spells, Nat.le_pred_of_lt n.toNat_lt_size⟩
    · rintro ⟨spells, -⟩
      exact ⟨_, Blank.trims_trim text, spells⟩
  rw [shows_iff, readSide]
  cases read : Numeral.readNat (UInt32.size - 1) (Blank.trim text) with
  | error problem => exact iff_of_false nofun nofun
  | ok m =>
    have fits := (Numeral.readNat_eq_ok.1 read).2
    simp only [Except.map, Except.ok.injEq]
    constructor
    · rintro rfl
      exact (Nat.mod_eq_of_lt (Nat.lt_of_le_pred (by decide) fits)).symm
    · rintro rfl
      exact UInt32.ofNat_toNat

theorem read_of_split (cut : split? text = some (before, after)) : read text = .ok size ↔
    Shows size.width before ∧ Shows size.height after ∧ size.width ≠ 0 ∧ size.height ≠ 0 := by
  simp only [read, cut]
  rw [← readSide_eq_ok, ← readSide_eq_ok]
  cases left : readSide before with
  | error problem => simp
  | ok width =>
    cases right : readSide after with
    | error problem => simp
    | ok height =>
      rcases size with ⟨w, h⟩
      by_cases zero : width = 0 ∨ height = 0
      · simp only [zero, if_true, Except.ok.injEq]
        refine iff_of_false nofun ?_
        rintro ⟨rfl, rfl, wide, high⟩
        exact zero.elim wide high
      · simp only [zero, if_false, Except.ok.injEq, Size.mk.injEq]
        constructor
        · rintro ⟨rfl, rfl⟩
          exact ⟨rfl, rfl, not_or.1 zero⟩
        · exact fun h => ⟨h.1, h.2.1⟩

theorem read_eq_ok : read text = .ok size ↔ ∃ before sep after, text = before ++ sep :: after ∧
    isSeparator sep = true ∧ (∀ c ∈ before, isSeparator c = false) ∧
      Shows size.width before ∧ Shows size.height after ∧ size.width ≠ 0 ∧ size.height ≠ 0 := by
  constructor
  · intro reads
    cases cut : split? text with
    | none => simp [read, cut] at reads
    | some sides =>
      obtain ⟨sep, rfl, is, plain⟩ := split?_eq_some.1 cut
      exact ⟨_, sep, _, rfl, is, plain, (read_of_split cut).1 reads⟩
  · rintro ⟨before, sep, after, rfl, is, plain, sides⟩
    exact (read_of_split (split?_eq_some.2 ⟨sep, rfl, is, plain⟩)).2 sides

theorem Shows.plain (h : Shows n text) : ∀ c ∈ text, isSeparator c = false := by
  obtain ⟨numeral, ⟨⟨left, right, rfl, before, behind⟩, -, -⟩, spells⟩ := h
  have visible (c : Char) (blank : Blank.isBlank c = true) : isSeparator c = false := by
    refine Bool.eq_false_iff.2 fun separates => ?_
    rcases isSeparator_iff.1 separates with rfl | rfl <;> cases blank
  have spelled (c : Char) (hc : c = '+' ∨ c.isDigit = true) : isSeparator c = false := by
    refine Bool.eq_false_iff.2 fun separates => ?_
    rcases isSeparator_iff.1 separates with rfl | rfl <;> simp at hc
  intro c hc
  rcases List.mem_append.1 hc with hc | hc
  · rcases List.mem_append.1 hc with hc | hc
    · exact visible c (before c hc)
    · exact spelled c (spells.mem c hc)
  · exact visible c (behind c hc)

theorem shows_toString (n : UInt32) : Shows n (toString n.toNat).toList := by
  rw [Nat.toString_eq_repr, Nat.toList_repr]
  have digits := Numeral.digits_toDigits n.toNat
  exact ⟨_, Blank.trims_self fun c hc => Blank.isBlank_of_isDigit (digits.digits c hc),
    .inl digits⟩

/-- A text is read as a size if and only if the two sides of its first separator show the width and
the height and neither is zero. So there is no second separator in it, and sizes as they are written
are read back. -/
theorem read_exactly_when_shown :
    (∀ (text : List Char) (size : Size), read text = .ok size ↔
      ∃ before sep after, text = before ++ sep :: after ∧ (sep = 'x' ∨ sep = 'X') ∧
        (∀ c ∈ before, c ≠ 'x' ∧ c ≠ 'X') ∧ Shows size.width before ∧ Shows size.height after ∧
        size.width ≠ 0 ∧ size.height ≠ 0) ∧
    (∀ text : List Char, 2 ≤ text.countP (fun c => c = 'x' ∨ c = 'X') →
      ∃ problem, read text = .error problem) ∧
    ∀ (size : Size) (sep : Char), size.width ≠ 0 → size.height ≠ 0 → (sep = 'x' ∨ sep = 'X') →
      read ((toString size.width.toNat).toList ++ sep :: (toString size.height.toNat).toList) =
        .ok size := by
  refine ⟨fun text size => ?_, fun text twice => ?_, fun size sep wide high is => ?_⟩
  · rw [read_eq_ok]
    simp only [isSeparator_iff, Bool.eq_false_iff, ne_eq, not_or]
  · cases reads : read text with
    | error problem => exact ⟨problem, rfl⟩
    | ok size =>
      obtain ⟨before, sep, after, rfl, -, plain, -, high, -⟩ := read_eq_ok.1 reads
      have none {side : List Char} (plain : ∀ c ∈ side, isSeparator c = false) :
          side.countP (fun c => c = 'x' ∨ c = 'X') = 0 := by
        refine List.countP_eq_zero.2 fun c hc is => ?_
        have separates := isSeparator_iff.2 (of_decide_eq_true is)
        exact Bool.false_ne_true ((plain c hc).symm.trans separates)
      rw [List.countP_append, List.countP_cons, none plain, none high.plain] at twice
      split at twice <;> omega
  · exact read_eq_ok.2 ⟨_, sep, _, rfl, isSeparator_iff.2 is, (shows_toString _).plain,
      shows_toString _, shows_toString _, wide, high⟩

theorem padded_and_largest_sizes_read :
    read [' ', '+', '0', '8', '\t', 'X', '6', ' '] = .ok ⟨8, 6⟩ ∧
    (∃ problem, read ['8', 'x', '6', 'X'] = .error problem) ∧
    read ((toString 4294967295).toList ++ 'x' :: (toString 1).toList) = .ok ⟨4294967295, 1⟩ := by
  obtain ⟨accepts, rejects, written⟩ := read_exactly_when_shown
  have width : Shows 8 [' ', '+', '0', '8', '\t'] := readSide_eq_ok.1 rfl
  have height : Shows 6 ['6', ' '] := readSide_eq_ok.1 rfl
  have plain : ∀ c ∈ [' ', '+', '0', '8', '\t'], c ≠ 'x' ∧ c ≠ 'X' := by simp
  exact ⟨(accepts _ ⟨8, 6⟩).2
      ⟨_, 'X', _, rfl, .inr rfl, plain, width, height, by decide, by decide⟩,
    rejects _ (by decide), written ⟨4294967295, 1⟩ 'x' (by decide) (by decide) (.inl rfl)⟩

end EmulatorHost.Headless.SizeText
