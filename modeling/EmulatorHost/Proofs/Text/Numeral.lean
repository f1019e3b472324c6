import EmulatorHost.Text.Numeral

namespace EmulatorHost.Numeral

variable {limit value n : Nat} {excess : Problem} {text digits : List Char}

theorem digit?_of_isDigit {c : Char} (h : c.isDigit = true) :
    digit? c = some (c.toNat - '0'.toNat) := by
  simp only [Char.isDigit, Bool.and_eq_true, decide_eq_true_eq] at h
  exact if_pos h

theorem digit?_of_not_isDigit {c : Char} (h : c.isDigit = false) : digit? c = none := by
  refine if_neg fun both => ?_
  simp only [Char.isDigit, Bool.and_eq_false_iff, decide_eq_false_iff_not] at h
  exact h.elim (· both.1) (· both.2)

theorem le_ofDigitChars (value : Nat) (digits : List Char) :
    value ≤ Nat.ofDigitChars 10 digits value := by
  induction digits generalizing value with
  | nil => exact Nat.le_refl value
  | cons c rest ih =>
    rw [Nat.ofDigitChars_cons]
    exact Nat.le_trans (by omega) (ih _)

theorem readDigits_eq_ok (fits : value ≤ limit) : readDigits limit excess value digits = .ok n ↔
    (∀ c ∈ digits, c.isDigit = true) ∧ Nat.ofDigitChars 10 digits value = n ∧ n ≤ limit := by
  induction digits generalizing value with
  | nil =>
    simp only [readDigits, Except.ok.injEq, Nat.ofDigitChars_nil]
    constructor
    · rintro rfl
      exact ⟨List.forall_mem_nil _, rfl, fits⟩
    · exact fun h => h.2.1
  | cons c rest ih =>
    rw [List.forall_mem_cons, Nat.ofDigitChars_cons, Nat.mul_comm, readDigits]
    cases digit : c.isDigit with
    | false => simp [digit?_of_not_isDigit digit]
    | true =>
      simp only [digit?_of_isDigit digit, true_and]
      by_cases small : value * 10 + (c.toNat - '0'.toNat) ≤ limit
      · rw [if_neg (Nat.not_lt.2 small), ih small]
      · -- the value only grows with the digits that follow
        rw [if_pos (Nat.lt_of_not_le small)]
        refine iff_of_false nofun fun ⟨_, made, fits⟩ => small ?_
        exact Nat.le_trans (le_ofDigitChars _ rest) (made ▸ fits)

structure Digits (n : Nat) (text : List Char) : Prop where
  given : text ≠ []
  digits : ∀ c ∈ text, c.isDigit = true
  value : Nat.ofDigitChars 10 text 0 = n

def Spells (n : Nat) (text : List Char) : Prop :=
  Digits n text ∨ ∃ digits, text = '+' :: digits ∧ Digits n digits

theorem digits_iff (given : text ≠ []) :
    readDigits limit excess 0 text = .ok n ↔ Digits n text ∧ n ≤ limit := by
  rw [readDigits_eq_ok (Nat.zero_le limit)]
  constructor
  · rintro ⟨digits, value, fits⟩
    exact ⟨⟨given, digits, value⟩, fits⟩
  · rintro ⟨⟨-, digits, value⟩, fits⟩
    exact ⟨digits, value, fits⟩

theorem not_digits_plus : ¬ Digits n ('+' :: digits) := fun h =>
  absurd (h.digits '+' List.mem_cons_self) (by decide)

theorem readNat_eq_ok : readNat limit text = .ok n ↔ Spells n text ∧ n ≤ limit := by
  unfold readNat
  split
  · refine iff_of_false nofun ?_
    rintro ⟨(h | ⟨_, h, -⟩), -⟩
    · exact h.given rfl
    · cases h
  · refine iff_of_false nofun ?_
    rintro ⟨(h | ⟨_, h, digits⟩), -⟩
    · exact not_digits_plus h
    · exact digits.given (List.tail_eq_of_cons_eq h).symm
  · rename_i digits given
    rw [digits_iff (fun none => given (by rw [none]))]
    simp [Spells, not_digits_plus]
  · rename_i given _ unsigned
    rw [digits_iff given]
    have plain : ¬ ∃ digits, text = '+' :: digits ∧ Digits n digits := fun ⟨digits, signed, _⟩ =>
      unsigned digits signed
    simp [Spells, plain]

theorem readInt_eq_ok_of_digits (h : Digits n text) (fits : n ≤ limit) :
    readInt limit text = .ok (n : Int) := by
  have read : readNat limit text = .ok n := readNat_eq_ok.2 ⟨.inl h, fits⟩
  unfold readInt
  split
  · exact absurd (h.digits '-' List.mem_cons_self) (by decide)
  · exact absurd (h.digits '-' List.mem_cons_self) (by decide)
  · rw [read]
    rfl

theorem Spells.mem (h : Spells n text) : ∀ c ∈ text, c = '+' ∨ c.isDigit = true := by
  rcases h with plain | ⟨digits, rfl, signed⟩
  · exact fun c hc => .inr (plain.digits c hc)
  · exact List.forall_mem_cons.2 ⟨.inl rfl, fun c hc => .inr (signed.digits c hc)⟩

theorem digits_toDigits (n : Nat) : Digits n (Nat.toDigits 10 n) where
  given := Nat.toDigits_ne_nil
  digits _ := Nat.isDigit_of_mem_toDigits (by decide) (by decide)
  value := Nat.ofDigitChars_ten_toDigits

end EmulatorHost.Numeral
