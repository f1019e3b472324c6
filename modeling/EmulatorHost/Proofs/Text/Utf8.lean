import EmulatorHost.Text.Utf8

/-! Which bytes are text. A reading completes a scalar value by exactly the bytes that encode
it, so `decode?` takes the well-formed strings and no others, and undoes `encode`. -/

namespace EmulatorHost.Utf8

/-- Encodings of scalar values, one after the other: no overlong form, no surrogate, nothing cut
off and nothing above U+10FFFF is one. -/
def WellFormed (bytes : List UInt8) : Prop := bytes.toByteArray.IsValidUTF8

theorem wellFormed_iff {bytes : List UInt8} : WellFormed bytes ↔ ∃ cs, encode cs = bytes := by
  constructor
  · rintro ⟨cs, same⟩
    refine ⟨cs, ?_⟩
    have lists := congrArg (fun b : ByteArray => b.data.toList) same
    simpa [List.utf8Encode, encode] using lists.symm
  · rintro ⟨cs, rfl⟩
    exact ⟨cs, rfl⟩

/-- The bytes that take a reading to the end of the scalar value it is in, or would start. -/
inductive Reading.Completes : Reading → List UInt8 → Char → Prop
  | ascii {b : UInt8} {c : Char} (low : b < 0x80) (hc : c = Char.ofNat b.toNat) :
      Completes .fresh [b] c
  | lead {b : UInt8} {r : Reading} {front : List UInt8} {c : Char} (high : 0x80 ≤ b)
      (opens : ofLead? b = some r) (later : Completes r front c) : Completes .fresh (b :: front) c
  | last {value : Nat} {low high b : UInt8} {c : Char} (fits : low ≤ b ∧ b ≤ high)
      (hc : c = Char.ofNat (value * 64 + b.toNat % 64)) : Completes (.opened value low high 0) [b] c
  | more {value more : Nat} {low high b : UInt8} {front : List UInt8} {c : Char}
      (fits : low ≤ b ∧ b ≤ high)
      (later : Completes (.opened (value * 64 + b.toNat % 64) 0x80 0xBF more) front c) :
      Completes (.opened value low high (more + 1)) (b :: front) c

namespace Reading

def text? (r : Reading) (bytes : List UInt8) : Option (List Char) :=
  (r.pieces bytes).mapM Piece.scalar?

section

variable {r : Reading} {b low high : UInt8} {value more : Nat} (rest : List UInt8)

@[simp] theorem text?_opened_nil : (opened value low high more).text? [] = none := rfl

theorem text?_ascii (small : b < 0x80) :
    fresh.text? (b :: rest) = (fresh.text? rest).map (Char.ofNat b.toNat :: ·) := by
  simp only [text?, pieces, feed, begin, if_pos small]
  cases h : (fresh.pieces rest).mapM Piece.scalar? <;> simp [h, Piece.scalar?]

theorem text?_lead (large : 0x80 ≤ b) (opens : ofLead? b = some r) :
    fresh.text? (b :: rest) = r.text? rest := by
  simp only [text?, pieces, feed, begin, if_neg (UInt8.not_lt.2 large), opens]
  rfl

theorem text?_stray (large : 0x80 ≤ b) (stray : ofLead? b = none) :
    fresh.text? (b :: rest) = none := by
  simp only [text?, pieces, feed, begin, if_neg (UInt8.not_lt.2 large), stray]
  rfl

theorem text?_last (fits : low ≤ b ∧ b ≤ high) :
    (opened value low high 0).text? (b :: rest) =
      (fresh.text? rest).map (Char.ofNat (value * 64 + b.toNat % 64) :: ·) := by
  simp only [text?, pieces, feed, if_pos fits]
  cases h : (fresh.pieces rest).mapM Piece.scalar? <;> simp [h, Piece.scalar?]

theorem text?_more (fits : low ≤ b ∧ b ≤ high) :
    (opened value low high (more + 1)).text? (b :: rest) =
      (opened (value * 64 + b.toNat % 64) 0x80 0xBF more).text? rest := by
  simp only [text?, pieces, feed, if_pos fits]
  rfl

theorem text?_misfit (misfit : ¬ (low ≤ b ∧ b ≤ high)) :
    (opened value low high more).text? (b :: rest) = none := by
  simp only [text?, pieces, feed, if_neg misfit]
  rfl

end

theorem ofLead?_eq (b : UInt8) : ofLead? b =
    if 0xC2 ≤ b.toNat ∧ b.toNat ≤ 0xDF then some (.opened (b.toNat - 0xC0) 0x80 0xBF 0)
    else if 0xE0 ≤ b.toNat ∧ b.toNat ≤ 0xEF then
      some (.opened (b.toNat - 0xE0) (if b.toNat = 0xE0 then 0xA0 else 0x80)
        (if b.toNat = 0xED then 0x9F else 0xBF) 1)
    else if 0xF0 ≤ b.toNat ∧ b.toNat ≤ 0xF4 then
      some (.opened (b.toNat - 0xF0) (if b.toNat = 0xF0 then 0x90 else 0x80)
        (if b.toNat = 0xF4 then 0x8F else 0xBF) 2)
    else none := by
  simp only [ofLead?, UInt8.le_iff_toNat_le, ← UInt8.toNat_inj, UInt8.reduceToNat]
  have small := b.toNat_lt
  generalize b.toNat = n at small ⊢
  grind

theorem ofLead?_ne_fresh (b : UInt8) : ofLead? b ≠ some fresh := by
  rw [ofLead?_eq]
  split
  · simp
  · split
    · simp
    · split <;> simp

theorem text?_eq_some {r : Reading} {bytes : List UInt8} {cs : List Char} :
    r.text? bytes = some cs ↔
      r = fresh ∧ bytes = [] ∧ cs = [] ∨
        ∃ front rest c cs', bytes = front ++ rest ∧ cs = c :: cs' ∧ r.Completes front c ∧
          fresh.text? rest = some cs' := by
  induction bytes generalizing r with
  | nil =>
    constructor
    · intro found
      cases r with
      | fresh => exact .inl ⟨rfl, rfl, (Option.some.inj found).symm⟩
      | opened => simp at found
    · rintro (⟨rfl, -, rfl⟩ | ⟨front, rest, c, cs', same, -, completes, -⟩)
      · rfl
      · cases completes <;> simp at same
  | cons b bytes ih =>
    constructor
    · intro found
      refine .inr ?_
      cases r with
      | fresh =>
        by_cases small : b < 0x80
        · rw [text?_ascii bytes small] at found
          obtain ⟨cs', later, rfl⟩ := Option.map_eq_some_iff.1 found
          exact ⟨[b], bytes, _, cs', rfl, rfl, .ascii small rfl, later⟩
        · have large := UInt8.not_lt.1 small
          cases opens : ofLead? b with
          | none => simp [text?_stray bytes large opens] at found
          | some r =>
            rw [text?_lead bytes large opens, ih] at found
            rcases found with ⟨rfl, -⟩ | ⟨front, rest, c, cs', rfl, rfl, completes, later⟩
            · exact absurd opens (ofLead?_ne_fresh b)
            · exact ⟨b :: front, rest, c, cs', rfl, rfl, .lead large opens completes, later⟩
      | opened value low high more =>
        by_cases fits : low ≤ b ∧ b ≤ high
        · cases more with
          | zero =>
            rw [text?_last bytes fits] at found
            obtain ⟨cs', later, rfl⟩ := Option.map_eq_some_iff.1 found
            exact ⟨[b], bytes, _, cs', rfl, rfl, .last fits rfl, later⟩
          | succ more =>
            rw [text?_more bytes fits, ih] at found
            rcases found with ⟨⟨⟩, -⟩ | ⟨front, rest, c, cs', rfl, rfl, completes, later⟩
            exact ⟨b :: front, rest, c, cs', rfl, rfl, .more fits completes, later⟩
        · simp [text?_misfit bytes fits] at found
    · rintro (⟨-, ⟨⟩, -⟩ | ⟨front, rest, c, cs', same, rfl, completes, later⟩)
      cases completes with
      | ascii small hc =>
        obtain ⟨rfl, rfl⟩ : b = _ ∧ bytes = rest := List.cons.inj same
        rw [text?_ascii _ small, later, hc]
        rfl
      | lead large opens completes =>
        obtain ⟨rfl, rfl⟩ := List.cons.inj same
        rw [text?_lead _ large opens]
        exact ih.2 (.inr ⟨_, rest, c, cs', rfl, rfl, completes, later⟩)
      | last fits hc =>
        obtain ⟨rfl, rfl⟩ : b = _ ∧ bytes = rest := List.cons.inj same
        rw [text?_last _ fits, later, hc]
        rfl
      | more fits completes =>
        obtain ⟨rfl, rfl⟩ := List.cons.inj same
        rw [text?_more _ fits]
        exact ih.2 (.inr ⟨_, rest, c, cs', rfl, rfl, completes, later⟩)

end Reading

theorem toNat_ofNat {n : Nat} (valid : n.isValidChar) : (Char.ofNat n).toNat = n := by
  rw [Char.ofNat, dif_pos valid]
  rfl

inductive Encodes (c : Char) : List UInt8 → Prop
  | one {a : UInt8} (width : c.toNat < 0x80) (ha : a.toNat = c.toNat) : Encodes c [a]
  | two {a b : UInt8} (width : 0x80 ≤ c.toNat ∧ c.toNat < 0x800)
      (ha : a.toNat = 0xC0 + c.toNat / 64) (hb : b.toNat = 0x80 + c.toNat % 64) : Encodes c [a, b]
  | three {a b d : UInt8} (width : 0x800 ≤ c.toNat ∧ c.toNat < 0x10000)
      (ha : a.toNat = 0xE0 + c.toNat / 4096) (hb : b.toNat = 0x80 + c.toNat / 64 % 64)
      (hd : d.toNat = 0x80 + c.toNat % 64) : Encodes c [a, b, d]
  | four {a b d e : UInt8} (width : 0x10000 ≤ c.toNat)
      (ha : a.toNat = 0xF0 + c.toNat / 262144) (hb : b.toNat = 0x80 + c.toNat / 4096 % 64)
      (hd : d.toNat = 0x80 + c.toNat / 64 % 64) (he : e.toNat = 0x80 + c.toNat % 64) :
      Encodes c [a, b, d, e]

theorem valid_toNat (c : Char) : c.toNat < 0xD800 ∨ 0xDFFF < c.toNat ∧ c.toNat < 0x110000 := c.valid

theorem encodes (c : Char) : Encodes c (String.utf8EncodeChar c) := by
  have valid := valid_toNat c
  have same : c.val.toNat = c.toNat := rfl
  simp only [String.utf8EncodeChar, same]
  split
  · exact .one (by omega) (by simp only [UInt8.toNat_ofNat']; omega)
  · split
    · refine .two (by omega) ?_ ?_ <;> simp only [UInt8.toNat_ofNat'] <;> omega
    · split
      · refine .three (by omega) ?_ ?_ ?_ <;> simp only [UInt8.toNat_ofNat'] <;> omega
      · refine .four (by omega) ?_ ?_ ?_ ?_ <;> simp only [UInt8.toNat_ofNat'] <;> omega

theorem Encodes.unique {c : Char} {bytes bytes' : List UInt8} (h : Encodes c bytes)
    (h' : Encodes c bytes') : bytes = bytes' := by
  have same : bytes.map UInt8.toNat = bytes'.map UInt8.toNat := by
    cases h <;> cases h' <;> first | omega | simp [*]
  exact (List.map_inj_right fun _ _ => UInt8.toNat_inj.1).1 same

theorem fits_iff {low high b : UInt8} :
    low ≤ b ∧ b ≤ high ↔ low.toNat ≤ b.toNat ∧ b.toNat ≤ high.toNat := by
  rw [UInt8.le_iff_toNat_le, UInt8.le_iff_toNat_le]

theorem fits_tail {b : UInt8} {n : Nat} (hb : b.toNat = 0x80 + n % 64) : 0x80 ≤ b ∧ b ≤ 0xBF := by
  simp only [fits_iff, UInt8.reduceToNat]
  omega

theorem completes_of_encodes {c : Char} {front : List UInt8} (h : Encodes c front) :
    Reading.fresh.Completes front c := by
  have valid := valid_toNat c
  have found {n : Nat} (hn : n = c.toNat) : c = Char.ofNat n := by rw [hn, Char.ofNat_toNat]
  have large {a : UInt8} (ha : 0x80 ≤ a.toNat) : 0x80 ≤ a := UInt8.le_iff_toNat_le.2 ha
  cases h with
  | one width ha => exact .ascii (UInt8.lt_iff_toNat_lt.2 (ha ▸ width)) (found ha)
  | @two a b width ha hb =>
    have opens := Reading.ofLead?_eq a
    rw [if_pos (by omega)] at opens
    exact .lead (large (by omega)) opens (.last (fits_tail hb) (found (by omega)))
  | @three a b d width ha hb hd =>
    have opens := Reading.ofLead?_eq a
    rw [if_neg (by omega), if_pos (by omega)] at opens
    refine .lead (large (by omega)) opens (.more ?_ (.last (fits_tail hd) (found (by omega))))
    simp only [fits_iff, apply_ite UInt8.toNat, UInt8.reduceToNat]
    constructor <;> split <;> omega
  | @four a b d e width ha hb hd he =>
    have opens := Reading.ofLead?_eq a
    rw [if_neg (by omega), if_neg (by omega), if_pos (by omega)] at opens
    refine .lead (large (by omega)) opens (.more ?_ (.more (fits_tail hd)
      (.last (fits_tail he) (found (by omega)))))
    simp only [fits_iff, apply_ite UInt8.toNat, UInt8.reduceToNat]
    constructor <;> split <;> omega

theorem Reading.Completes.of_last {value : Nat} {low high : UInt8} {front : List UInt8} {c : Char}
    (h : Completes (.opened value low high 0) front c) :
    ∃ b : UInt8, front = [b] ∧ (low.toNat ≤ b.toNat ∧ b.toNat ≤ high.toNat) ∧
      c = Char.ofNat (value * 64 + b.toNat % 64) := by
  cases h with
  | last fits hc => exact ⟨_, rfl, fits_iff.1 fits, hc⟩

theorem Reading.Completes.of_more {value more : Nat} {low high : UInt8} {front : List UInt8}
    {c : Char} (h : Completes (.opened value low high (more + 1)) front c) :
    ∃ (b : UInt8) (rest : List UInt8), front = b :: rest ∧
      (low.toNat ≤ b.toNat ∧ b.toNat ≤ high.toNat) ∧
      Completes (.opened (value * 64 + b.toNat % 64) 0x80 0xBF more) rest c := by
  cases h with
  | more fits later => exact ⟨_, _, rfl, fits_iff.1 fits, later⟩

theorem encodes_of_completes {c : Char} {front : List UInt8} (h : Reading.fresh.Completes front c) :
    Encodes c front := by
  have known {n : Nat} (hc : c = Char.ofNat n) (valid : n.isValidChar) : c.toNat = n := by
    rw [hc, toNat_ofNat valid]
  cases h with
  | @ascii b _ low hc =>
    have small : b.toNat < 0x80 := UInt8.lt_iff_toNat_lt.1 low
    have value := known hc (by omega)
    exact .one (by omega) value.symm
  | @lead a r front _ high opens later =>
    rw [Reading.ofLead?_eq] at opens
    split at opens
    · obtain rfl := Option.some.inj opens
      obtain ⟨b, rfl, hb, hc⟩ := later.of_last
      simp only [UInt8.reduceToNat] at hb
      have value := known hc (by omega)
      exact .two (by omega) (by omega) (by omega)
    · split at opens
      · obtain rfl := Option.some.inj opens
        obtain ⟨b, _, rfl, hb, later⟩ := later.of_more
        obtain ⟨d, rfl, hd, hc⟩ := later.of_last
        simp only [apply_ite UInt8.toNat, UInt8.reduceToNat] at hb hd
        have second : 0x80 ≤ b.toNat ∧ b.toNat ≤ 0xBF ∧ (a.toNat = 0xE0 → 0xA0 ≤ b.toNat) ∧
          (a.toNat = 0xED → b.toNat ≤ 0x9F) := by grind
        have value := known hc (by omega)
        exact .three (by omega) (by omega) (by omega) (by omega)
      · split at opens
        · obtain rfl := Option.some.inj opens
          obtain ⟨b, _, rfl, hb, later⟩ := later.of_more
          obtain ⟨d, _, rfl, hd, later⟩ := later.of_more
          obtain ⟨e, rfl, he, hc⟩ := later.of_last
          simp only [apply_ite UInt8.toNat, UInt8.reduceToNat] at hb hd he
          have second : 0x80 ≤ b.toNat ∧ b.toNat ≤ 0xBF ∧ (a.toNat = 0xF0 → 0x90 ≤ b.toNat) ∧
            (a.toNat = 0xF4 → b.toNat ≤ 0x8F) := by grind
          have value := known hc (by omega)
          exact .four (by omega) (by omega) (by omega) (by omega) (by omega)
        · cases opens

theorem completes_iff {c : Char} {front : List UInt8} :
    Reading.fresh.Completes front c ↔ front = String.utf8EncodeChar c := by
  constructor
  · intro h
    exact (encodes_of_completes h).unique (encodes c)
  · rintro rfl
    exact completes_of_encodes (encodes c)

theorem decode?_eq_some {bytes : List UInt8} {cs : List Char} :
    decode? bytes = some cs ↔ encode cs = bytes := by
  change Reading.fresh.text? bytes = some cs ↔ _
  induction cs generalizing bytes with
  | nil =>
    rw [Reading.text?_eq_some]
    simp [encode, eq_comm]
  | cons c cs ih =>
    rw [Reading.text?_eq_some]
    constructor
    · rintro (⟨-, -, ⟨⟩⟩ | ⟨front, rest, _, _, rfl, ⟨⟩, completes, later⟩)
      rw [completes_iff.1 completes, ← ih.1 later, encode, List.flatMap_cons]
      rfl
    · rintro rfl
      exact .inr ⟨_, encode cs, c, cs, rfl, rfl, completes_iff.2 rfl, ih.2 rfl⟩

theorem isSome_decode? {bytes : List UInt8} : (decode? bytes).isSome ↔ WellFormed bytes := by
  simp only [Option.isSome_iff_exists, decode?_eq_some, wellFormed_iff]

instance : DecidablePred WellFormed := fun _ => decidable_of_iff _ isSome_decode?

theorem decode?_eq_none {bytes : List UInt8} : decode? bytes = none ↔ ¬ WellFormed bytes := by
  rw [← isSome_decode?, Option.not_isSome_iff_eq_none]

end EmulatorHost.Utf8
