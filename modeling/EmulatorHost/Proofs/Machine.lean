import EmulatorHost.Proofs.Since

/-! A run of a machine keeps all that was asked, answered and called, so that a statement about it
speaks of one list. -/

namespace EmulatorHost

structure Episode (S M A E : Type) where
  before : S
  move : M
  answer : A
  calls : List E
  after : S

structure Machine (S M A E : Type) where
  allows : S → M → Bool
  perform : M → S → A × List E × S

namespace Machine

variable {S M A E : Type} {x : Machine S M A E} {s s' s'' : S} {t t' : List (Episode S M A E)}

def episode (x : Machine S M A E) (m : M) (s : S) : Episode S M A E :=
  ⟨s, m, (x.perform m s).1, (x.perform m s).2.1, (x.perform m s).2.2⟩

inductive Run (x : Machine S M A E) (s : S) : List (Episode S M A E) → S → Prop
  | start : Run x s [] s
  | next {t : List (Episode S M A E)} {s' : S} (m : M) : Run x s t s' → x.allows s' m →
      Run x s (t ++ [x.episode m s']) (x.episode m s').after

def run? (x : Machine S M A E) : List M → S → Option (List (Episode S M A E) × S)
  | [], s => some ([], s)
  | m :: rest, s =>
    if x.allows s m then
      (run? x rest (x.episode m s).after).map fun (t, r) => (x.episode m s :: t, r)
    else none

namespace Run

theorem trans (h : x.Run s t s') (h' : x.Run s' t' s'') : x.Run s (t ++ t') s'' := by
  induction h' with
  | start => simpa using h
  | next m _ allowed ih => simpa using ih.next m allowed

theorem single (m : M) (h : x.allows s m) : x.Run s [x.episode m s] (x.episode m s).after :=
  .next m .start h

theorem split {before after : List (Episode S M A E)} {e : Episode S M A E}
    (h : x.Run s (before ++ e :: after) s') :
    x.Run s before e.before ∧ x.allows e.before e.move ∧ e = x.episode e.move e.before ∧
      x.Run e.after after s' := by
  generalize ht : before ++ e :: after = t at h
  induction h generalizing after with
  | start => simp at ht
  | @next t s' m h allowed ih =>
    rcases concat_eq_split_iff.1 ht.symm with ⟨rfl, rfl, rfl⟩ | ⟨rest, rfl, rfl⟩
    · exact ⟨h, allowed, rfl, .start⟩
    · obtain ⟨first, able, same, later⟩ := ih rfl
      exact ⟨first, able, same, later.next m allowed⟩

theorem through {before after : List (Episode S M A E)} {e : Episode S M A E}
    (h : x.Run s (before ++ e :: after) s') : x.Run s (before ++ [e]) e.after := by
  obtain ⟨first, allowed, same, -⟩ := h.split
  rw [same]
  exact first.next _ allowed

theorem of_run? {moves : List M} (h : x.run? moves s = some (t, s')) : x.Run s t s' := by
  induction moves generalizing s t with
  | nil =>
    obtain ⟨rfl, rfl⟩ : [] = t ∧ s = s' := by simpa [run?] using h
    exact .start
  | cons m rest ih =>
    simp only [run?] at h
    split at h
    · rename_i allowed
      obtain ⟨⟨t, r⟩, hr, hs⟩ := Option.map_eq_some_iff.1 h
      obtain ⟨rfl, rfl⟩ := Prod.mk.inj hs
      exact (Run.single m allowed).trans (ih hr)
    · cases h

theorem moves_of_run? {moves : List M} (h : x.run? moves s = some (t, s')) :
    t.map (·.move) = moves := by
  induction moves generalizing s t with
  | nil =>
    obtain ⟨rfl, -⟩ : [] = t ∧ s = s' := by simpa [run?] using h
    rfl
  | cons m rest ih =>
    simp only [run?] at h
    split at h
    · obtain ⟨⟨t, r⟩, hr, hs⟩ := Option.map_eq_some_iff.1 h
      obtain ⟨rfl, rfl⟩ := Prod.mk.inj hs
      rw [List.map_cons, ih hr]
      rfl
    · cases h

theorem of_decided {P : List (Episode S M A E) → S → Prop} [∀ t s, Decidable (P t s)]
    (moves : List M) (h : (x.run? moves s).any fun r => decide (P r.1 r.2)) :
    ∃ t s', x.Run s t s' ∧ P t s' := by
  obtain ⟨⟨t, s'⟩, ran, holds⟩ := (Option.any_eq_true _ _).1 h
  exact ⟨t, s', of_run? ran, of_decide_eq_true holds⟩

theorem cons (m : M) (allowed : x.allows s m) (h : x.Run (x.episode m s).after t s') :
    x.Run s (x.episode m s :: t) s' :=
  (single m allowed).trans h

theorem eq_of_nil (h : x.Run s [] s') : s' = s := by
  generalize ht : [] = t at h
  cases h with
  | start => rfl
  | next => simp at ht

theorem uncons {e : Episode S M A E} (h : x.Run s (e :: t) s') :
    x.allows s e.move ∧ e = x.episode e.move s ∧ x.Run e.after t s' := by
  have cut : x.Run s ([] ++ e :: t) s' := h
  obtain ⟨first, allowed, same, later⟩ := cut.split
  rw [first.eq_of_nil] at allowed same
  exact ⟨allowed, same, later⟩

theorem onward {before after : List (Episode S M A E)} {e : Episode S M A E}
    (h : x.Run s (before ++ e :: after) s') : x.Run e.before (e :: after) s' := by
  obtain ⟨-, allowed, same, later⟩ := h.split
  rw [same] at later ⊢
  exact cons e.move allowed later

theorem cut {before after : List (Episode S M A E)} (h : x.Run s (before ++ after) s') :
    ∃ s₁, x.Run s before s₁ ∧ x.Run s₁ after s' := by
  cases after with
  | nil => exact ⟨s', by simpa using h, .start⟩
  | cons e after =>
    exact ⟨e.before, h.split.1, h.onward⟩

theorem unique {u : List (Episode S M A E)} (h : x.Run s t s') (h' : x.Run s u s'')
    (same : t.map (·.move) = u.map (·.move)) : t = u ∧ s' = s'' := by
  induction t generalizing s u with
  | nil =>
    obtain rfl : u = [] := List.map_eq_nil_iff.1 same.symm
    rw [h.eq_of_nil, h'.eq_of_nil]
    exact ⟨rfl, rfl⟩
  | cons e t ih =>
    cases u with
    | nil => cases same
    | cons f u =>
      obtain ⟨first, rest⟩ := List.cons.inj same
      obtain ⟨-, he, later⟩ := h.uncons
      obtain ⟨-, hf, later'⟩ := h'.uncons
      have one : e = f := he.trans ((congrArg (x.episode · s) first).trans hf.symm)
      subst one
      obtain ⟨rfl, ends⟩ := ih later later' rest
      exact ⟨rfl, ends⟩

theorem filter {keep : Episode S M A E → Bool} (h : x.Run s t s')
    (idle : ∀ e ∈ t, keep e = false → e.after = e.before) : x.Run s (t.filter keep) s' := by
  induction h with
  | start => exact .start
  | @next t s' m _ allowed ih =>
    have earlier := ih fun e he => idle e (by simp [he])
    rw [List.filter_append]
    cases kept : keep (x.episode m s') with
    | true => simpa [kept] using earlier.next m allowed
    | false =>
      rw [List.filter_cons_of_neg (by simp [kept]), List.filter_nil, List.append_nil,
        idle (x.episode m s') (by simp) kept]
      exact earlier

end Run

theorem calls_filter {keep : Episode S M A E → Bool}
    (quiet : ∀ e ∈ t, keep e = false → e.calls = []) :
    (t.filter keep).flatMap (·.calls) = t.flatMap (·.calls) := by
  induction t with
  | nil => rfl
  | cons e rest ih =>
    have later := ih fun f hf => quiet f (List.mem_cons_of_mem e hf)
    cases kept : keep e with
    | true => rw [List.filter_cons_of_pos kept, List.flatMap_cons, List.flatMap_cons, later]
    | false =>
      rw [List.filter_cons_of_neg (by simp [kept]), List.flatMap_cons, quiet e (by simp) kept,
        later, List.nil_append]

end Machine

end EmulatorHost
