import EmulatorHost.Proofs.Coordinator.Resizes
import EmulatorHost.Proofs.Drawable
import EmulatorHost.Proofs.Foreign.Isolation

namespace EmulatorHost

namespace Coordinator

variable {κ σ η ω : Type} {s : Surroundings κ σ η ω} {t : List (Entry κ σ η ω)}
  {c : Coordinator κ} {core : κ} {size : Size} {w w' : ω} {surface : σ}

def Pushes (core : κ) (size : Size) (surface : σ) (e : Entry κ σ η ω) : Prop :=
  ∃ push render, e.calls = [.resized core size push, .frame core surface render]

def OnlyRenders (core : κ) (surface : σ) (e : Entry κ σ η ω) : Prop :=
  ∃ render, e.calls = [.frame core surface render]

def pumpAfterSize (s : Surroundings κ σ η ω) (size : Size) (surface : σ) (c : Coordinator κ)
    (w : ω) : Entry κ σ η ω :=
  (machine s).episode (.pumpOnce surface) ((c.setDrawableSize size).2, w)

theorem pushes_of_pending (hc : c.core = some core) (hd : c.drawable.pending = true) (surface : σ) :
    Pushes core c.drawable.size surface ((machine s).episode (.pumpOnce surface) (c, w)) := by
  rw [episode_pumpOnce_of_pending s hc hd rfl rfl]
  exact ⟨_, _, rfl⟩

theorem onlyRenders_of_told (hc : c.core = some core) (hd : c.drawable.pending = false)
    (surface : σ) : OnlyRenders core surface ((machine s).episode (.pumpOnce surface) (c, w)) := by
  rw [episode_pumpOnce_of_told s hc hd rfl]
  exact ⟨_, rfl⟩

theorem OnlyRenders.not_pushes {e : Entry κ σ η ω} (h : OnlyRenders core surface e) :
    ¬ Pushes core size surface e := by
  obtain ⟨render, calls⟩ := h
  rintro ⟨push, render', calls'⟩
  cases calls.symm.trans calls'

theorem pushes_iff (hc : c.core = some core) (surface : σ) :
    Pushes core c.drawable.size surface ((machine s).episode (.pumpOnce surface) (c, w)) ↔
      c.drawable.pending = true := by
  refine ⟨fun pushes => ?_, fun hd => pushes_of_pending hc hd surface⟩
  cases hd : c.drawable.pending with
  | true => rfl
  | false => exact absurd pushes (onlyRenders_of_told hc hd surface).not_pushes

theorem onlyRenders_iff (hc : c.core = some core) (surface : σ) :
    OnlyRenders core surface ((machine s).episode (.pumpOnce surface) (c, w)) ↔
      c.drawable.pending = false := by
  refine ⟨fun renders => ?_, fun hd => onlyRenders_of_told hc hd surface⟩
  cases hd : c.drawable.pending with
  | false => rfl
  | true => exact absurd (pushes_of_pending hc hd surface) renders.not_pushes

theorem size_setDrawableSize (size : Size) (c : Coordinator κ) :
    (c.setDrawableSize size).2.drawable.size = size :=
  congrArg Drawable.size (Drawable.after_set size c.drawable)

theorem Told.size_eq_iff (h : Told t c) (visible : size.isVisible = true) :
    c.drawable.size = size ↔ Since (SetsSize size) SetsSomeSize t := by
  constructor
  · rintro rfl
    refine h.latest.resolve_right fun ⟨zero, _⟩ => ?_
    rw [zero] at visible
    cases visible
  · intro since
    rcases h.latest with latest | ⟨-, never⟩
    · obtain ⟨e, -, sets, sets'⟩ :=
        latest.exists_both since (fun _ sets => ⟨_, sets⟩) fun _ sets => ⟨_, sets⟩
      cases sets.symm.trans sets'
      rfl
    · obtain ⟨e, he, sets⟩ := since.mem
      exact absurd ⟨_, sets⟩ (never e he)

end Coordinator

namespace Foreign.Shell

variable {ω : Type} {sh : Shell} {session : Session} {size : Size}

theorem setDrawableSize_of_current? (hs : sh.current? = some session)
    (visible : size.isVisible = true) (h : HostProgram ω) (w : ω) :
    (sh.setDrawableSize h size w).1 = (session.pump.coordinator.setDrawableSize size).1 ∧
      (sh.setDrawableSize h size w).2.1.current?.map (·.pump.coordinator) =
        some (session.pump.coordinator.setDrawableSize size).2 := by
  obtain ⟨i, slot, there⟩ := slot_of_current? hs
  obtain ⟨bound, rfl⟩ := List.getElem?_eq_some_iff.1 there
  simp [setDrawableSize, callCurrent, slot, act, Pump.perform, Pump.setDrawableSize, visible,
    current?, session?, bound]

end Foreign.Shell

namespace Coordinator

/-- A size that is answered with yes is another one than the last, and the core is told it before
its next frame. One that is answered with no is told before the next frame if and only if it was
pending already. The host gets the answer of the coordinator, whichever way it reports the size. -/
theorem new_sizes_foretold {κ σ η ω : Type} {s : Surroundings κ σ η ω} {w w' : ω}
    {t : List (Entry κ σ η ω)} {c : Coordinator κ} {core : κ} {size : Size}
    (run : (machine s).Run ({}, w) t (c, w')) (present : c.core = some core)
    (visible : size.isVisible = true) :
    ((c.setDrawableSize size).1 = true ↔ ¬ Since (SetsSize size) SetsSomeSize t) ∧
    (∀ surface,
      (Pushes core size surface (pumpAfterSize s size surface c w') ↔
        (c.setDrawableSize size).1 = true ∨ Since ChangesSize AcceptsSomeSize t) ∧
      (OnlyRenders core surface (pumpAfterSize s size surface c w') ↔
        (c.setDrawableSize size).1 = false ∧ ¬ Since ChangesSize AcceptsSomeSize t)) ∧
    (∀ p : Pump κ σ η, p.coordinator = c → p.setDrawableSize size =
      (.ok (c.setDrawableSize size).1, { p with coordinator := (c.setDrawableSize size).2 })) ∧
    ∀ (ω : Type) (h : Foreign.HostProgram ω) (sh : Foreign.Shell) (session : Foreign.Session)
      (w : ω), sh.current? = some session →
        (sh.setDrawableSize h size w).1 = (session.pump.coordinator.setDrawableSize size).1 ∧
          (sh.setDrawableSize h size w).2.1.current?.map (·.pump.coordinator) =
            some (session.pump.coordinator.setDrawableSize size).2 := by
  have told := Told.of_run run
  have answer : (c.setDrawableSize size).1 = decide (c.drawable.size ≠ size) :=
    Drawable.changed_set size c.drawable
  refine ⟨?_, fun surface => ?_, ?_, fun ω h sh session w hs =>
    Foreign.Shell.setDrawableSize_of_current? hs visible h w⟩
  · rw [answer, decide_eq_true_iff, ← told.size_eq_iff visible]
  · have after : (c.setDrawableSize size).2.core = some core := present
    have pending : (c.setDrawableSize size).2.drawable.pending = true ↔
        (c.setDrawableSize size).1 = true ∨ Since ChangesSize AcceptsSomeSize t := by
      have kept : (c.setDrawableSize size).2.drawable = ⟨size, _⟩ :=
        Drawable.after_set size c.drawable
      rw [kept, Bool.or_eq_true, ← answer, told.pending_iff, or_comm]
    have pushes := pushes_iff (s := s) (w := w') after surface
    rw [size_setDrawableSize] at pushes
    have renders := onlyRenders_iff (s := s) (w := w') after surface
    rw [← Bool.not_eq_true, pending, not_or, Bool.not_eq_true] at renders
    exact ⟨pushes.trans pending, renders⟩
  · rintro p rfl
    simp [Pump.setDrawableSize, visible]

open Lockstep in
theorem repeated_size_not_foretold :
    ∃ t c w, (machine Script.surroundings).Run ({}, {}) t (c, w) ∧
      t.map (·.move) = [.install 1, .setDrawableSize ⟨8, 6⟩] ∧ c.core = some 1 ∧
      (c.setDrawableSize ⟨8, 6⟩).1 = false ∧ Since (SetsSize ⟨8, 6⟩) SetsSomeSize t ∧
      Pushes 1 ⟨8, 6⟩ 7 (pumpAfterSize Script.surroundings ⟨8, 6⟩ 7 c w) := by
  obtain ⟨t, c, w, ran, moves, present, answer, pending⟩ :
      ∃ t c w, (machine Script.surroundings).run? [.install 1, .setDrawableSize ⟨8, 6⟩] ({}, {}) =
          some (t, c, w) ∧
        t.map (·.move) = [.install 1, .setDrawableSize ⟨8, 6⟩] ∧ c.core = some 1 ∧
        (c.setDrawableSize ⟨8, 6⟩).1 = false ∧ c.drawable.pending = true :=
    ⟨_, _, _, rfl, rfl, rfl, rfl, rfl⟩
  have run := Machine.Run.of_run? ran
  have visible : (⟨8, 6⟩ : Size).isVisible = true := rfl
  obtain ⟨last, next, -, -⟩ := new_sizes_foretold run present visible
  rw [answer] at last
  refine ⟨t, c, w, run, moves, present, answer, Classical.not_not.1 fun other => ?_,
    (next 7).1.2 (.inr ((Told.of_run run).pending_iff.1 pending))⟩
  cases last.2 other

theorem unforetold_of_run? {κ σ η ω : Type} {s : Surroundings κ σ η ω} {core : κ} {size : Size}
    {moves : List (Operation κ σ)} {x : Coordinator κ × ω} (surface : σ)
    (ran : ∃ t c w, (machine s).run? moves x = some (t, c, w) ∧ c.core = some core ∧
      (c.setDrawableSize size).1 = false ∧ (c.setDrawableSize size).2.drawable.pending = true) :
    ∃ t c w, (machine s).Run x t (c, w) ∧ t.map (·.move) = moves ∧ c.core = some core ∧
      ¬ ((c.setDrawableSize size).1 = true ↔
        Pushes core size surface (pumpAfterSize s size surface c w)) := by
  obtain ⟨t, c, w, ran, present, answer, pending⟩ := ran
  have after : (c.setDrawableSize size).2.core = some core := present
  have pushes := pushes_of_pending (s := s) (w := w) after pending surface
  rw [size_setDrawableSize] at pushes
  refine ⟨t, c, w, .of_run? ran, Machine.Run.moves_of_run? ran, present, fun foretold => ?_⟩
  cases answer.symm.trans (foretold.2 pushes)

open Lockstep in
/-- The answer is no and the push follows: when the size is set twice before a pump, and when the
core has refused it once and the host sets it again. -/
theorem pending_size_not_foretold :
    (∃ t c w, (machine Script.surroundings).Run ({}, {}) t (c, w) ∧
      t.map (·.move) = [.install 1, .setDrawableSize ⟨8, 6⟩] ∧ c.core = some 1 ∧
      ¬ ((c.setDrawableSize ⟨8, 6⟩).1 = true ↔
        Pushes 1 ⟨8, 6⟩ 7 (pumpAfterSize Script.surroundings ⟨8, 6⟩ 7 c w))) ∧
    ∃ t c w, (machine Script.surroundings).Run ({}, { rejectSizes := 1 }) t (c, w) ∧
      t.map (·.move) = [.install 1, .setDrawableSize ⟨8, 6⟩, .pumpOnce 7] ∧ c.core = some 1 ∧
      ¬ ((c.setDrawableSize ⟨8, 6⟩).1 = true ↔
        Pushes 1 ⟨8, 6⟩ 7 (pumpAfterSize Script.surroundings ⟨8, 6⟩ 7 c w)) :=
  ⟨unforetold_of_run? 7 ⟨_, _, _, rfl, rfl, rfl, rfl⟩,
    unforetold_of_run? 7 ⟨_, _, _, rfl, rfl, rfl, rfl⟩⟩

end Coordinator

end EmulatorHost
