import EmulatorHost.Lockstep.Script
import EmulatorHost.Proofs.Coordinator.History

namespace EmulatorHost.Coordinator

variable {κ σ η ω : Type}

def SetsSize (size : Size) (e : Entry κ σ η ω) : Prop := e.move = .setDrawableSize size

def SetsSomeSize (e : Entry κ σ η ω) : Prop := ∃ size, SetsSize size e

def ChangesSize (e : Entry κ σ η ω) : Prop := SetsSomeSize e ∧ e.answer = .changed true

def AcceptsSize (core : κ) (size : Size) (e : Entry κ σ η ω) : Prop :=
  .resized core size (.ok ()) ∈ e.calls

def AcceptsSomeSize (e : Entry κ σ η ω) : Prop := ∃ core size, AcceptsSize core size e

def PushesNothing (e : Entry κ σ η ω) : Prop :=
  ∀ core size answer, .resized core size answer ∉ e.calls

/-- What a pump does after this history: without a core nothing, else a push if and only if a
size is pending, of the size that was reported last, and then a frame. -/
def PumpsAsPending (before : List (Entry κ σ η ω)) (surface : σ) (e : Entry κ σ η ω) : Prop :=
  match e.before.1.core, e.before.1.drawable.pending with
  | none, _ => e.answer = .pumped none ∧ e.calls = [] ∧ e.after = e.before
  | some core, false =>
    ∃ render, e.answer = .pumped (some ⟨none, render⟩) ∧ e.calls = [.frame core surface render]
  | some core, true =>
    ∃ size push render, Since (SetsSize size) SetsSomeSize before ∧
      e.answer = .pumped (some ⟨some (push.map fun _ => size), render⟩) ∧
      e.calls = [.resized core size push, .frame core surface render]

theorem PushesNothing.not_accepts {e : Entry κ σ η ω} (h : PushesNothing e) :
    ¬ AcceptsSomeSize e := fun ⟨core, size, ha⟩ => h core size _ ha

def Operation.isAboutSizes : Operation κ σ → Bool
  | .setDrawableSize _ | .pumpOnce _ => true
  | _ => false

theorem episode_of_not_isAboutSizes (s : Surroundings κ σ η ω) {op : Operation κ σ}
    (h : ¬ op.isAboutSizes) (c : Coordinator κ) (w : ω) :
    ((machine s).episode op (c, w)).after.1.drawable = c.drawable ∧
      PushesNothing ((machine s).episode op (c, w)) := by
  cases op with
  | setDrawableSize size => simp [Operation.isAboutSizes] at h
  | pumpOnce surface => simp [Operation.isAboutSizes] at h
  | requestLoad path =>
    cases hs : c.stopped with
    | true => simp [episode_requestLoad_of_stopped s hs, PushesNothing]
    | false =>
      cases hc : c.core with
      | none => simp [episode_requestLoad_of_absent s hs hc, PushesNothing]
      | some core => simp [episode_requestLoad_of_present s hs hc rfl, PushesNothing]
  | install core =>
    cases hp : c.parkedRom with
    | none => simp [episode_install_of_none s hp, PushesNothing]
    | some path => simp [episode_install_of_parked s hp rfl, PushesNothing]
  | takeCore => simp [episode_takeCore, PushesNothing, takeCore]
  | inspect => simp [episode_inspect, PushesNothing]

theorem pushesNothing_of_ne_pumpOnce (s : Surroundings κ σ η ω) {op : Operation κ σ}
    (h : ∀ surface, op ≠ .pumpOnce surface) (x : Coordinator κ × ω) :
    PushesNothing ((machine s).episode op x) := by
  by_cases hop : op.isAboutSizes
  · cases op with
    | setDrawableSize size => exact fun _ _ _ => List.not_mem_nil
    | pumpOnce surface => exact absurd rfl (h surface)
    | _ => simp [Operation.isAboutSizes] at hop
  · exact (episode_of_not_isAboutSizes s hop x.1 x.2).2

structure Told (t : List (Entry κ σ η ω)) (c : Coordinator κ) : Prop where
  pending_iff : c.drawable.pending = true ↔ Since ChangesSize AcceptsSomeSize t
  latest : Since (SetsSize c.drawable.size) SetsSomeSize t ∨
    c.drawable.size = Size.zero ∧ ∀ e ∈ t, ¬ SetsSomeSize e
  told : c.drawable.pending = false →
    (∃ core ∈ installed t, Since (AcceptsSize core c.drawable.size) AcceptsSomeSize t) ∨
      c.drawable.size = Size.zero ∧ ∀ e ∈ t, ¬ ChangesSize e ∧ PushesNothing e

namespace Told

variable {s : Surroundings κ σ η ω} {t : List (Entry κ σ η ω)} {c : Coordinator κ} {w : ω}

theorem start : Told ([] : List (Entry κ σ η ω)) {} where
  pending_iff := by simp
  latest := by simp
  told := by simp

theorem latest_of_pending (h : Told t c) (hd : c.drawable.pending = true) :
    Since (SetsSize c.drawable.size) SetsSomeSize t := by
  refine h.latest.resolve_right fun ⟨_, hn⟩ => ?_
  obtain ⟨e, he, hs⟩ := (h.pending_iff.1 hd).mem
  exact hn e he hs.1

theorem quiet {e : Entry κ σ η ω} (h : Told t e.before.1)
    (same : e.after.1.drawable = e.before.1.drawable)
    (set : SetsSize e.before.1.drawable.size e ∨ ¬ SetsSomeSize e) (unchanged : ¬ ChangesSize e)
    (silent : PushesNothing e) :
    Told (t ++ [e]) e.after.1 where
  pending_iff := by
    rw [same, h.pending_iff, Since.concat_of_not unchanged silent.not_accepts]
  latest := by
    rw [same, Since.concat_iff]
    rcases set with hs | hs
    · exact .inl (.inl hs)
    · refine h.latest.imp (fun hl => .inr ⟨hl, hs⟩) fun ⟨hz, hn⟩ => ⟨hz, ?_⟩
      simpa [or_imp, forall_and] using ⟨hn, hs⟩
  told := by
    rw [same]
    intro hd
    rcases h.told hd with ⟨core, hm, ha⟩ | ⟨hz, hn⟩
    · refine .inl ⟨core, by simp [hm], Since.concat_iff.2 (.inr ⟨ha, silent.not_accepts⟩)⟩
    · refine .inr ⟨hz, fun f hf => ?_⟩
      rcases List.mem_append.1 hf with hf | hf
      · exact hn f hf
      · obtain rfl := List.mem_singleton.1 hf
        exact ⟨unchanged, silent⟩

theorem next_setDrawableSize (h : Told t c) (size : Size) :
    Told (t ++ [(machine s).episode (.setDrawableSize size) (c, w)])
      ((machine s).episode (.setDrawableSize size) (c, w)).after.1 := by
  rw [episode_setDrawableSize]
  by_cases hs : c.drawable.size = size
  · have unchanged : c.drawable.set size = (false, c.drawable) := by simp [Drawable.set, hs]
    rw [unchanged]
    exact h.quiet rfl (.inl (by simp [SetsSize, hs])) (by simp [ChangesSize])
      (by simp [PushesNothing])
  · have changed : c.drawable.set size = (true, ⟨size, true⟩) := by simp [Drawable.set, hs]
    rw [changed]
    refine ⟨?_, .inl ?_, nofun⟩
    · exact iff_of_true rfl (Since.concat_iff.2 (.inl ⟨⟨size, rfl⟩, rfl⟩))
    · exact Since.concat_iff.2 (.inl rfl)

theorem next_pumpOnce (h : Told t c) (hi : ∀ core, c.core = some core → core ∈ installed t)
    (surface : σ) :
    Told (t ++ [(machine s).episode (.pumpOnce surface) (c, w)])
      ((machine s).episode (.pumpOnce surface) (c, w)).after.1 := by
  have unset : ∀ answer calls after,
      ¬ SetsSomeSize (⟨(c, w), .pumpOnce surface, answer, calls, after⟩ : Entry κ σ η ω) := by
    simp [SetsSomeSize, SetsSize]
  cases hc : c.core with
  | none =>
    rw [episode_pumpOnce_of_absent s hc]
    exact h.quiet rfl (.inr (unset _ _ _)) (fun hs => unset _ _ _ hs.1) (by simp [PushesNothing])
  | some core =>
    cases hd : c.drawable.pending with
    | false =>
      rw [episode_pumpOnce_of_told s hc hd rfl]
      exact h.quiet rfl (.inr (unset _ _ _)) (fun hs => unset _ _ _ hs.1) (by simp [PushesNothing])
    | true =>
      rcases hp : s.setOutputSize core c.drawable.size w with ⟨push, w₁⟩
      rw [episode_pumpOnce_of_pending s hc hd hp rfl]
      have since := h.pending_iff.1 hd
      have latest := h.latest_of_pending hd
      refine ⟨?_, .inl ?_, fun hd => .inl ⟨core, ?_, ?_⟩⟩
      · -- pending is what is refused
        rw [Since.concat_iff]
        cases push <;>
          simp [ChangesSize, unset, since, AcceptsSomeSize, AcceptsSize, CoreOutcome.accepted]
      · exact (Since.concat_of_not (fun hs => unset _ _ _ ⟨_, hs⟩) (unset _ _ _)).2 latest
      · simp [hi core hc]
      · cases push with
        | ok u => exact Since.concat_iff.2 (.inl (by simp [AcceptsSize]))
        | error e => simp [CoreOutcome.accepted] at hd

theorem next (h : Told t c) (hi : ∀ core, c.core = some core → core ∈ installed t)
    (op : Operation κ σ) :
    Told (t ++ [(machine s).episode op (c, w)]) ((machine s).episode op (c, w)).after.1 := by
  by_cases hop : op.isAboutSizes
  · cases op with
    | setDrawableSize size => exact h.next_setDrawableSize size
    | pumpOnce surface => exact h.next_pumpOnce hi surface
    | _ => simp [Operation.isAboutSizes] at hop
  · have unset : ¬ SetsSomeSize ((machine s).episode op (c, w)) := by
      rintro ⟨size, rfl : op = _⟩
      simp [Operation.isAboutSizes] at hop
    obtain ⟨same, silent⟩ := episode_of_not_isAboutSizes s hop c w
    exact h.quiet same (.inr unset) (fun hs => unset hs.1) silent

theorem of_run {x : Coordinator κ × ω} (h : (machine s).Run ({}, w) t x) : Told t x.1 := by
  induction h with
  | start => exact start
  | next op run _ ih => exact ih.next (fun _ => core_mem_installed run) op

theorem pumpsAsPending (h : Told t c) (surface : σ) :
    PumpsAsPending t surface ((machine s).episode (.pumpOnce surface) (c, w)) := by
  cases hc : c.core with
  | none => simp [episode_pumpOnce_of_absent s hc, PumpsAsPending, hc]
  | some core =>
    cases hd : c.drawable.pending with
    | false =>
      rcases hr : s.runFrame core surface w with ⟨render, w'⟩
      simp [episode_pumpOnce_of_told s hc hd hr, PumpsAsPending, hc, hd]
    | true =>
      rcases hp : s.setOutputSize core c.drawable.size w with ⟨push, w₁⟩
      rcases hr : s.runFrame core surface w₁ with ⟨render, w'⟩
      simp only [episode_pumpOnce_of_pending s hc hd hp hr, PumpsAsPending, hc, hd]
      exact ⟨c.drawable.size, push, render, h.latest_of_pending hd, rfl, rfl⟩

end Told

/-- The law of resizes, for every run from a new coordinator and all that cores may answer. With
one core, what is not pending has been accepted, or there was never anything to tell. -/
theorem sizes_pushed_exactly_when_pending {s : Surroundings κ σ η ω} {w w' : ω}
    {t : List (Entry κ σ η ω)} {c : Coordinator κ} (run : (machine s).Run ({}, w) t (c, w')) :
    (c.drawable.pending = true ↔ Since ChangesSize AcceptsSomeSize t) ∧
    (∀ before e after, t = before ++ e :: after →
      (∀ surface, e.move = .pumpOnce surface → PumpsAsPending before surface e) ∧
        ((∀ surface, e.move ≠ .pumpOnce surface) → PushesNothing e)) ∧
    (∀ core, installed t = [core] → c.drawable.pending = false →
      Since (AcceptsSize core c.drawable.size) AcceptsSomeSize t ∨
        c.drawable.size = Size.zero ∧ ∀ e ∈ t, ¬ ChangesSize e ∧ PushesNothing e) := by
  have told := Told.of_run run
  refine ⟨told.pending_iff, ?_, fun core only hd => ?_⟩
  · rintro before e after rfl
    obtain ⟨earlier, -, same, -⟩ := run.split
    refine ⟨fun surface hm => ?_, fun hm => ?_⟩
    · rw [same, hm]
      exact (Told.of_run earlier).pumpsAsPending surface
    · rw [same]
      exact pushesNothing_of_ne_pumpOnce s hm _
  · refine (told.told hd).imp_left fun ⟨k, hk, ha⟩ => ?_
    obtain rfl : k = core := by simpa [only] using hk
    exact ha

open Lockstep in
theorem refused_size_pushed_again :
    ∃ t c w, (machine Script.surroundings).Run ({}, { rejectSizes := 1 }) t (c, w) ∧
      t.map (·.move) = [.setDrawableSize ⟨640, 480⟩, .install 1, .pumpOnce 7, .pumpOnce 7] ∧
      Since (AcceptsSize 1 ⟨640, 480⟩) AcceptsSomeSize t := by
  obtain ⟨t, c, w, ran, moves, only, drawable⟩ :
      ∃ t c w, (machine Script.surroundings).run?
          [.setDrawableSize ⟨640, 480⟩, .install 1, .pumpOnce 7, .pumpOnce 7]
          ({}, { rejectSizes := 1 }) = some (t, c, w) ∧
        t.map (·.move) = [.setDrawableSize ⟨640, 480⟩, .install 1, .pumpOnce 7, .pumpOnce 7] ∧
        installed t = [1] ∧ c.drawable = ⟨⟨640, 480⟩, false⟩ :=
    ⟨_, _, _, rfl, rfl, rfl, rfl⟩
  have run := Machine.Run.of_run? ran
  have told := (sizes_pushed_exactly_when_pending run).2.2 1 only (by rw [drawable])
  rw [drawable] at told
  exact ⟨t, c, w, run, moves, told.resolve_right fun h => absurd h.1 (by decide)⟩

end EmulatorHost.Coordinator
