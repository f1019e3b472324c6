import EmulatorHost.Lockstep.Script
import EmulatorHost.Proofs.Calls
import EmulatorHost.Proofs.Coordinator.History

namespace EmulatorHost.Coordinator

variable {κ σ η ω : Type}

def Parks (path : Path) (e : Entry κ σ η ω) : Prop :=
  e.move = .requestLoad path ∧ e.answer = .picked (.ok .deferred)

def TearsDown (e : Entry κ σ η ω) : Prop := e.move = .takeCore

def Unparks (e : Entry κ σ η ω) : Prop :=
  (∃ path, Parks path e) ∨ (∃ core, e.move = .install core) ∨ TearsDown e

def Loads (outcome : CoreOutcome) (e : Entry κ σ η ω) : Prop :=
  ∃ core path, .loaded core path outcome ∈ e.calls

def LoadsSome (e : Entry κ σ η ω) : Prop := ∃ outcome, Loads outcome e

def pickedPath? (e : Entry κ σ η ω) : Option Path :=
  match e.move with
  | .requestLoad path => some path
  | _ => none

def loadedPaths (e : Entry κ σ η ω) : List Path := e.calls.filterMap Activity.loadedPath?

theorem not_loadsSome_iff {e : Entry κ σ η ω} : ¬ LoadsSome e ↔ loadedPaths e = [] := by
  simp only [LoadsSome, Loads, loadedPaths, List.filterMap_eq_nil_iff, not_exists]
  constructor
  · intro h call hc
    cases call <;> simp [Activity.loadedPath?]
    exact h _ _ _ hc
  · intro h outcome core path hm
    simpa [Activity.loadedPath?] using h _ hm

/-- What an operation does about ROMs after this history. -/
def LoadsAsPicked (before : List (Entry κ σ η ω)) (e : Entry κ σ η ω) : Prop :=
  match e.move with
  | .requestLoad path =>
    (∃ f ∈ before, TearsDown f) ∧ e.answer = .picked (.error .stopped) ∧ e.calls = [] ∨
    (∀ f ∈ before, ¬ TearsDown f) ∧
      match e.before.1.core with
      | none => e.answer = .picked (.ok .deferred) ∧ e.calls = []
      | some core =>
        ∃ outcome, e.answer = .picked (loadAnswer path outcome) ∧
          e.calls = [.loaded core path outcome]
  | .install core =>
    (∃ path outcome, Since (Parks path) Unparks before ∧
      e.answer = .installed (some ⟨path, outcome⟩) ∧ e.calls = [.loaded core path outcome]) ∨
    (∀ path, ¬ Since (Parks path) Unparks before) ∧ e.answer = .installed none ∧ ¬ LoadsSome e
  | _ => ¬ LoadsSome e

structure Kept (t : List (Entry κ σ η ω)) (c : Coordinator κ) : Prop where
  stopped_iff : c.stopped = true ↔ ∃ e ∈ t, TearsDown e
  parked_iff : ∀ path, c.parkedRom = some path ↔ Since (Parks path) Unparks t
  parked_only : c.parkedRom ≠ none → c.core = none ∧ c.stopped = false
  loaded_iff : c.romLoaded = true ↔ c.stopped = false ∧ Since (Loads (.ok ())) LoadsSome t
  in_order : (t.flatMap loadedPaths ++ c.parkedRom.toList).Sublist (t.filterMap pickedPath?)

namespace Kept

variable {s : Surroundings κ σ η ω} {t : List (Entry κ σ η ω)} {c : Coordinator κ} {w : ω}

theorem start : Kept ([] : List (Entry κ σ η ω)) {} := by constructor <;> simp

theorem quiet {e : Entry κ σ η ω} (h : Kept t e.before.1)
    (core : e.after.1.core = e.before.1.core) (parked : e.after.1.parkedRom = e.before.1.parkedRom)
    (loaded : e.after.1.romLoaded = e.before.1.romLoaded)
    (stopped : e.after.1.stopped = e.before.1.stopped) (holds : ¬ Unparks e)
    (silent : loadedPaths e = []) : Kept (t ++ [e]) e.after.1 where
  stopped_iff := by
    have ht : ¬ TearsDown e := fun ht => holds (.inr (.inr ht))
    simpa [stopped, ht, or_and_right, exists_or] using h.stopped_iff
  parked_iff path := by
    rw [parked, h.parked_iff, Since.concat_of_not (fun hp => holds (.inl ⟨path, hp⟩)) holds]
  parked_only := by
    rw [parked, core, stopped]
    exact h.parked_only
  loaded_iff := by
    have hl : ¬ LoadsSome e := not_loadsSome_iff.2 silent
    rw [loaded, stopped, h.loaded_iff, Since.concat_of_not (fun ha => hl ⟨_, ha⟩) hl]
  in_order := by
    rw [parked]
    simpa [silent] using h.in_order.trans (List.sublist_append_left ..)

theorem parked_eq_none (h : Kept t c) {core : κ} (hc : c.core = some core) :
    c.parkedRom = none := by
  cases hp : c.parkedRom with
  | none => rfl
  | some path => simp [(h.parked_only (by simp [hp])).1] at hc

theorem loaded_in_order (h : Kept t c) :
    (t.flatMap loadedPaths).Sublist (t.filterMap pickedPath?) :=
  (List.sublist_append_left ..).trans h.in_order

theorem next_requestLoad (h : Kept t c) (path : Path) :
    Kept (t ++ [(machine s).episode (.requestLoad path) (c, w)])
      ((machine s).episode (.requestLoad path) (c, w)).after.1 := by
  cases hs : c.stopped with
  | true =>
    rw [episode_requestLoad_of_stopped s hs]
    exact h.quiet rfl rfl rfl rfl (by simp [Unparks, Parks, TearsDown]) rfl
  | false =>
    have standing : ¬ ∃ e ∈ t, TearsDown e := fun ht => by simp [h.stopped_iff.2 ht] at hs
    cases hc : c.core with
    | none =>
      rw [episode_requestLoad_of_absent s hs hc]
      constructor
      · simpa [TearsDown, hs] using standing
      · simp [Since.concat_iff, Parks, Unparks]
      · simp [hc, hs]
      · rw [Since.concat_of_not (by simp [Loads]) (by simp [LoadsSome, Loads])]
        exact h.loaded_iff
      · simpa [loadedPaths, pickedPath?] using h.loaded_in_order.append_right [path]
    | some core =>
      have hp := h.parked_eq_none hc
      rcases hl : s.loadRom core path w with ⟨outcome, w'⟩
      rw [episode_requestLoad_of_present s hs hc hl]
      have holds : ∀ after, ¬ Unparks (⟨(c, w), .requestLoad path,
          .picked (loadAnswer path outcome), [.loaded core path outcome], after⟩ :
            Entry κ σ η ω) := by
        cases outcome <;> simp [Unparks, Parks, TearsDown, loadAnswer]
      constructor
      · simpa [TearsDown, hs] using standing
      · intro p
        rw [Since.concat_of_not (fun hp => holds _ (.inl ⟨p, hp⟩)) (holds _)]
        exact h.parked_iff p
      · simp [hp]
      · simpa [Since.concat_iff, Loads, LoadsSome, hs, CoreOutcome.accepted_iff] using eq_comm
      · simpa [loadedPaths, pickedPath?, Activity.loadedPath?, hp] using
          h.loaded_in_order.append_right [path]

theorem next_install (h : Kept t c) (core : κ) :
    Kept (t ++ [(machine s).episode (.install core) (c, w)])
      ((machine s).episode (.install core) (c, w)).after.1 := by
  cases hp : c.parkedRom with
  | none =>
    rw [episode_install_of_none s hp]
    constructor
    · simpa [TearsDown] using h.stopped_iff
    · simp [Since.concat_iff, Parks, Unparks, hp]
    · simp [hp]
    · rw [Since.concat_of_not (by simp [Loads]) (by simp [LoadsSome, Loads])]
      exact h.loaded_iff
    · simpa [loadedPaths, List.filterMap_cons, pickedPath?, hp] using h.loaded_in_order
  | some path =>
    -- what is parked found no core, so that none is dropped
    obtain ⟨hc, hs⟩ := h.parked_only (by simp [hp])
    rcases hl : s.loadRom core path (c.discardCore s.toCores w) with ⟨outcome, w'⟩
    rw [episode_install_of_parked s hp hl]
    constructor
    · simpa [TearsDown] using h.stopped_iff
    · simp [Since.concat_iff, Parks, Unparks]
    · simp
    · simpa [Since.concat_iff, Loads, LoadsSome, hs, hc, CoreOutcome.accepted_iff] using eq_comm
    · simpa [loadedPaths, List.filterMap_cons, pickedPath?, Activity.loadedPath?, hp, hc]
        using h.in_order

theorem next_takeCore (h : Kept t c) :
    Kept (t ++ [(machine s).episode .takeCore (c, w)])
      ((machine s).episode .takeCore (c, w)).after.1 := by
  rw [episode_takeCore]
  constructor
  · simp [TearsDown, takeCore]
  · simp [Since.concat_iff, Parks, Unparks, TearsDown, takeCore]
  · simp [takeCore]
  · simp [takeCore]
  · simpa [loadedPaths, List.filterMap_cons, pickedPath?, takeCore] using h.loaded_in_order

theorem next (h : Kept t c) (op : Operation κ σ) :
    Kept (t ++ [(machine s).episode op (c, w)]) ((machine s).episode op (c, w)).after.1 := by
  cases op with
  | setDrawableSize size =>
    rw [episode_setDrawableSize]
    exact h.quiet rfl rfl rfl rfl (by simp [Unparks, Parks, TearsDown]) rfl
  | requestLoad path => exact h.next_requestLoad path
  | install core => exact h.next_install core
  | pumpOnce surface =>
    cases hc : c.core with
    | none =>
      rw [episode_pumpOnce_of_absent s hc]
      exact h.quiet rfl rfl rfl rfl (by simp [Unparks, Parks, TearsDown]) rfl
    | some core =>
      cases hd : c.drawable.pending with
      | false =>
        rw [episode_pumpOnce_of_told s hc hd rfl]
        exact h.quiet rfl rfl rfl rfl (by simp [Unparks, Parks, TearsDown]) rfl
      | true =>
        rw [episode_pumpOnce_of_pending s hc hd rfl rfl]
        exact h.quiet rfl rfl rfl rfl (by simp [Unparks, Parks, TearsDown]) rfl
  | takeCore => exact h.next_takeCore
  | inspect =>
    rw [episode_inspect]
    exact h.quiet rfl rfl rfl rfl (by simp [Unparks, Parks, TearsDown]) rfl

theorem of_run {x : Coordinator κ × ω} (h : (machine s).Run ({}, w) t x) : Kept t x.1 := by
  induction h with
  | start => exact start
  | next op _ _ ih => exact ih.next op

theorem loadsAsPicked (h : Kept t c) (op : Operation κ σ) :
    LoadsAsPicked t ((machine s).episode op (c, w)) := by
  cases op with
  | setDrawableSize size => simp [episode_setDrawableSize, LoadsAsPicked, LoadsSome, Loads]
  | requestLoad path =>
    cases hs : c.stopped with
    | true =>
      rw [episode_requestLoad_of_stopped s hs]
      exact .inl ⟨h.stopped_iff.1 hs, rfl, rfl⟩
    | false =>
      have standing : ∀ e ∈ t, ¬ TearsDown e := fun e he ht => by
        simp [h.stopped_iff.2 ⟨e, he, ht⟩] at hs
      cases hc : c.core with
      | none =>
        rw [episode_requestLoad_of_absent s hs hc]
        exact .inr ⟨standing, by simp [hc]⟩
      | some core =>
        rw [episode_requestLoad_of_present s hs hc rfl]
        exact .inr ⟨standing, by simp [hc]⟩
  | install core =>
    cases hp : c.parkedRom with
    | none =>
      rw [episode_install_of_none s hp]
      refine .inr ⟨fun path hl => ?_, rfl, by simp [LoadsSome, Loads]⟩
      simp [(h.parked_iff path).2 hl] at hp
    | some path =>
      have hc := (h.parked_only (by simp [hp])).1
      rw [episode_install_of_parked s hp rfl]
      exact .inl ⟨path, _, (h.parked_iff path).1 hp, rfl, by simp [hc]⟩
  | pumpOnce surface =>
    cases hc : c.core with
    | none => simp [episode_pumpOnce_of_absent s hc, LoadsAsPicked, LoadsSome, Loads]
    | some core =>
      cases hd : c.drawable.pending with
      | false => simp [episode_pumpOnce_of_told s hc hd rfl, LoadsAsPicked, LoadsSome, Loads]
      | true => simp [episode_pumpOnce_of_pending s hc hd rfl rfl, LoadsAsPicked, LoadsSome, Loads]
  | takeCore => simp [episode_takeCore, LoadsAsPicked, LoadsSome, Loads]
  | inspect => simp [episode_inspect, LoadsAsPicked, LoadsSome, Loads]

theorem not_loaded (h : Kept t c) (torn : ∃ e ∈ t, TearsDown e) : c.romLoaded = false := by
  cases hl : c.romLoaded with
  | false => rfl
  | true =>
    have standing := (h.loaded_iff.1 hl).1
    simp [h.stopped_iff.2 torn] at standing

theorem refuses (h : Kept t c) (torn : ∃ e ∈ t, TearsDown e) (op : Operation κ σ) :
    ¬ LoadsSome ((machine s).episode op (c, w)) ∧
      ∀ path, op = .requestLoad path →
        ((machine s).episode op (c, w)).answer = .picked (.error .stopped) := by
  have law := h.loadsAsPicked (s := s) (w := w) op
  cases op with
  | requestLoad path =>
    rcases law with ⟨-, answer, calls⟩ | ⟨standing, -⟩
    · exact ⟨by simp [LoadsSome, Loads, calls], fun _ _ => answer⟩
    · obtain ⟨e, he, ht⟩ := torn
      exact absurd ht (standing e he)
  | install core =>
    rcases law with ⟨path, -, since, -⟩ | ⟨-, -, silent⟩
    · have standing := (h.parked_only (by simp [(h.parked_iff path).2 since])).2
      simp [h.stopped_iff.2 torn] at standing
    · exact ⟨silent, nofun⟩
  | setDrawableSize size => exact ⟨law, nofun⟩
  | pumpOnce surface => exact ⟨law, nofun⟩
  | takeCore => exact ⟨law, nofun⟩
  | inspect => exact ⟨law, nofun⟩

end Kept

/-- The law of ROMs, for every run from a new coordinator and all that cores may answer. -/
theorem roms_loaded_as_picked {s : Surroundings κ σ η ω} {w w' : ω} {t : List (Entry κ σ η ω)}
    {c : Coordinator κ} (run : (machine s).Run ({}, w) t (c, w')) :
    (∀ before e after, t = before ++ e :: after → LoadsAsPicked before e ∧
      ∀ core, e.move = .install core → core ∉ installed before → ∀ f ∈ before, ¬ Concerns core f) ∧
    (t.flatMap loadedPaths).Sublist (t.filterMap pickedPath?) ∧
    (∀ path, c.parkedRom = some path ↔ Since (Parks path) Unparks t) ∧
    (c.parkedRom ≠ none → c.core = none ∧ ∀ e ∈ t, ¬ TearsDown e) ∧
    (c.romLoaded = true ↔ (∀ e ∈ t, ¬ TearsDown e) ∧ Since (Loads (.ok ())) LoadsSome t) ∧
    (∀ before e after, t = before ++ e :: after → TearsDown e →
      c.romLoaded = false ∧ ∀ f ∈ after, ¬ LoadsSome f ∧ f.before.1.romLoaded = false ∧
        ∀ path, f.move = .requestLoad path → f.answer = .picked (.error .stopped)) := by
  have kept := Kept.of_run run
  have standing : c.stopped = false ↔ ∀ e ∈ t, ¬ TearsDown e := by
    rw [← Bool.not_eq_true, kept.stopped_iff]
    simp
  refine ⟨?_, kept.loaded_in_order, kept.parked_iff, ?_, ?_, ?_⟩
  · rintro before e after rfl
    obtain ⟨earlier, -, same, -⟩ := run.split
    refine ⟨?_, fun core _ new f hf hc => new (mem_installed_of_concerns earlier f hf hc)⟩
    rw [same]
    exact (Kept.of_run earlier).loadsAsPicked _
  · rw [← standing]
    exact kept.parked_only
  · rw [← standing]
    exact kept.loaded_iff
  · rintro before e after rfl torn
    refine ⟨kept.not_loaded ⟨e, by simp, torn⟩, fun f hf => ?_⟩
    obtain ⟨between, later, rfl⟩ := List.append_of_mem hf
    rw [← List.cons_append, ← List.append_assoc] at run
    obtain ⟨earlier, -, same, -⟩ := run.split
    have kept' := Kept.of_run earlier
    have torn' : ∃ f ∈ before ++ e :: between, TearsDown f := ⟨e, by simp, torn⟩
    have refused := kept'.refuses (s := s) (w := f.before.2) torn' f.move
    rw [← same] at refused
    exact ⟨refused.1, kept'.not_loaded torn', refused.2⟩

open Lockstep in
theorem parked_and_refused_roms :
    ∃ t c w, (machine Script.surroundings).Run ({}, {}) t (c, w) ∧
      t.map (·.move) = [.requestLoad ⟨[97]⟩, .requestLoad ⟨[98]⟩, .install 1, .takeCore,
        .requestLoad ⟨[99]⟩] ∧
      t.flatMap loadedPaths = [⟨[98]⟩] ∧ c.romLoaded = false := by
  obtain ⟨t, c, w, ran, moves, loads, e, split, torn⟩ :
      ∃ t c w, (machine Script.surroundings).run? [.requestLoad ⟨[97]⟩, .requestLoad ⟨[98]⟩,
          .install 1, .takeCore, .requestLoad ⟨[99]⟩] ({}, {}) = some (t, c, w) ∧
        t.map (·.move) = [.requestLoad ⟨[97]⟩, .requestLoad ⟨[98]⟩, .install 1, .takeCore,
          .requestLoad ⟨[99]⟩] ∧
        t.flatMap loadedPaths = [⟨[98]⟩] ∧
        ∃ e, t = t.take 3 ++ e :: t.drop 4 ∧ TearsDown e :=
    ⟨_, _, _, rfl, rfl, rfl, _, rfl, rfl⟩
  have run := Machine.Run.of_run? ran
  exact ⟨t, c, w, run, moves, loads, ((roms_loaded_as_picked run).2.2.2.2.2 _ e _ split torn).1⟩

end EmulatorHost.Coordinator
