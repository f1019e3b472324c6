import EmulatorHost.Proofs.Pump.Replay

namespace EmulatorHost

variable {κ σ η ω α : Type}

/-- Each call changes what is in view as `change` says, and nothing else does. -/
structure Surroundings.Shows (s : Surroundings κ σ η ω) (view : ω → α)
    (change : α → Activity κ σ η → α) : Prop where
  createCore : ∀ w, view (s.createCore w).2 = change (view w) (.created (s.createCore w).1)
  runFrame : ∀ core surface w, view (s.runFrame core surface w).2 =
    change (view w) (.frame core surface (s.runFrame core surface w).1)
  setOutputSize : ∀ core size w, view (s.setOutputSize core size w).2 =
    change (view w) (.resized core size (s.setOutputSize core size w).1)
  loadRom : ∀ core path w, view (s.loadRom core path w).2 =
    change (view w) (.loaded core path (s.loadRom core path w).1)
  drop : ∀ core w, view (s.drop core w) = change (view w) (.dropped core)
  deliver : ∀ l event w, view (s.deliver l event w).2 =
    change (view w) (.delivered l event (s.deliver l event w).1)
  release : ∀ l w, view (s.release l w) = change (view w) (.released l)

namespace Surroundings.Shows

variable {s : Surroundings κ σ η ω} {view : ω → α} {change : α → Activity κ σ η → α}
  {act : Activity κ σ η} {acts : List (Activity κ σ η)} {w w' : ω}

theorem answers (shows : s.Shows view change) (h : s.Answers act w w') :
    view w' = change (view w) act := by
  cases act with
  | created answer =>
    have made := shows.createCore w
    rwa [show s.createCore w = (answer, w') from h] at made
  | frame core surface answer =>
    have rendered := shows.runFrame core surface w
    rwa [show s.runFrame core surface w = (answer, w') from h] at rendered
  | resized core size answer =>
    have pushed := shows.setOutputSize core size w
    rwa [show s.setOutputSize core size w = (answer, w') from h] at pushed
  | loaded core path answer =>
    have loaded := shows.loadRom core path w
    rwa [show s.loadRom core path w = (answer, w') from h] at loaded
  | delivered l event heard =>
    have told := shows.deliver l event w
    rwa [show s.deliver l event w = (heard, w') from h] at told
  | dropped core =>
    obtain rfl : s.drop core w = w' := h
    exact shows.drop core w
  | released l =>
    obtain rfl : s.release l w = w' := h
    exact shows.release l w

theorem replays (shows : s.Shows view change) (h : s.Replays acts w w') :
    view w' = acts.foldl change (view w) := by
  induction acts generalizing w with
  | nil => exact congrArg view h.symm
  | cons act acts ih =>
    obtain ⟨w₁, first, rest⟩ := h
    rw [List.foldl_cons, ← shows.answers first]
    exact ih rest

end Surroundings.Shows

end EmulatorHost
