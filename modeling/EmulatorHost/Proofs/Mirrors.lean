import EmulatorHost.Coordinator.Operation
import EmulatorHost.Pump.Host

/-! Surroundings that mirror each other: what one of them answers in a world, the other answers in
the image of that world. -/

namespace EmulatorHost

variable {κ σ η ω ω' : Type} {f : ω → ω'}

structure Surroundings.Mirrors (f : ω → ω') (s : Surroundings κ σ η ω)
    (s' : Surroundings κ σ η ω') : Prop where
  createCore : ∀ w, s'.createCore (f w) = Prod.map id f (s.createCore w)
  runFrame : ∀ core surface w,
    s'.runFrame core surface (f w) = Prod.map id f (s.runFrame core surface w)
  setOutputSize : ∀ core size w,
    s'.setOutputSize core size (f w) = Prod.map id f (s.setOutputSize core size w)
  loadRom : ∀ core path w, s'.loadRom core path (f w) = Prod.map id f (s.loadRom core path w)
  drop : ∀ core w, s'.drop core (f w) = f (s.drop core w)
  deliver : ∀ l event w, s'.deliver l event (f w) = Prod.map id f (s.deliver l event w)
  release : ∀ l w, s'.release l (f w) = f (s.release l w)

def Recorded.after (past : List (Activity κ σ η)) (r : Recorded κ σ η ω) : Recorded κ σ η ω :=
  ⟨r.world, past ++ r.activity⟩

theorem Recorded.after_fresh (past : List (Activity κ σ η)) (w : ω) :
    Recorded.after past ⟨w, []⟩ = ⟨w, past⟩ := by
  simp [after]

theorem Surroundings.recorded_mirrors (s : Surroundings κ σ η ω) (past : List (Activity κ σ η)) :
    s.recorded.Mirrors (Recorded.after past) s.recorded := by
  constructor <;> intros <;>
    simp [recorded, Recorded.call, Recorded.note, Recorded.after, Prod.map]

variable {s : Surroundings κ σ η ω} {s' : Surroundings κ σ η ω'}

namespace Notifier

theorem letGo_mirror (h : s.Mirrors f s') (n : Notifier η) (w : ω) :
    n.letGo s'.toListeners (f w) = f (n.letGo s.toListeners w) := by
  rcases n with ⟨_ | l⟩
  · rfl
  · exact h.release l w

theorem broadcast_mirror (h : s.Mirrors f s') (event : Notification) (n : Notifier η) (w : ω) :
    n.broadcast s'.toListeners event (f w) =
      Prod.map id f (n.broadcast s.toListeners event w) := by
  rcases n with ⟨_ | l⟩
  · rfl
  · simp only [broadcast, h.deliver]
    rcases s.deliver l event w with ⟨_ | _, w'⟩ <;> simp [h.release]

end Notifier

namespace Coordinator

theorem discardCore_mirror (h : s.Mirrors f s') (c : Coordinator κ) (w : ω) :
    c.discardCore s'.toCores (f w) = f (c.discardCore s.toCores w) := by
  unfold discardCore
  cases c.core with
  | none => rfl
  | some core => exact h.drop core w

theorem requestLoad_mirror (h : s.Mirrors f s') (path : Path) (c : Coordinator κ) (w : ω) :
    c.requestLoad s'.toCores path (f w) =
      Prod.map id (Prod.map id f) (c.requestLoad s.toCores path w) := by
  unfold requestLoad
  split
  · rfl
  · cases c.core with
    | none => rfl
    | some core =>
      simp only [h.loadRom]
      rcases s.loadRom core path w with ⟨_ | _, w'⟩ <;> rfl

theorem install_mirror (h : s.Mirrors f s') (core : κ) (c : Coordinator κ) (w : ω) :
    c.install s'.toCores core (f w) =
      Prod.map id (Prod.map id f) (c.install s.toCores core w) := by
  simp only [install, discardCore_mirror h]
  cases c.parkedRom with
  | none => rfl
  | some path => simp [h.loadRom]

theorem pushSize_mirror (h : s.Mirrors f s') (core : κ) (d : Drawable) (w : ω) :
    pushSize s'.toCores core d (f w) =
      Prod.map id (Prod.map id f) (pushSize s.toCores core d w) := by
  unfold pushSize
  rcases d.consume with ⟨_ | size, d'⟩
  · rfl
  · simp only [h.setOutputSize]
    rcases s.setOutputSize core size w with ⟨_ | _, w'⟩ <;> rfl

theorem pumpOnce_mirror (h : s.Mirrors f s') (surface : σ) (c : Coordinator κ) (w : ω) :
    c.pumpOnce s'.toCores surface (f w) =
      Prod.map id (Prod.map id f) (c.pumpOnce s.toCores surface w) := by
  unfold pumpOnce
  cases c.core with
  | none => rfl
  | some core => simp [pushSize_mirror h, h.runFrame]

theorem perform_mirror (h : s.Mirrors f s') (op : Operation κ σ) (c : Coordinator κ) (w : ω) :
    c.perform s'.toCores op (f w) =
      Prod.map id (Prod.map id f) (c.perform s.toCores op w) := by
  cases op with
  | setDrawableSize size => rfl
  | requestLoad path => simp [perform, requestLoad_mirror h]
  | install core => simp [perform, install_mirror h]
  | pumpOnce surface => simp [perform, pumpOnce_mirror h]
  | takeCore => simp [perform, discardCore_mirror h]
  | inspect => rfl

end Coordinator

namespace Pump

theorem announce_mirror (h : s.Mirrors f s') (event : Notification) (next : Phase κ)
    (p : Pump κ σ η) (w : ω) :
    p.announce s' event next (f w) = Prod.map id f (p.announce s event next w) := by
  simp [announce, broadcast, Notifier.broadcast_mirror h]

theorem step_mirror (h : s.Mirrors f s') (due : Bool) (p : Pump κ σ η) (w : ω) :
    p.step s' due (f w) = Prod.map id f (p.step s due w) := by
  unfold step
  cases p.phase with
  | creating =>
    simp only [h.createCore]
    rcases s.createCore w with ⟨_ | core, w'⟩ <;> rfl
  | createFailed e => exact announce_mirror h ..
  | installing core => simp [Coordinator.install_mirror h]
  | announcingCore deferred => cases deferred <;> exact announce_mirror h ..
  | announcingRom load => exact announce_mirror h ..
  | checkingStop => rfl
  | checkingPause =>
    cases p.paused with
    | true => rfl
    | false => cases p.config.pacing <;> rfl
  | awaitingDeadline => cases p.stopRequested <;> rfl
  | ready =>
    simp only [Coordinator.pumpOnce_mirror h]
    rcases p.coordinator.pumpOnce s.toCores p.surface w with ⟨_ | report, c, w'⟩ <;> rfl
  | rendering report => rfl
  | reportingResize report =>
    rcases report with ⟨_ | r, render⟩
    · rfl
    · exact announce_mirror h ..
  | counting render => cases render <;> rfl
  | reportingFailure frame e => exact announce_mirror h ..
  | tearingDown reason => rfl
  | dropping core reason =>
    cases core with
    | none => rfl
    | some core => simp [h.drop]
  | dropped reason => rfl
  | announcingStop reason => exact announce_mirror h ..
  | exited reason => rfl

theorem requestLoad_mirror (h : s.Mirrors f s') (path : Path) (p : Pump κ σ η) (w : ω) :
    p.requestLoad s' path (f w) = Prod.map id (Prod.map id f) (p.requestLoad s path w) := by
  unfold requestLoad
  split
  · rfl
  · simp [Coordinator.requestLoad_mirror h]

theorem perform_mirror (h : s.Mirrors f s') (m : Move η) (p : Pump κ σ η) (w : ω) :
    p.perform s' m (f w) = Prod.map id (Prod.map id f) (p.perform s m w) := by
  cases m with
  | advance due => simp [perform, step_mirror h]
  | resize size => rfl
  | load path => simp [perform, requestLoad_mirror h]
  | pick result =>
    cases result with
    | cancelled => rfl
    | picked path => simp [perform, requestPick, requestLoad_mirror h]
  | notify i =>
    simp only [perform, sendNotice]
    cases p.outbox[i]? with
    | none => rfl
    | some event => simp [broadcast, Notifier.broadcast_mirror h]
  | pause on => rfl
  | stop => rfl
  | inspect => rfl
  | subscribe l => simp [perform, subscribe, Notifier.subscribe, Notifier.letGo_mirror h]
  | unsubscribe => simp [perform, unsubscribe, Notifier.unsubscribe, Notifier.letGo_mirror h]

end Pump

end EmulatorHost
