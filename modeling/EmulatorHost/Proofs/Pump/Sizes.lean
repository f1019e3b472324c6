import EmulatorHost.Proofs.Pump.Counters

namespace EmulatorHost

structure Surroundings.TakesSizes {κ σ η ω : Type} (s : Surroundings κ σ η ω) (size : ω → Size) :
    Prop where
  setOutputSize : ∀ core z w, (s.setOutputSize core z w).1 = .ok () ∧
    size (s.setOutputSize core z w).2 = z
  runFrame : ∀ core surface w, size (s.runFrame core surface w).2 = size w
  loadRom : ∀ core path w, size (s.loadRom core path w).2 = size w
  drop : ∀ core w, size (s.drop core w) = size w
  deliver : ∀ l event w, size (s.deliver l event w).2 = size w
  release : ∀ l w, size (s.release l w) = size w

namespace Pump

variable {κ σ η ω : Type} {s : Surroundings κ σ η ω} {due : Bool} {event : Notification}
  {calls : List (Activity κ σ η)} {x x' : Pump κ σ η × ω} {p : Pump κ σ η} {next : Phase κ}
  {size : ω → Size} {m : Move η} {answer : Answer}

def Fitted (size : ω → Size) (x : Pump κ σ η × ω) : Prop :=
  x.1.coordinator.drawable.pending = true ∨
    x.1.phase ≠ .creating ∧ size x.2 = x.1.coordinator.drawable.size

theorem Tells.same_size {n n' : Notifier η × ω} (takes : s.TakesSizes size)
    (h : Tells s event n calls n') : size n'.2 = size n.2 := by
  cases h with
  | unheard => rfl
  | @heard l w w' hd =>
    have same := takes.deliver l event w
    rwa [hd] at same
  | @refused l w w' hd =>
    have same := takes.deliver l event w
    rw [hd] at same
    exact (takes.release l w').trans same

theorem Announces.ne_creating (h : Announces p event next) : next ≠ .creating := by
  cases h with
  | failure => rcases afterFailure_eq p.config p.streak with hn | hn <;> rw [hn] <;> nofun
  | _ => nofun

theorem Passes.ne_creating (h : Passes due p next) : next ≠ .creating := by
  cases h <;> nofun

theorem same_size_discardCore (takes : s.TakesSizes size) (c : Coordinator κ) (w : ω) :
    size (c.discardCore s.toCores w) = size w := by
  unfold Coordinator.discardCore
  cases c.core with
  | none => rfl
  | some core => exact takes.drop core w

theorem same_size_letGo (takes : s.TakesSizes size) (n : Notifier η) (w : ω) :
    size (n.letGo s.toListeners w) = size w := by
  unfold Notifier.letGo
  cases n.subscriber with
  | none => rfl
  | some l => exact takes.release l w

theorem Fitted.advance (takes : s.TakesSizes size) (fitted : Fitted size x)
    (h : Advances s due x calls x') : Fitted size x' := by
  cases h with
  | created hp | refused hp => exact .inl (fitted.resolve_right fun later => later.1 hp)
  | announced ha ht =>
    exact fitted.imp_right fun later => ⟨ha.ne_creating, (ht.same_size takes).trans later.2⟩
  | passed hp => exact fitted.imp_right fun later => ⟨hp.ne_creating, later.2⟩
  | installed =>
    exact fitted.imp_right fun later => ⟨nofun, (same_size_discardCore takes ..).trans later.2⟩
  | @loaded p w w' core path outcome hp _ hl =>
    refine fitted.imp_right fun later => ⟨nofun, ?_⟩
    have same := takes.loadRom core path (p.coordinator.discardCore s.toCores w)
    rw [hl] at same
    exact same.trans ((same_size_discardCore takes ..).trans later.2)
  | @rendered p w w' core outcome hp hc hd hr =>
    have same := takes.runFrame core p.surface w
    rw [hr] at same
    have told := fitted.resolve_left (by simp [hd])
    exact .inr ⟨nofun, same.trans told.2⟩
  | @pushed p w w₁ w' core push outcome hp hc hd hpush hr =>
    have taken := takes.setOutputSize core p.coordinator.drawable.size w
    have same := takes.runFrame core p.surface w₁
    rw [hpush] at taken
    rw [hr] at same
    exact .inr ⟨nofun, same.trans taken.2⟩
  | missed | counted | failed | tornDown | ended =>
    exact fitted.imp_right fun later => ⟨nofun, later.2⟩
  | dropped => exact fitted.imp_right fun later => ⟨nofun, (takes.drop ..).trans later.2⟩
  | rested => exact fitted

theorem Advances.drawable_size (h : Advances s due x calls x') :
    x'.1.coordinator.drawable.size = x.1.coordinator.drawable.size := by
  cases h <;> rfl

theorem Fitted.frame (takes : s.TakesSizes size) (fitted : Fitted size x)
    (h : Advances s due x calls x') (drawn : calls.filterMap Activity.rendered? ≠ []) :
    size x'.2 = x.1.coordinator.drawable.size := by
  have later := fitted.advance takes h
  cases h with
  | rendered hp hc hd => exact (later.resolve_left (by simp [enter, hd])).2
  | @pushed p w w₁ w' core push outcome hp hc hd hpush hr =>
    have accepted : push = .ok () := by
      have taken := (takes.setOutputSize core p.coordinator.drawable.size w).1
      rwa [hpush] at taken
    exact (later.resolve_left (by simp [accepted, CoreOutcome.accepted])).2
  | announced _ ht => exact absurd ht.renders drawn
  | _ => exact absurd (by simp [Activity.rendered?]) drawn

theorem Advances.drawable_of_told (h : Advances s due x calls x')
    (told : x.1.coordinator.drawable.pending = false) :
    x'.1.coordinator.drawable = x.1.coordinator.drawable := by
  cases h with
  | pushed _ _ hd => cases hd.symm.trans told
  | _ => rfl

def withSize (z : Size) (p : Pump κ σ η) : Pump κ σ η :=
  { p with coordinator := { p.coordinator with drawable := (p.coordinator.drawable.set z).2 } }

theorem Fitted.withSize {w : ω} (fitted : Fitted size (p, w)) (z : Size) :
    Fitted size (p.withSize z, w) := by
  by_cases same : p.coordinator.drawable.size = z
  · have unchanged : p.withSize z = p := by simp [Pump.withSize, Drawable.set, same]
    rwa [unchanged]
  · exact .inl (by simp [Pump.withSize, Drawable.set, same])

theorem Fitted.serve (takes : s.TakesSizes size) (fitted : Fitted size x)
    (h : Serves s m x answer calls x') : Fitted size x' := by
  cases h with
  | resized => exact fitted.withSize _
  | @asked m p w w' path core outcome _ _ _ _ hl =>
    have same := takes.loadRom core path w
    rw [hl] at same
    exact fitted.imp_right fun later => ⟨later.1, same.trans later.2⟩
  | told _ ht => exact fitted.imp_right fun later => ⟨later.1, (ht.same_size takes).trans later.2⟩
  | @subscribed p w | @unsubscribed p w =>
    exact fitted.imp_right fun later => ⟨later.1, (same_size_letGo takes ..).trans later.2⟩
  | _ => exact fitted

theorem Serves.drawable (h : Serves s m x answer calls x') (other : ∀ z, m ≠ .resize z) :
    x'.1.coordinator.drawable = x.1.coordinator.drawable := by
  cases h with
  | resized => exact absurd rfl (other _)
  | _ => rfl

end Pump

end EmulatorHost
