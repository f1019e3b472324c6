import EmulatorHost.Proofs.Pump.History

/-! The factory hands the core over, it is used while the pump holds it, and it is dropped once the
pump has let it go. None of this depends on the world, so that it also holds of a pump whose world
others change between its steps. -/

namespace EmulatorHost

inductive Custody (κ : Type) where
  | awaited
  | denied (error : CoreError)
  | held (core : κ)
  | returned (core : κ)

def Activity.used? {κ σ η : Type} : Activity κ σ η → Option κ
  | .frame core .. | .resized core .. | .loaded core .. => some core
  | _ => none

namespace Custody

variable {κ σ η : Type} {core k : κ} {calls more : List (Activity κ σ η)} {phase : Phase κ}
  {c : Custody κ}

/-- What has been called of the core, from the factory's answer to the drop. -/
inductive Covers : Custody κ → List (Activity κ σ η) → Prop
  | awaited : Covers .awaited []
  | denied {e : CoreError} : Covers (.denied e) [.created (.error e)]
  | held {core : κ} {uses : List (Activity κ σ η)} (h : ∀ call ∈ uses, call.used? = some core) :
      Covers (.held core) (.created (.ok core) :: uses)
  | returned {core : κ} {uses : List (Activity κ σ η)}
      (h : ∀ call ∈ uses, call.used? = some core) :
      Covers (.returned core) (.created (.ok core) :: uses ++ [.dropped core])

theorem Covers.use (h : Covers (.held core) calls) (used : ∀ call ∈ more, call.used? = some core) :
    Covers (.held core) (calls ++ more) := by
  cases h with
  | held h =>
    refine .held fun call hc => ?_
    rcases List.mem_append.1 hc with hc | hc
    · exact h call hc
    · exact used call hc

theorem Covers.drop (h : Covers (.held core) calls) :
    Covers (.returned core) (calls ++ [.dropped core]) := by
  cases h with
  | held h => exact .returned h

def Has (c : Custody κ) : Option κ → Prop
  | some core => c = .held core
  | none => ∃ e, c = .denied e

def isOver : Custody κ → Bool
  | .denied _ | .returned _ => true
  | _ => false

def Fits (c : Custody κ) (core : Option κ) : Phase κ → Prop
  | .creating => c = .awaited ∧ core = none
  | .createFailed e => c = .denied e ∧ core = none
  | .installing k => c = .held k ∧ core = none
  | .tearingDown _ => c.Has core
  | .dropping k _ => c.Has k ∧ core = none
  | .dropped _ | .announcingStop _ | .exited _ => c.isOver = true ∧ core = none
  | _ => ∃ k, c = .held k ∧ core = some k

theorem Fits.held (h : c.Fits (some k) phase) : c = .held k := by
  cases phase with
  | tearingDown reason => exact h
  | creating | createFailed _ | installing _ | dropping _ _ | dropped _ | announcingStop _
  | exited _ => cases h.2
  | _ =>
    obtain ⟨k', rfl, hk⟩ := h
    rw [Option.some.inj hk]

end Custody

namespace Pump

variable {κ σ η ω : Type} {s : Surroundings κ σ η ω} {due : Bool} {m : Move η} {answer : Answer}
  {past calls : List (Activity κ σ η)} {x x' : Pump κ σ η × ω} {p : Pump κ σ η}
  {event : Notification} {next : Phase κ} {custody : Custody κ} {t : List (Entry κ σ η ω)}
  {config : Config} {surface : σ} {subscriber : Option η} {w : ω}

def toCore (calls : List (Activity κ σ η)) : List (Activity κ σ η) := calls.filter Activity.isToCore

@[simp] theorem toCore_append (past calls : List (Activity κ σ η)) :
    toCore (past ++ calls) = toCore past ++ toCore calls := List.filter_append ..

structure Keeps (calls : List (Activity κ σ η)) (p : Pump κ σ η) (custody : Custody κ) : Prop where
  fits : custody.Fits p.coordinator.core p.phase
  covers : custody.Covers (toCore calls)

theorem Announces.fits (h : Announces p event next)
    (fits : custody.Fits p.coordinator.core p.phase) : custody.Fits p.coordinator.core next := by
  cases h with
  | createFailed hp =>
    rw [hp] at fits
    obtain ⟨rfl, hc⟩ := fits
    rw [hc]
    exact ⟨_, rfl⟩
  | failure hp =>
    rw [hp] at fits
    rcases afterFailure_eq p.config p.streak with hn | hn <;> rw [hn]
    · exact fits
    · obtain ⟨k, rfl, hc⟩ := fits
      rw [hc]
      rfl
  | core hp | coreWithRom hp | rom hp | resize hp | stop hp =>
    rw [hp] at fits
    exact fits

theorem Passes.fits (h : Passes due p next) (fits : custody.Fits p.coordinator.core p.phase) :
    custody.Fits p.coordinator.core next := by
  cases h with
  | toStop hp | stopMeanwhile hp =>
    rw [hp] at fits
    obtain ⟨k, rfl, hc⟩ := fits
    rw [hc]
    rfl
  | coreless hp =>
    rw [hp] at fits
    obtain ⟨⟨e, rfl⟩, hc⟩ := fits
    exact ⟨rfl, hc⟩
  | onwards hp | paused hp | unpaced hp | paced hp | due hp | waits hp | rendered hp
  | unresized hp =>
    rw [hp] at fits
    exact fits

namespace Keeps

theorem quiet (h : Keeps past p custody) (silent : toCore calls = []) {q : Pump κ σ η}
    (fits : custody.Fits q.coordinator.core q.phase) : Keeps (past ++ calls) q custody where
  fits := fits
  covers := by
    rw [toCore_append, silent, List.append_nil]
    exact h.covers

theorem used {core : κ} (h : Keeps past p (.held core)) {q : Pump κ σ η}
    (used : ∀ call ∈ toCore calls, call.used? = some core)
    (fits : (Custody.held core).Fits q.coordinator.core q.phase) :
    Keeps (past ++ calls) q (.held core) where
  fits := fits
  covers := by
    rw [toCore_append]
    exact h.covers.use used

theorem advance (h : Keeps past x.1 custody) (step : Advances s due x calls x') :
    ∃ custody, Keeps (past ++ calls) x'.1 custody := by
  have fits := h.fits
  have covers := h.covers
  cases step with
  | @created _ _ _ core hp =>
    rw [hp] at fits
    obtain ⟨rfl, hc⟩ := fits
    refine ⟨.held core, ⟨rfl, hc⟩, ?_⟩
    generalize hpast : toCore past = before at covers
    cases covers
    rw [toCore_append, hpast]
    exact .held (by simp)
  | @refused _ _ _ e hp =>
    rw [hp] at fits
    obtain ⟨rfl, hc⟩ := fits
    refine ⟨.denied e, ⟨rfl, hc⟩, ?_⟩
    generalize hpast : toCore past = before at covers
    cases covers
    rw [toCore_append, hpast]
    exact .denied
  | announced ha ht => exact ⟨custody, h.quiet ht.not_toCore (ha.fits fits)⟩
  | passed hp => exact ⟨custody, h.quiet rfl (hp.fits fits)⟩
  | @installed _ _ core hp =>
    rw [hp] at fits
    obtain ⟨rfl, hc⟩ := fits
    dsimp only at hc
    exact ⟨.held core, h.quiet (by rw [hc]; rfl) ⟨core, rfl, rfl⟩⟩
  | @loaded _ _ _ core _ _ hp =>
    rw [hp] at fits
    obtain ⟨rfl, hc⟩ := fits
    dsimp only at hc
    exact ⟨.held core, h.used (by simp [hc, toCore, Activity.isToCore, Activity.used?])
      ⟨core, rfl, rfl⟩⟩
  | missed hp hc =>
    rw [hp] at fits
    obtain ⟨k, -, hk⟩ := fits
    cases hk.symm.trans hc
  | @rendered _ _ _ core _ _ hc =>
    dsimp only at fits
    rw [hc] at fits
    obtain rfl := fits.held
    exact ⟨.held core, h.used (by simp [toCore, Activity.isToCore, Activity.used?])
      ⟨core, rfl, hc⟩⟩
  | @pushed _ _ _ _ core _ _ _ hc =>
    dsimp only at fits
    rw [hc] at fits
    obtain rfl := fits.held
    exact ⟨.held core, h.used (by simp [toCore, Activity.isToCore, Activity.used?])
      ⟨core, rfl, hc⟩⟩
  | counted hp | failed hp =>
    rw [hp] at fits
    exact ⟨custody, h.quiet rfl fits⟩
  | tornDown hp =>
    rw [hp] at fits
    exact ⟨custody, h.quiet rfl ⟨fits, rfl⟩⟩
  | @dropped _ _ core _ hp =>
    rw [hp] at fits
    obtain ⟨rfl, hc⟩ := fits
    refine ⟨.returned core, ⟨rfl, hc⟩, ?_⟩
    rw [toCore_append]
    exact covers.drop
  | ended hp =>
    rw [hp] at fits
    exact ⟨custody, h.quiet rfl fits⟩
  | rested => exact ⟨custody, h.quiet rfl fits⟩

theorem serve (h : Keeps past x.1 custody) (step : Serves s m x answer calls x') :
    Keeps (past ++ calls) x'.1 custody := by
  have same := step.untouched
  have fits : custody.Fits x'.1.coordinator.core x'.1.phase := by
    rw [same.core, same.phase]
    exact h.fits
  cases step with
  | @asked _ _ _ _ _ core _ _ _ _ hc =>
    obtain rfl : custody = .held core := by
      have before := h.fits
      rw [hc] at before
      exact before.held
    exact h.used (by simp [toCore, Activity.isToCore, Activity.used?]) fits
  | told _ ht => exact h.quiet ht.not_toCore fits
  | @subscribed p | @unsubscribed p =>
    refine h.quiet ?_ fits
    cases p.notifier.subscriber <;> rfl
  | _ => exact h.quiet rfl fits

theorem start (config : Config) (surface : σ) (subscriber : Option η) :
    Keeps [] (Pump.start config surface subscriber : Pump κ σ η) .awaited :=
  ⟨⟨rfl, rfl⟩, .awaited⟩

theorem episode (h : Keeps past p custody) (s : Surroundings κ σ η ω) (m : Move η) (w : ω) :
    ∃ custody, Keeps (past ++ ((machine s).episode m (p, w)).calls)
      ((machine s).episode m (p, w)).after.1 custody := by
  by_cases thread : m.isAdvance
  · obtain ⟨due, rfl⟩ := Move.eq_advance thread
    exact advance (x := (p, w)) h (advances s due (p, w))
  · exact ⟨custody, serve (x := (p, w)) h (serves s thread (p, w))⟩

theorem of_run (run : (machine s).Run (Pump.start config surface subscriber, w) t x) :
    ∃ custody, Keeps (t.flatMap (·.calls)) x.1 custody := by
  induction run with
  | start => exact ⟨.awaited, start config surface subscriber⟩
  | next m _ _ ih =>
    obtain ⟨custody, h⟩ := ih
    simpa using h.episode s m _

end Keeps

theorem Tells.not_mem {n n' : Notifier η × ω} {call : Activity κ σ η}
    (h : Tells s event n calls n') (core : call.isToCore = true) : call ∉ calls :=
  fun hc => List.filter_eq_nil_iff.1 h.not_toCore call hc core

theorem Advances.createCore {made : Except CoreError κ} (h : Advances s due x calls x')
    (hc : .created made ∈ calls) : (s.createCore x.2).1 = made := by
  cases h with
  | created _ he | refused _ he =>
    obtain rfl := Activity.created.inj (List.mem_singleton.1 hc)
    exact congrArg Prod.fst he
  | announced _ ht => exact absurd hc (ht.not_mem rfl)
  | @installed p => cases hk : p.coordinator.core <;> simp [hk] at hc
  | @loaded p => cases hk : p.coordinator.core <;> simp [hk] at hc
  | _ => simp at hc

theorem Serves.not_created {made : Except CoreError κ} (h : Serves s m x answer calls x') :
    .created made ∉ calls := by
  intro hc
  cases h with
  | told _ ht => exact absurd hc (ht.not_mem rfl)
  | @subscribed p | @unsubscribed p => cases hl : p.notifier.subscriber <;> simp [hl] at hc
  | _ => simp at hc

theorem createCore_of_created {made : Except CoreError κ} {p : Pump κ σ η}
    (h : .created made ∈ ((machine s).episode m (p, w)).calls) : (s.createCore w).1 = made := by
  by_cases thread : m.isAdvance
  · obtain ⟨due, rfl⟩ := Move.eq_advance thread
    exact (advances s due (p, w)).createCore h
  · exact absurd h (serves s thread (p, w)).not_created

end Pump

end EmulatorHost
