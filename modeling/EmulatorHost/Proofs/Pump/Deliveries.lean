import EmulatorHost.Proofs.Pump.Order

/-! While there is no core a pick replaces the one before. So what has been loaded ends what was
picked before teardown. As in `Custody`, none of this depends on the world. -/

namespace EmulatorHost

theorem Activity.toCore_of_loadedPath {κ σ η : Type} {call : Activity κ σ η} {path : Path}
    (h : call.loadedPath? = some path) : call.isToCore = true := by
  cases call <;> first | rfl | cases h

theorem Custody.Covers.unloaded {κ σ η : Type} {custody : Custody κ}
    {calls : List (Activity κ σ η)} (h : custody.Covers calls) (none : custody.created? = none) :
    calls.filterMap Activity.loadedPath? = [] := by
  cases h with
  | awaited | denied => rfl
  | held | returned => cases none

namespace Pump

variable {κ σ η ω : Type} {s : Surroundings κ σ η ω} {due : Bool} {m : Move η} {answer : Answer}
  {past calls : List (Activity κ σ η)} {x x' : Pump κ σ η × ω} {p q : Pump κ σ η}
  {event : Notification} {custody : Custody κ} {picked : List Path} {w : ω}

def loadedPaths (calls : List (Activity κ σ η)) : List Path :=
  calls.filterMap Activity.loadedPath?

@[simp] theorem loadedPaths_append (past calls : List (Activity κ σ η)) :
    loadedPaths (past ++ calls) = loadedPaths past ++ loadedPaths calls := List.filterMap_append

theorem Keeps.unloaded (h : Keeps past p custody) (none : custody.created? = none) :
    loadedPaths past = [] := by
  rw [loadedPaths, ← filterMap_toCore Activity.toCore_of_loadedPath]
  exact h.covers.unloaded none

theorem Keeps.coreless (h : Keeps past p custody) (awaits : p.phase.awaitsInstall) :
    p.coordinator.core = none := by
  have fits := h.fits
  cases hp : p.phase with
  | creating | installing _ =>
    rw [hp] at fits
    exact fits.2
  | _ =>
    rw [hp] at awaits
    cases awaits

theorem Keeps.unmade (h : Keeps past p custody)
    (settled : p.coordinator.stopped = p.phase.isTornDown) (gone : p.coordinator.core = none)
    (standing : p.coordinator.stopped = false) :
    p.phase.awaitsInstall ∨ custody.created? = none := by
  have fits := h.fits
  rw [gone] at fits
  rw [standing] at settled
  cases hp : p.phase with
  | creating | installing core => exact .inl rfl
  | createFailed e =>
    rw [hp] at fits
    obtain ⟨rfl, -⟩ := fits
    exact .inr rfl
  | tearingDown reason =>
    rw [hp] at fits
    obtain ⟨e, rfl⟩ := fits
    exact .inr rfl
  | dropping core reason | dropped reason | announcingStop reason | exited reason =>
    rw [hp] at settled
    cases settled
  | _ =>
    rw [hp] at fits
    obtain ⟨k, -, hk⟩ := fits
    cases hk

theorem Tells.unloaded {n n' : Notifier η × ω} (h : Tells s event n calls n') :
    loadedPaths calls = [] ∧ calls.filterMap Activity.created? = [] := by
  cases h <;> exact ⟨rfl, rfl⟩

def timely (m : Move η) (p : Pump κ σ η) : List Path :=
  if p.coordinator.stopped then [] else m.path?.toList

theorem timely_of_unnamed (h : m.path? = none) (p : Pump κ σ η) : timely m p = [] := by
  simp [timely, h]

theorem timely_of_stopped (torn : p.coordinator.stopped = true) (m : Move η) :
    timely m p = [] := if_pos torn

theorem timely_of_standing (standing : p.coordinator.stopped = false) (m : Move η) :
    timely m p = m.path?.toList := by
  simp [timely, standing]

/-- What was picked before teardown has been loaded up to its end, or is parked. -/
structure Delivers (picked : List Path) (past : List (Activity κ σ η)) (p : Pump κ σ η) :
    Prop where
  waits : p.phase.awaitsInstall → loadedPaths past = []
  parked : p.coordinator.parkedRom ≠ none →
    p.coordinator.core = none ∧ p.coordinator.stopped = false
  ending : loadedPaths past ++ p.coordinator.parkedRom.toList <:+ picked
  kept : picked ≠ [] → loadedPaths past ++ p.coordinator.parkedRom.toList ≠ [] ∨
    p.coordinator.stopped = true ∧ past.filterMap Activity.created? = []

namespace Delivers

theorem start (config : Config) (surface : σ) (subscriber : Option η) :
    Delivers [] [] (Pump.start config surface subscriber : Pump κ σ η) :=
  ⟨fun _ => rfl, fun h => absurd rfl h, List.suffix_rfl, fun h => absurd rfl h⟩

theorem quiet (h : Delivers picked past p) (waits : q.phase.awaitsInstall → p.phase.awaitsInstall)
    (unloaded : loadedPaths calls = [])
    (uncreated : p.coordinator.stopped = true → calls.filterMap Activity.created? = [])
    (parked : q.coordinator.parkedRom = p.coordinator.parkedRom)
    (core : p.coordinator.parkedRom ≠ none → q.coordinator.core = p.coordinator.core)
    (stopped : q.coordinator.stopped = p.coordinator.stopped) :
    Delivers picked (past ++ calls) q where
  waits awaits := by rw [loadedPaths_append, unloaded, h.waits (waits awaits), List.append_nil]
  parked holds := by
    rw [parked] at holds
    rw [core holds, stopped]
    exact h.parked holds
  ending := by
    rw [loadedPaths_append, unloaded, List.append_nil, parked]
    exact h.ending
  kept named := by
    rw [loadedPaths_append, unloaded, List.append_nil, parked, stopped]
    refine (h.kept named).imp_right fun ⟨torn, unmade⟩ => ⟨torn, ?_⟩
    rw [List.filterMap_append, unmade, uncreated torn, List.append_nil]

theorem unloaded (h : Delivers picked past p) (keeps : Keeps past p custody)
    (settled : p.coordinator.stopped = p.phase.isTornDown) (gone : p.coordinator.core = none)
    (standing : p.coordinator.stopped = false) : loadedPaths past = [] := by
  rcases keeps.unmade settled gone standing with awaits | unmade
  · exact h.waits awaits
  · exact keeps.unloaded unmade

theorem unparked (h : Delivers picked past p) (keeps : Keeps past p custody)
    (settled : p.coordinator.stopped = p.phase.isTornDown)
    (installed : p.phase.awaitsInstall = false) (made : past.filterMap Activity.created? ≠ []) :
    p.coordinator.parkedRom = none := by
  by_contra holds
  obtain ⟨gone, standing⟩ := h.parked holds
  rcases keeps.unmade settled gone standing with awaits | unmade
  · exact Bool.false_ne_true (installed.symm.trans awaits)
  · rw [keeps.filterMap_created, unmade] at made
    exact made rfl

theorem install (h : Delivers picked past p) (keeps : Keeps past p custody)
    (settled : p.coordinator.stopped = p.phase.isTornDown) {path : Path}
    (parked : p.coordinator.parkedRom = some path) (loads : loadedPaths calls = [path])
    (installed : q.phase.awaitsInstall = false) (unparked : q.coordinator.parkedRom = none) :
    Delivers picked (past ++ calls) q := by
  obtain ⟨gone, standing⟩ := h.parked (by simp [parked])
  have first := h.unloaded keeps settled gone standing
  have ending := h.ending
  rw [first, parked] at ending
  refine ⟨fun awaits => ?_, fun holds => absurd unparked holds, ?_, fun _ => .inl ?_⟩
  · rw [installed] at awaits
    cases awaits
  · rw [loadedPaths_append, first, loads, unparked]
    exact ending
  · rw [loadedPaths_append, loads]
    simp

theorem tearDown (h : Delivers picked past p) (keeps : Keeps past p custody)
    (settled : p.coordinator.stopped = p.phase.isTornDown) {reason : StopReason}
    (tearing : p.phase = .tearingDown reason) :
    Delivers picked past
      { p with
          coordinator := p.coordinator.takeCore.2
          phase := .dropping p.coordinator.core reason } := by
  have torn := p.coordinator.tornDown_takeCore
  by_cases made : past.filterMap Activity.created? = []
  · have unmade : custody.created? = none := by
      rw [keeps.filterMap_created] at made
      simpa using made
    refine ⟨nofun, fun holds => absurd torn.parkedRom holds, ?_, fun _ => .inr ⟨torn.stopped, made⟩⟩
    rw [keeps.unloaded unmade, torn.parkedRom]
    exact List.nil_suffix
  · have none := h.unparked keeps settled (by rw [tearing]; rfl) made
    refine ⟨nofun, fun holds => absurd torn.parkedRom holds, ?_, fun named => .inl ?_⟩
    · rw [torn.parkedRom, ← none]
      exact h.ending
    · rw [torn.parkedRom, ← none]
      exact (h.kept named).resolve_right fun empty => made empty.2

theorem advance (h : Delivers picked past x.1) (keeps : Keeps past x.1 custody)
    (settled : x.1.coordinator.stopped = x.1.phase.isTornDown)
    (step : Advances s due x calls x') : Delivers picked (past ++ calls) x'.1 := by
  have waits := fun awaits => (step.of_awaitsInstall awaits).1
  cases step with
  | created hp =>
    rw [hp] at settled
    refine h.quiet waits rfl (fun torn => ?_) rfl (fun _ => rfl) rfl
    cases settled.symm.trans torn
  | announced ha ht =>
    exact h.quiet waits ht.unloaded.1 (fun _ => ht.unloaded.2) rfl (fun _ => rfl) rfl
  | @installed p w core hp none =>
    refine h.quiet waits ?_ (fun _ => ?_) rfl (absurd none) rfl <;>
      cases p.coordinator.core <;> rfl
  | @loaded p w w' core path outcome hp parked =>
    refine h.install keeps settled parked ?_ rfl rfl
    cases p.coordinator.core <;> rfl
  | tornDown hp =>
    rw [List.append_nil]
    exact h.tearDown keeps settled hp
  | _ => exact h.quiet waits rfl (fun _ => rfl) rfl (fun _ => rfl) rfl

theorem park (h : Delivers picked past p) (keeps : Keeps past p custody)
    (settled : p.coordinator.stopped = p.phase.isTornDown) (gone : p.coordinator.core = none)
    (standing : p.coordinator.stopped = false) (path : Path) :
    Delivers (picked ++ [path]) past
      { p with coordinator := { p.coordinator with parkedRom := some path } } where
  waits := h.waits
  parked _ := ⟨gone, standing⟩
  ending := by
    rw [h.unloaded keeps settled gone standing]
    exact List.suffix_append picked [path]
  kept _ := .inl (by simp)

theorem load (h : Delivers picked past p) (keeps : Keeps past p custody) {core : κ}
    (held : p.coordinator.core = some core) {path : Path} (loads : loadedPaths calls = [path])
    (phase : q.phase = p.phase) (parked : q.coordinator.parkedRom = p.coordinator.parkedRom) :
    Delivers (picked ++ [path]) (past ++ calls) q := by
  have none : p.coordinator.parkedRom = none := by
    by_contra holds
    cases held.symm.trans (h.parked holds).1
  have ending := h.ending
  rw [none, Option.toList_none, List.append_nil] at ending
  refine ⟨fun awaits => ?_, fun holds => absurd (parked.trans none) holds, ?_, fun _ => .inl ?_⟩
  · rw [phase] at awaits
    cases held.symm.trans (keeps.coreless awaits)
  · rw [loadedPaths_append, loads, parked, none, Option.toList_none, List.append_nil]
    exact List.suffix_append_self_iff.2 ending
  · rw [loadedPaths_append, loads]
    simp

theorem serve (h : Delivers picked past x.1) (keeps : Keeps past x.1 custody)
    (settled : x.1.coordinator.stopped = x.1.phase.isTornDown)
    (named : ∀ path, m.path? = some path → path.isEmpty = false)
    (step : Serves s m x answer calls x') :
    Delivers (picked ++ timely m x.1) (past ++ calls) x'.1 := by
  cases step with
  | unnamed hm empty => cases (named _ hm).symm.trans empty
  | refused hm _ torn =>
    rw [timely_of_stopped torn, List.append_nil]
    exact h.quiet id rfl (fun _ => rfl) rfl (fun _ => rfl) rfl
  | parked hm _ standing gone =>
    rw [timely_of_standing standing, hm, List.append_nil]
    exact h.park keeps settled gone standing _
  | asked hm _ standing held =>
    rw [timely_of_standing standing, hm]
    exact h.load keeps held rfl rfl rfl
  | told hi ht =>
    rw [timely_of_unnamed rfl, List.append_nil]
    exact h.quiet id ht.unloaded.1 (fun _ => ht.unloaded.2) rfl (fun _ => rfl) rfl
  | @subscribed p | @unsubscribed p =>
    rw [timely_of_unnamed rfl, List.append_nil]
    refine h.quiet id ?_ (fun _ => ?_) rfl (fun _ => rfl) rfl <;>
      cases p.notifier.subscriber <;> rfl
  | _ =>
    rw [timely_of_unnamed rfl, List.append_nil]
    exact h.quiet id rfl (fun _ => rfl) rfl (fun _ => rfl) rfl

end Delivers

theorem Advances.unloaded (h : Advances s due x calls x')
    (installed : x.1.phase.awaitsInstall = false) : loadedPaths calls = [] := by
  cases h with
  | announced _ ht => exact ht.unloaded.1
  | installed hp | loaded hp =>
    rw [hp] at installed
    cases installed
  | _ => rfl

theorem Serves.unloaded (h : Serves s m x answer calls x')
    (torn : x.1.coordinator.stopped = true) : loadedPaths calls = [] := by
  cases h with
  | asked _ _ standing => cases standing.symm.trans torn
  | told _ ht => exact ht.unloaded.1
  | @subscribed p | @unsubscribed p => cases p.notifier.subscriber <;> rfl
  | _ => rfl

theorem Advances.stopped (h : Advances s due x calls x')
    (torn : x.1.coordinator.stopped = true) : x'.1.coordinator.stopped = true := by
  cases h with
  | tornDown => rfl
  | _ => exact torn

theorem Advances.tearsDown (h : Advances s due x calls x')
    (standing : x.1.coordinator.stopped = false) (torn : x'.1.coordinator.stopped = true) :
    calls = [] ∧ x'.1.phase.awaitsInstall = false := by
  cases h with
  | tornDown => exact ⟨rfl, rfl⟩
  | _ => cases standing.symm.trans torn

inductive Tries (s : Surroundings κ σ η ω) (w : ω) (calls : List (Activity κ σ η)) : Prop
  | nothing (unloaded : loadedPaths calls = []) (unasked : calls.filterMap Activity.loadNotice? = [])
  | one (core : κ) (path : Path) (loads : loadedPaths calls = [path])
      (asked : calls.filterMap Activity.loadNotice? =
        [romNotice ⟨path, (s.loadRom core path w).1⟩])

theorem Advances.tries (h : Advances s due x calls x')
    (coreless : x.1.phase.awaitsInstall → x.1.coordinator.core = none) : Tries s x.2 calls := by
  cases h with
  | announced _ ht => exact .nothing ht.unloaded.1 ht.unasked
  | @installed p => cases hc : p.coordinator.core <;> exact .nothing rfl rfl
  | @loaded p w w' core path outcome hp _ hl =>
    have gone : p.coordinator.core = none := coreless (by rw [hp]; rfl)
    rw [Coordinator.discardCore, gone] at hl
    rw [gone]
    refine .one core path rfl ?_
    rw [hl]
    rfl
  | _ => exact .nothing rfl rfl

theorem Serves.tries (h : Serves s m x answer calls x') : Tries s x.2 calls := by
  cases h with
  | @asked _ _ _ _ path core outcome _ _ _ _ hl =>
    refine .one core path rfl ?_
    rw [hl]
    rfl
  | told _ ht => exact .nothing ht.unloaded.1 ht.unasked
  | @subscribed p | @unsubscribed p =>
    cases hl : p.notifier.subscriber <;> exact .nothing rfl rfl
  | _ => exact .nothing rfl rfl

/-- What the core is asked to load, and what is parked, was picked: once for each pick and in the
same order. -/
structure Hands (picked : List Path) (past : List (Activity κ σ η)) (p : Pump κ σ η) : Prop where
  parked : p.coordinator.core.isSome → p.coordinator.parkedRom = none
  picked : (loadedPaths past ++ p.coordinator.parkedRom.toList).Sublist picked

namespace Hands

theorem start (picked : List Path) (config : Config) (surface : σ) (subscriber : Option η) :
    Hands picked [] (Pump.start config surface subscriber : Pump κ σ η) :=
  ⟨fun _ => rfl, List.nil_sublist picked⟩

theorem more (h : Hands picked past p) (later : List Path) : Hands (picked ++ later) past p :=
  ⟨h.parked, h.picked.trans (List.sublist_append_left picked later)⟩

theorem quiet (h : Hands picked past p) (unloaded : loadedPaths calls = [])
    (core : q.coordinator.core = p.coordinator.core)
    (parked : q.coordinator.parkedRom = p.coordinator.parkedRom) :
    Hands picked (past ++ calls) q where
  parked held := parked.trans (h.parked (core ▸ held))
  picked := by
    rw [loadedPaths_append, unloaded, List.append_nil, parked]
    exact h.picked

theorem unpark (h : Hands picked past p) (none : q.coordinator.parkedRom = none)
    (loads : (loadedPaths calls).Sublist p.coordinator.parkedRom.toList) :
    Hands picked (past ++ calls) q where
  parked _ := none
  picked := by
    rw [loadedPaths_append, none, Option.toList_none, List.append_nil]
    exact (loads.append_left (loadedPaths past)).trans h.picked

theorem advance (h : Hands picked past x.1) (step : Advances s due x calls x') :
    Hands picked (past ++ calls) x'.1 := by
  cases step with
  | announced _ ht => exact h.quiet ht.unloaded.1 rfl rfl
  | @installed p w core hp none =>
    refine h.unpark none ?_
    cases p.coordinator.core <;> exact List.nil_sublist _
  | @loaded p w w' core path outcome hp parked =>
    refine h.unpark rfl ?_
    rw [parked]
    cases p.coordinator.core <;> exact List.Sublist.refl [path]
  | tornDown => exact h.unpark rfl (List.nil_sublist _)
  | _ => exact h.quiet rfl rfl rfl

theorem serve (h : Hands picked past x.1) (step : Serves s m x answer calls x') :
    Hands (picked ++ m.path?.toList) (past ++ calls) x'.1 := by
  cases step with
  | @parked m p w path hm named standing gone =>
    rw [hm, List.append_nil]
    refine ⟨fun held => ?_, ?_⟩
    · simp [gone] at held
    · exact ((List.sublist_append_left _ _).trans h.picked).append (List.Sublist.refl [path])
  | @asked m p w w' path core outcome hm named standing held =>
    have none := h.parked (by simp [held])
    have picked := h.picked
    rw [none, Option.toList_none, List.append_nil] at picked
    rw [hm]
    refine ⟨fun _ => none, ?_⟩
    rw [loadedPaths_append, none, Option.toList_none, List.append_nil]
    exact picked.append (List.Sublist.refl [path])
  | told hi ht =>
    refine more ?_ _
    exact h.quiet ht.unloaded.1 rfl rfl
  | @subscribed p | @unsubscribed p =>
    refine more ?_ _
    refine h.quiet ?_ rfl rfl
    cases p.notifier.subscriber <;> rfl
  | _ =>
    refine more ?_ _
    exact h.quiet rfl rfl rfl

theorem episode (h : Hands picked past p) (s : Surroundings κ σ η ω) (m : Move η) (w : ω) :
    Hands (picked ++ m.path?.toList) (past ++ ((machine s).episode m (p, w)).calls)
      ((machine s).episode m (p, w)).after.1 := by
  by_cases host : m.isAdvance
  · obtain ⟨due, rfl⟩ := Move.eq_advance host
    exact more (advance (x := (p, w)) h (advances s due (p, w))) _
  · exact serve (x := (p, w)) h (serves s host (p, w))

end Hands

end Pump

end EmulatorHost
