import EmulatorHost.Headless.Venue
import EmulatorHost.Proofs.Pump.Custody
import EmulatorHost.Proofs.Pump.Replay
import EmulatorHost.Proofs.Software.Core

namespace EmulatorHost

namespace Activity

variable {κ σ η : Type}

def IsProper (surface : σ) : Activity κ σ η → Prop
  | .frame _ on _ => on = surface
  | .resized _ size _ => size.isVisible = true
  | .loaded _ path _ => path.isEmpty = false
  | _ => True

def isResize : Activity κ σ η → Bool
  | .resized .. => true
  | _ => false

end Activity

theorem Size.isVisible_iff {size : Size} :
    size.isVisible = true ↔ 1 ≤ size.width ∧ 1 ≤ size.height := by
  have positive (n : UInt32) : n ≠ 0 ↔ 1 ≤ n := by
    rw [UInt32.le_iff_toNat_le, ne_eq, ← UInt32.toNat_inj]
    exact Nat.pos_iff_ne_zero.symm
  simp [isVisible, ← positive]

/-- What nobody else does is between a size and the next frame. -/
def FramesNext {κ σ η : Type} (surface : σ) (calls : List (Activity κ σ η)) : Prop :=
  ∀ before core size answer after, calls = before ++ .resized core size answer :: after →
    ∃ outcome rest, after = .frame core surface outcome :: rest

namespace FramesNext

variable {κ σ η : Type} {surface : σ} {calls more : List (Activity κ σ η)}

theorem of_unresized (h : ∀ call ∈ calls, call.isResize = false) : FramesNext surface calls := by
  rintro before core size answer after rfl
  cases h _ (List.mem_append_right _ List.mem_cons_self)

theorem pair (core : κ) (size : Size) (push outcome : CoreOutcome) :
    FramesNext surface
      ([.resized core size push, .frame core surface outcome] : List (Activity κ σ η)) := by
  intro before k z answer after h
  rcases List.cons_eq_append_iff.1 h with ⟨rfl, same⟩ | ⟨rest, rfl, same⟩
  · cases same
    exact ⟨outcome, [], rfl⟩
  · have alone : FramesNext surface ([.frame core surface outcome] : List (Activity κ σ η)) :=
      of_unresized (by simp [Activity.isResize])
    exact alone rest k z answer after same

theorem append (h : FramesNext surface calls) (later : FramesNext surface more) :
    FramesNext surface (calls ++ more) := by
  intro before core size answer after split
  rcases List.append_eq_append_iff.1 split with ⟨rest, rfl, same⟩ | ⟨rest, rfl, same⟩
  · exact later rest core size answer after same
  · rcases List.cons_eq_append_iff.1 same with ⟨rfl, same⟩ | ⟨tail, rfl, rfl⟩
    · exact later [] core size answer after same.symm
    · obtain ⟨outcome, rest, rfl⟩ := h before core size answer tail rfl
      exact ⟨outcome, rest ++ more, rfl⟩

end FramesNext

namespace Pump

variable {κ σ η ω : Type} {s : Surroundings κ σ η ω} {due : Bool} {m : Move η} {answer : Answer}
  {calls : List (Activity κ σ η)} {x x' : Pump κ σ η × ω} {t : List (Entry κ σ η ω)}
  {event : Notification} {config : Config} {surface : σ} {subscriber : Option η} {w w' : ω}
  {p : Pump κ σ η}

structure Vetted (p : Pump κ σ η) : Prop where
  size : p.coordinator.drawable.pending = true → p.coordinator.drawable.size.isVisible = true
  rom : ∀ path, p.coordinator.parkedRom = some path → path.isEmpty = false

theorem Tells.isProper {n n' : Notifier η × ω} (h : Tells s event n calls n') :
    ∀ call ∈ calls, call.IsProper surface := by
  cases h <;> simp [Activity.IsProper]

theorem isProper_dropped (core : Option κ) :
    ∀ call ∈ ((core.map .dropped).toList : List (Activity κ σ η)), call.IsProper surface := by
  cases core <;> simp [Activity.IsProper]

theorem isProper_released (l : Option η) :
    ∀ call ∈ ((l.map .released).toList : List (Activity κ σ η)), call.IsProper surface := by
  cases l <;> simp [Activity.IsProper]

theorem Advances.isProper (h : Advances s due x calls x') (vetted : Vetted x.1) :
    ∀ call ∈ calls, call.IsProper x.1.surface := by
  cases h with
  | announced _ ht => exact ht.isProper
  | installed => exact isProper_dropped _
  | loaded _ hr =>
    refine List.forall_mem_append.2 ⟨isProper_dropped _, ?_⟩
    simp [Activity.IsProper, vetted.rom _ hr]
  | pushed _ _ hd => simp [Activity.IsProper, vetted.size hd]
  | _ => simp [Activity.IsProper]

theorem Advances.vetted (h : Advances s due x calls x') (vetted : Vetted x.1) : Vetted x'.1 := by
  cases h with
  | loaded => exact ⟨vetted.size, nofun⟩
  | tornDown => exact ⟨vetted.size, nofun⟩
  | pushed _ _ hd => exact ⟨fun _ => vetted.size hd, vetted.rom⟩
  | _ => exact ⟨vetted.size, vetted.rom⟩

theorem Serves.isProper (h : Serves s m x answer calls x') :
    ∀ call ∈ calls, call.IsProper x.1.surface := by
  cases h with
  | asked _ hp => simp [Activity.IsProper, hp]
  | told _ ht => exact ht.isProper
  | subscribed | unsubscribed => exact isProper_released _
  | _ => simp

theorem Serves.vetted (h : Serves s m x answer calls x') (vetted : Vetted x.1) : Vetted x'.1 := by
  cases h with
  | @resized p _ size visible =>
    refine ⟨fun _ => ?_, vetted.rom⟩
    rw [Drawable.size_set]
    exact visible
  | parked _ named =>
    refine ⟨vetted.size, fun path same => ?_⟩
    obtain rfl := Option.some.inj same
    exact named
  | _ => exact ⟨vetted.size, vetted.rom⟩

theorem vetted_of_run (run : (machine s).Run (start config surface subscriber, w) t x) :
    Vetted x.1 ∧ ∀ call ∈ t.flatMap (·.calls), call.IsProper surface := by
  refine run_induction (Q := fun t x => Vetted x.1 ∧
    ∀ call ∈ t.flatMap (·.calls), call.IsProper surface) ?_ ?_ ?_ run
  · exact ⟨⟨by simp [start], by simp [start]⟩, by simp⟩
  · rintro t x due calls x' earlier ⟨vetted, proper⟩ step
    have same : x.1.surface = surface := (config_of_run earlier).2
    refine ⟨step.vetted vetted, ?_⟩
    rw [List.flatMap_append, List.flatMap_singleton, List.forall_mem_append]
    exact ⟨proper, same ▸ step.isProper vetted⟩
  · rintro t x m answer calls x' earlier ⟨vetted, proper⟩ - step
    have same : x.1.surface = surface := (config_of_run earlier).2
    refine ⟨step.vetted vetted, ?_⟩
    rw [List.flatMap_append, List.flatMap_singleton, List.forall_mem_append]
    exact ⟨proper, same ▸ step.isProper⟩

theorem Advances.framesNext (h : Advances s due x calls x') :
    FramesNext x.1.surface (toCore calls) := by
  cases h with
  | announced _ ht =>
    rw [toCore, ht.not_toCore]
    exact .of_unresized (by simp)
  | @installed p =>
    refine .of_unresized ?_
    cases p.coordinator.core <;> simp [toCore, Activity.isToCore, Activity.isResize]
  | @loaded p =>
    refine .of_unresized ?_
    cases p.coordinator.core <;> simp [toCore, Activity.isToCore, Activity.isResize]
  | pushed => exact FramesNext.pair _ _ _ _
  | _ => exact .of_unresized (by simp [Activity.isResize, toCore])

theorem Serves.framesNext (h : Serves s m x answer calls x') :
    FramesNext x.1.surface (toCore calls) := by
  cases h with
  | told _ ht =>
    rw [toCore, ht.not_toCore]
    exact .of_unresized (by simp)
  | @subscribed p | @unsubscribed p =>
    refine .of_unresized ?_
    cases p.notifier.subscriber <;> simp [toCore, Activity.isToCore]
  | _ => exact .of_unresized (by simp [toCore, Activity.isToCore, Activity.isResize])

theorem framesNext_of_run (run : (machine s).Run (start config surface subscriber, w) t x) :
    FramesNext surface (toCore (t.flatMap (·.calls))) := by
  refine run_induction (Q := fun t _ => FramesNext surface (toCore (t.flatMap (·.calls))))
    (.of_unresized nofun) ?_ ?_ run
  · intro t x due calls x' earlier ih step
    have same : x.1.surface = surface := (config_of_run earlier).2
    rw [List.flatMap_append, List.flatMap_singleton, toCore_append]
    exact ih.append (same ▸ step.framesNext)
  · intro t x m answer calls x' earlier ih _ step
    have same : x.1.surface = surface := (config_of_run earlier).2
    rw [List.flatMap_append, List.flatMap_singleton, toCore_append]
    exact ih.append (same ▸ step.framesNext)

end Pump

section Software

variable {κ σ η ω : Type} {read : Path → Except String ByteArray} {failEvery : Option UInt64}

/-- The cores draw on a screen, as software cores that find the files as they are at the time. -/
structure Surroundings.Draws (s : Surroundings κ σ η ω)
    (files : ω → Path → Except String ByteArray) (failEvery : Option UInt64)
    (screen : ω → Screen) : Prop where
  createCore : ∀ w, ((s.createCore w).1.map fun _ => (), screen (s.createCore w).2) =
    (screen w).create failEvery
  runFrame : ∀ core surface w,
    Prod.map id screen (s.runFrame core surface w) = (screen w).runFrame
  setOutputSize : ∀ core size w,
    Prod.map id screen (s.setOutputSize core size w) = (screen w).setOutputSize size
  loadRom : ∀ core path w,
    Prod.map id screen (s.loadRom core path w) = (screen w).loadRom (files w) path
  drop : ∀ core w, screen (s.drop core w) = screen w
  deliver : ∀ l event w, screen (s.deliver l event w).2 = screen w
  release : ∀ l w, screen (s.release l w) = screen w

namespace Screen

variable {screen : Screen} {surface : σ} {call : Activity κ σ η}

def after (read : Path → Except String ByteArray) (failEvery : Option UInt64) (screen : Screen) :
    Activity κ σ η → Screen
  | .created (.ok _) => { screen with core := { failEvery } }
  | .frame .. => screen.runFrame.2
  | .resized _ size _ => (screen.setOutputSize size).2
  | .loaded _ path _ => (screen.loadRom read path).2
  | _ => screen

structure IsIntact (screen : Screen) : Prop where
  columns : screen.core.size.width ≠ 0
  uncrashed : screen.crashed = false

theorem IsIntact.runFrame (h : screen.IsIntact) : screen.runFrame.2.IsIntact where
  columns := by
    rw [size_runFrame]
    exact h.columns
  uncrashed := by
    have uncrashed := h.uncrashed
    simp only [Screen.runFrame, SoftwareCore.drawFrame, h.columns, if_false]
    split <;> rename_i drawn
    · exact uncrashed
    · exact uncrashed
    · split at drawn <;> cases drawn

theorem IsIntact.after (h : screen.IsIntact) (proper : call.IsProper surface) :
    (screen.after read failEvery call).IsIntact := by
  cases call with
  | created made =>
    cases made with
    | ok core => exact ⟨by simp [Screen.after], h.uncrashed⟩
    | error e => exact h
  | frame core on outcome => exact h.runFrame
  | resized core size outcome =>
    have visible : size.isVisible = true := proper
    refine ⟨?_, h.uncrashed⟩
    simp only [Size.isVisible, Bool.and_eq_true, decide_eq_true_eq] at visible
    exact visible.1
  | loaded core path outcome =>
    refine ⟨?_, h.uncrashed⟩
    simp only [Screen.after, loadRom, SoftwareCore.size_load]
    exact h.columns
  | dropped | delivered | released => exact h

end Screen

theorem Custody.Covers.split {custody : Custody κ} {calls : List (Activity κ σ η)}
    (covers : custody.Covers (Pump.toCore calls)) :
    (∀ call ∈ calls, call.isToCore = true → ∃ e, call = .created (.error e)) ∨
      ∃ before core after, calls = before ++ .created (.ok core) :: after ∧
        (∀ call ∈ before, call.isToCore = false) ∧ ∀ answer, .created answer ∉ after := by
  have lives {core : κ} {uses : List (Activity κ σ η)}
      (unmade : ∀ answer, .created answer ∉ uses)
      (h : Pump.toCore calls = .created (.ok core) :: uses) : ∃ before core after,
        calls = before ++ .created (.ok core) :: after ∧
          (∀ call ∈ before, call.isToCore = false) ∧ ∀ answer, .created answer ∉ after := by
    obtain ⟨before, after, rfl, others, -, rest⟩ := List.filter_eq_cons_iff.1 h
    refine ⟨before, core, after, rfl, by simpa using others, fun answer made => unmade answer ?_⟩
    rw [← rest]
    exact List.mem_filter.2 ⟨made, rfl⟩
  have only {covered : List (Activity κ σ η)} (h : Pump.toCore calls = covered)
      (refused : ∀ call ∈ covered, ∃ e, call = .created (.error e)) :
      ∀ call ∈ calls, call.isToCore = true → ∃ e, call = .created (.error e) :=
    fun call hc used => refused call (h ▸ List.mem_filter.2 ⟨hc, used⟩)
  generalize h : Pump.toCore calls = covered at covers
  cases covers with
  | awaited => exact .inl (only h (List.forall_mem_nil _))
  | denied => exact .inl (only h fun call hc => ⟨_, List.mem_singleton.1 hc⟩)
  | held used => exact .inr (lives (fun answer made => by cases used _ made) h)
  | returned used =>
    refine .inr (lives (fun answer made => ?_) h)
    rcases List.mem_append.1 made with use | last
    · cases used _ use
    · cases List.mem_singleton.1 last

namespace Surroundings.Draws

variable {s : Surroundings κ σ η ω} {files : ω → Path → Except String ByteArray}
  {screen : ω → Screen} {surface : σ} {call : Activity κ σ η} {calls : List (Activity κ σ η)}
  {w w' : ω}

theorem answers (draws : s.Draws files failEvery screen) (h : s.Answers call w w') :
    screen w' = (screen w).after (files w) failEvery call := by
  cases call with
  | created answer =>
    have made := draws.createCore w
    rw [show s.createCore w = (answer, w') from h, Screen.create_eq] at made
    split at made
    · cases answer with
      | ok core => cases congrArg Prod.fst made
      | error e => exact congrArg Prod.snd made
    · cases answer with
      | ok core => exact congrArg Prod.snd made
      | error e => cases congrArg Prod.fst made
  | frame core surface answer =>
    have drawn := draws.runFrame core surface w
    rw [show s.runFrame core surface w = (answer, w') from h] at drawn
    exact congrArg Prod.snd drawn
  | resized core size answer =>
    have pushed := draws.setOutputSize core size w
    rw [show s.setOutputSize core size w = (answer, w') from h] at pushed
    exact congrArg Prod.snd pushed
  | loaded core path answer =>
    have loaded := draws.loadRom core path w
    rw [show s.loadRom core path w = (answer, w') from h] at loaded
    exact congrArg Prod.snd loaded
  | dropped core =>
    obtain rfl : s.drop core w = w' := h
    exact draws.drop core w
  | delivered l event heard =>
    have told := draws.deliver l event w
    rwa [show s.deliver l event w = (heard, w') from h] at told
  | released l =>
    obtain rfl : s.release l w = w' := h
    exact draws.release l w

theorem createFailed_iff (draws : s.Draws files failEvery screen) :
    (∃ e, (s.createCore w).1 = .error e) ↔ failEvery = some 0 := by
  have made := congrArg Prod.fst (draws.createCore w)
  rw [Screen.create_eq] at made
  split at made <;> rename_i period
  · refine iff_of_true ?_ period
    cases hc : (s.createCore w).1 with
    | ok core => simp [hc, Except.map] at made
    | error e => exact ⟨e, rfl⟩
  · refine iff_of_false ?_ period
    rintro ⟨e, refused⟩
    simp [refused, Except.map] at made

theorem unchanged (draws : s.Draws files failEvery screen) (replays : s.Replays calls w w')
    (refused : ∀ call ∈ calls, call.isToCore = true → ∃ e, call = .created (.error e)) :
    screen w' = screen w := by
  induction calls generalizing w with
  | nil => exact congrArg screen replays.symm
  | cons call rest ih =>
    obtain ⟨w₁, first, later⟩ := replays
    rw [List.forall_mem_cons] at refused
    rw [ih later refused.2, draws.answers first]
    cases hc : call with
    | created answer =>
      obtain ⟨e, made⟩ := refused.1 (by rw [hc]; rfl)
      obtain rfl := Activity.created.inj (hc.symm.trans made)
      rfl
    | delivered | released => rfl
    | _ =>
      obtain ⟨e, made⟩ := refused.1 (by rw [hc]; rfl)
      cases hc.symm.trans made

theorem intact (draws : s.Draws files failEvery screen) (replays : s.Replays calls w w')
    (proper : ∀ call ∈ calls, call.IsProper surface) (h : (screen w).IsIntact) :
    (screen w').IsIntact := by
  induction calls generalizing w with
  | nil =>
    obtain rfl : w = w' := replays
    exact h
  | cons call rest ih =>
    obtain ⟨w₁, first, later⟩ := replays
    rw [List.forall_mem_cons] at proper
    refine ih later proper.2 ?_
    rw [draws.answers first]
    exact h.after proper.1

theorem uncrashed {custody : Custody κ} (draws : s.Draws files failEvery screen)
    (covers : custody.Covers (Pump.toCore calls)) (replays : s.Replays calls w w')
    (proper : ∀ call ∈ calls, call.IsProper surface) (uncrashed : (screen w).crashed = false) :
    (screen w').crashed = false := by
  rcases covers.split with refused | ⟨before, core, after, rfl, away, -⟩
  · rwa [draws.unchanged replays refused]
  · obtain ⟨w₁, early, w₂, made, later⟩ := Surroundings.replays_append.1 replays
    have same := draws.unchanged early fun call hc used => by simp [away call hc] at used
    have intact : (screen w₂).IsIntact := by
      rw [draws.answers made, same]
      exact ⟨by simp [Screen.after], uncrashed⟩
    exact (draws.intact later (fun call hc => proper call (by simp [hc])) intact).uncrashed

end Surroundings.Draws

end Software

namespace Pump

variable {κ σ η ω : Type}

/-- Whatever the hosts ask for and the core answers, what reaches the core is proper: sizes of at
least one pixel each way, ROMs with a name, and frames on the surface of the pump; first of all
comes the factory's answer and last the drop, and right after a size comes a frame. A software core
does not run out of columns. -/
theorem asks_only_what_is_proper {s : Surroundings κ σ η ω} {config : Config} {surface : σ}
    {subscriber : Option η} {w w' : ω} {t : List (Entry κ σ η ω)} {p : Pump κ σ η}
    (run : (machine s).Run (start config surface subscriber, w) t (p, w')) :
    (∀ core size answer, .resized core size answer ∈ t.flatMap (·.calls) →
      1 ≤ size.width ∧ 1 ≤ size.height) ∧
    (∀ core path answer, .loaded core path answer ∈ t.flatMap (·.calls) →
      path.isEmpty = false) ∧
    (∀ core used answer, .frame core used answer ∈ t.flatMap (·.calls) → used = surface) ∧
    (∃ custody : Custody κ, custody.Covers (toCore (t.flatMap (·.calls)))) ∧
    (∀ before core size answer after,
      toCore (t.flatMap (·.calls)) = before ++ .resized core size answer :: after →
        ∃ outcome rest, after = .frame core surface outcome :: rest) ∧
    ∀ files failEvery screen, s.Draws files failEvery screen →
      (screen w).crashed = false → (screen w').crashed = false := by
  have proper := (vetted_of_run run).2
  obtain ⟨custody, keeps⟩ := Keeps.of_run run
  refine ⟨fun core size answer asked => ?_, fun core path answer asked => proper _ asked,
    fun core used answer asked => proper _ asked, ⟨custody, keeps.covers⟩,
    framesNext_of_run run, fun files failEvery screen draws uncrashed => ?_⟩
  · exact Size.isVisible_iff.1 (proper _ asked)
  · exact draws.uncrashed keeps.covers (replays_of_run run) proper uncrashed

end Pump

theorem Headless.Stage.draws (read : Path → Except String ByteArray) (failEvery : Option UInt64) :
    (venue read failEvery).surroundings.Draws (fun _ => read) failEvery Stage.screen where
  drop _ _ := rfl
  deliver _ _ _ := rfl
  release _ _ := rfl
  createCore stage := by
    by_cases none : failEvery = some 0 <;>
      simp [venue, onScreen, Screen.create_eq, none, Except.map]
  runFrame _ _ _ := rfl
  setOutputSize _ _ _ := rfl
  loadRom _ _ _ := rfl

open Headless in
theorem Pump.size_without_columns_kept_out :
    ∃ t p w, (machine (Stage.venue (fun _ => .error "") none).surroundings).Run
        (start {} () (some ()), {}) t (p, w) ∧
      t.map (·.move) = [.resize ⟨0, 3⟩, .load ⟨[]⟩, .resize ⟨2, 1⟩, .load ⟨[97]⟩] ++
        List.replicate 10 (.advance true) ∧
      p.frames = 1 ∧ w.screen.crashed = false := by
  obtain ⟨t, p, w, ran, moves, frames⟩ : ∃ t p w,
      (machine (Stage.venue (fun _ => .error "") none).surroundings).run?
          ([.resize ⟨0, 3⟩, .load ⟨[]⟩, .resize ⟨2, 1⟩, .load ⟨[97]⟩] ++
            List.replicate 10 (.advance true)) (start {} () (some ()), {}) = some (t, p, w) ∧
        t.map (·.move) = [.resize ⟨0, 3⟩, .load ⟨[]⟩, .resize ⟨2, 1⟩, .load ⟨[97]⟩] ++
          List.replicate 10 (.advance true) ∧ p.frames = 1 :=
    ⟨_, _, _, rfl, rfl, rfl⟩
  have run := Machine.Run.of_run? ran
  obtain ⟨-, -, -, -, -, intact⟩ := asks_only_what_is_proper run
  exact ⟨t, p, w, run, moves, frames, intact _ _ _ (Stage.draws _ _) rfl⟩

end EmulatorHost
