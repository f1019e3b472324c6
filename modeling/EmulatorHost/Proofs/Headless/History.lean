import EmulatorHost.Headless.App
import EmulatorHost.Proofs.Mirrors
import EmulatorHost.Proofs.Pump.Sizes

/-! A headless run as a machine. `Acts` lists what the interface's next turn can be, and `Polls` how
much of it matters to the sizes and the frame count. -/

namespace EmulatorHost

namespace Headless

namespace App

variable {ω ω' : Type}

def mapWorld (f : ω → ω') (a : App ω) : App ω' := { a with world := f a.world }

def turn (v : Venue ω) (m : Turn) (a : App ω) : App ω :=
  match m with
  | .pump due => a.advance v due
  | .interface => a.act v

def machine (v : Venue ω) : Machine (App ω) Turn Unit (Activity Unit Unit Unit) where
  allows a m := (a.take? v m).isSome
  perform m a :=
    let a' := (a.mapWorld fun w => ⟨w, []⟩).turn v.recorded m
    ((), a'.world.activity, a'.mapWorld (·.world))

abbrev Entry (ω : Type) := Episode (App ω) Turn Unit (Activity Unit Unit Unit)

def pumpEpisode (v : Venue ω) (m : Pump.Move Unit) (a : App ω) : Pump.Entry Unit Unit Unit ω :=
  (Pump.machine v.surroundings).episode m (a.pump, a.world)

inductive Errand : Pump.Move Unit → Prop
  | pick {rom : Path} : Errand (.pick (.picked rom))
  | notify : Errand (.notify 0)
  | stop : Errand .stop

end App

namespace Scene

def isEarly : Scene → Bool
  | .opening | .marking => true
  | _ => false

def isDeciding : Scene → Bool
  | .deciding _ => true
  | _ => false

end Scene

namespace App

variable {ω ω' : Type}

def move? (a : App ω) : Option (Pump.Move Unit) :=
  match a.scene with
  | .opening => some (.resize a.options.size)
  | .picking (rom :: _) => some (.pick (.picked rom))
  | .telling _ => some (.notify 0)
  | .deciding n =>
    match a.schedule.decide n with
    | .apply size => some (.resize size)
    | _ => none
  | .stopping => some .stop
  | _ => none

def asking (v : Venue ω) (m : Pump.Move Unit) (next : Scene) (a : App ω) : App ω :=
  { a with
    pump := (a.pumpEpisode v m).after.1
    world := (a.pumpEpisode v m).after.2
    scene := next }

inductive Acts (v : Venue ω) : App ω → List (Activity Unit Unit Unit) → App ω → Prop
  | opened {a : App ω} (h : a.scene = .opening) (visible : a.options.size.isVisible = true) :
      Acts v a [] { a with pump := a.pump.withSize a.options.size, scene := .marking }
  | refused {a : App ω} {z : Size} {schedule : ResizeSchedule} (h : a.move? = some (.resize z))
      (hidden : z.isVisible = false) :
      Acts v a []
        { a with schedule, scene := .finished (.error (.invalidRequest (.invalidSize z))) }
  | marked {a : App ω} (h : a.scene = .marking) :
      Acts v a []
        { a with
          schedule :=
            { a.schedule with settledAt := ResizeSchedule.settle a.pump.frames.toNat }.wrap
          scene := if a.options.cancelPick then .dismissing else .picking a.options.roms }
  | dismissed {a : App ω} (h : a.scene = .dismissing) :
      Acts v a [] (a.enter (.picking a.options.roms))
  | picked {a : App ω} {rom : Path} {roms : List Path} (h : a.scene = .picking (rom :: roms)) :
      Acts v a (a.pumpEpisode v (.pick (.picked rom))).calls
        (a.asking v (.pick (.picked rom)) (.telling roms))
  | told {a : App ω} {roms : List Path} (h : a.scene = .telling roms) :
      Acts v a (a.pumpEpisode v (.notify 0)).calls (a.asking v (.notify 0) (.picking roms))
  | settled {a : App ω} (h : a.scene = .picking []) : Acts v a [] (a.enter .draining)
  | drained {a : App ω} (h : a.scene = .draining) : Acts v a [] ((a.drain v).enter .checking)
  | checked {a : App ω} (h : a.scene = .checking) :
      Acts v a [] (a.enter (if a.pump.running then .counting else .stopping))
  | read {a : App ω} (h : a.scene = .counting) :
      Acts v a [] (a.enter (.deciding a.pump.frames.toNat))
  | applied {a : App ω} {n : Nat} {z : Size} (h : a.scene = .deciding n)
      (hd : a.schedule.decide n = .apply z) (visible : z.isVisible = true) :
      Acts v a []
        { a with
          pump := a.pump.withSize z
          schedule := { a.schedule with
            applied := a.schedule.applied + 1
            settledAt := ResizeSchedule.settle n }.wrap
          scene := .draining }
  | ended {a : App ω} {n : Nat} (h : a.scene = .deciding n)
      (hd : a.schedule.decide n = .finish) : Acts v a [] (a.enter .stopping)
  | waited {a : App ω} {n : Nat} (h : a.scene = .deciding n)
      (hd : a.schedule.decide n = .wait) : Acts v a [] (a.enter .draining)
  | stopped {a : App ω} (h : a.scene = .stopping) :
      Acts v a [] { a with pump := a.pump.requestStop, scene := .joining }
  | joined {a : App ω} (h : a.scene = .joining) (exited : a.pump.phase.isExited = true) :
      Acts v a [] (a.enter .collecting)
  | collected {a : App ω} (h : a.scene = .collecting) :
      Acts v a [] ((a.drain v).enter (.finished ((a.drain v).report v)))

theorem acts (v : Venue ω) (a : App ω) (unblocked : a.isBlocked = false) :
    Acts v a ((machine v).episode .interface a).calls ((machine v).episode .interface a).after := by
  obtain ⟨options, pump, world, scene, schedule, tally⟩ := a
  simp only [Machine.episode, machine, turn, act, mapWorld]
  cases scene with
  | opening =>
    simp only [resize, Pump.setDrawableSize]
    cases visible : options.size.isVisible with
    | true => exact .opened rfl visible
    | false => exact .refused rfl visible
  | marking => exact .marked rfl
  | dismissing => exact .dismissed rfl
  | picking roms =>
    cases roms with
    | nil => exact .settled rfl
    | cons rom roms => exact .picked rfl
  | telling roms => exact .told rfl
  | draining => exact .drained rfl
  | checking => exact .checked rfl
  | counting => exact .read rfl
  | deciding n =>
    simp only [ResizeSchedule.poll]
    cases hd : schedule.decide n with
    | apply size =>
      simp only [resize, Pump.setDrawableSize]
      cases visible : size.isVisible with
      | true => exact .applied rfl hd visible
      | false => exact .refused (by simp [move?, hd]) visible
    | finish => exact .ended rfl hd
    | wait => exact .waited rfl hd
  | stopping => exact .stopped rfl
  | joining => exact .joined rfl (by simpa [isBlocked] using unblocked)
  | collecting => exact .collected rfl
  | finished result => cases unblocked

inductive Polls (v : Venue ω) : App ω → List (Activity Unit Unit Unit) → App ω → Prop
  | opened {a : App ω} (h : a.scene = .opening) (visible : a.options.size.isVisible = true) :
      Polls v a [] { a with pump := a.pump.withSize a.options.size, scene := .marking }
  | marked {a : App ω} {next : Scene} (h : a.scene = .marking) (early : next.isEarly = false)
      (deciding : next.isDeciding = false) :
      Polls v a []
        { a with
          schedule :=
            { a.schedule with settledAt := ResizeSchedule.settle a.pump.frames.toNat }.wrap
          scene := next }
  | ran {a : App ω} {m : Pump.Move Unit} {next : Scene} (he : Errand m)
      (h : a.scene.isEarly = false) (idle : a.scene.isDeciding = false)
      (early : next.isEarly = false) (deciding : next.isDeciding = false) :
      Polls v a (a.pumpEpisode v m).calls
        { a with
          pump := (a.pumpEpisode v m).after.1
          world := (a.pumpEpisode v m).after.2
          scene := next }
  | read {a : App ω} (h : a.scene = .counting) :
      Polls v a [] { a with scene := .deciding a.pump.frames.toNat }
  | applied {a : App ω} {n : Nat} {size : Size} (h : a.scene = .deciding n)
      (hd : a.schedule.decide n = .apply size) (visible : size.isVisible = true) :
      Polls v a []
        { a with
          pump := a.pump.withSize size
          schedule := { a.schedule with
            applied := a.schedule.applied + 1
            settledAt := ResizeSchedule.settle n }.wrap
          scene := .draining }
  | refused {a : App ω} {result : Except RunError Report} {schedule : ResizeSchedule}
      (h : a.scene = .opening ∨
        ∃ n size, a.scene = .deciding n ∧ a.schedule.decide n = .apply size) :
      Polls v a [] { a with schedule := schedule, scene := .finished result }
  | passed {a : App ω} {next : Scene} {tally : Tally} {w : ω} (h : a.scene.isEarly = false)
      (kept : ∀ n size, a.scene = .deciding n → a.schedule.decide n ≠ .apply size)
      (early : next.isEarly = false) (deciding : next.isDeciding = false)
      (hw : w = a.world ∨ w = (v.collect a.world).2) :
      Polls v a [] { a with scene := next, tally := tally, world := w }

theorem resize_of_move? {a : App ω} {z : Size} (h : a.move? = some (.resize z)) :
    a.scene = .opening ∨ ∃ n, a.scene = .deciding n ∧ a.schedule.decide n = .apply z := by
  unfold move? at h
  split at h
  · exact .inl ‹_›
  · cases h
  · cases h
  · split at h
    · rename_i hs _ _ hd
      obtain rfl := Pump.Move.resize.inj (Option.some.inj h)
      exact .inr ⟨_, hs, hd⟩
    · cases h
  · cases h
  · cases h

section Scenes

variable {v : Venue ω} {a a' : App ω} {calls : List (Activity Unit Unit Unit)} {n : Nat}

theorem Acts.of_opening (h : Acts v a calls a') (hs : a.scene = .opening) :
    a.options.size.isVisible = true ∧
        a' = { a with pump := a.pump.withSize a.options.size, scene := .marking } ∨
      ∃ schedule, a' = { a with
        schedule, scene := .finished (.error (.invalidRequest (.invalidSize a.options.size))) } := by
  cases h with
  | opened _ visible => exact .inl ⟨visible, rfl⟩
  | refused asked =>
    obtain rfl : a.options.size = _ := by simpa [move?, hs] using asked
    exact .inr ⟨_, rfl⟩
  | marked h | dismissed h | picked h | told h | settled h | drained h | checked h | read h
  | applied h | ended h | waited h | stopped h | joined h | collected h => cases hs.symm.trans h

theorem Acts.of_marking (h : Acts v a calls a') (hs : a.scene = .marking) :
    a' = { a with
      schedule := { a.schedule with settledAt := ResizeSchedule.settle a.pump.frames.toNat }.wrap
      scene := if a.options.cancelPick then .dismissing else .picking a.options.roms } := by
  cases h with
  | marked => rfl
  | refused asked => simp [move?, hs] at asked
  | opened h | dismissed h | picked h | told h | settled h | drained h | checked h | read h
  | applied h | ended h | waited h | stopped h | joined h | collected h => cases hs.symm.trans h

theorem Acts.of_deciding (h : Acts v a calls a') (hs : a.scene = .deciding n) :
    (∃ z, a.schedule.decide n = .apply z ∧ z.isVisible = true ∧
      a' = { a with
        pump := a.pump.withSize z
        schedule := { a.schedule with
          applied := a.schedule.applied + 1
          settledAt := ResizeSchedule.settle n }.wrap
        scene := .draining }) ∨
    (∃ z schedule, a.schedule.decide n = .apply z ∧
      a' = { a with
        schedule, scene := .finished (.error (.invalidRequest (.invalidSize z))) }) ∨
    a.schedule.decide n = .finish ∧ a' = a.enter .stopping ∨
    a.schedule.decide n = .wait ∧ a' = a.enter .draining := by
  have same {k : Nat} (deciding : a.scene = .deciding k) : n = k :=
    Scene.deciding.inj (hs.symm.trans deciding)
  cases h with
  | applied deciding hd visible =>
    obtain rfl := same deciding
    exact .inl ⟨_, hd, visible, rfl⟩
  | refused asked =>
    rcases resize_of_move? asked with opening | ⟨k, deciding, hd⟩
    · cases hs.symm.trans opening
    · obtain rfl := same deciding
      exact .inr (.inl ⟨_, _, hd, rfl⟩)
  | ended deciding hd =>
    obtain rfl := same deciding
    exact .inr (.inr (.inl ⟨hd, rfl⟩))
  | waited deciding hd =>
    obtain rfl := same deciding
    exact .inr (.inr (.inr ⟨hd, rfl⟩))
  | opened h | marked h | dismissed h | picked h | told h | settled h | drained h | checked h
  | read h | stopped h | joined h | collected h => cases hs.symm.trans h

theorem Acts.of_apply (h : Acts v a calls a') (hs : a.scene = .deciding n) {z : Size}
    (hd : a.schedule.decide n = .apply z) :
    a' = { a with
        pump := a.pump.withSize z
        schedule := { a.schedule with
          applied := a.schedule.applied + 1
          settledAt := ResizeSchedule.settle n }.wrap
        scene := .draining } ∨ ∃ r, a'.scene = .finished r := by
  rcases h.of_deciding hs with ⟨z', hd', -, same⟩ | ⟨z', schedule, -, same⟩ | ⟨ends, -⟩ | ⟨waits, -⟩
  · obtain rfl := Decision.apply.inj (hd.symm.trans hd')
    exact .inl same
  · exact .inr ⟨_, congrArg scene same⟩
  · cases hd.symm.trans ends
  · cases hd.symm.trans waits

theorem Acts.of_refused (h : Acts v a calls a') {z : Size} (asked : a.move? = some (.resize z))
    (hidden : z.isVisible = false) :
    a'.scene = .finished (.error (.invalidRequest (.invalidSize z))) := by
  rcases resize_of_move? asked with hs | ⟨n, hs, hd⟩
  · obtain rfl : a.options.size = z := by simpa [move?, hs] using asked
    rcases h.of_opening hs with ⟨visible, -⟩ | ⟨schedule, rfl⟩
    · cases visible.symm.trans hidden
    · rfl
  · rcases h.of_deciding hs with ⟨z', hd', visible, -⟩ | ⟨z', schedule, hd', rfl⟩ | ⟨ends, -⟩ |
      ⟨waits, -⟩
    · obtain rfl := Decision.apply.inj (hd.symm.trans hd')
      cases visible.symm.trans hidden
    · rw [Decision.apply.inj (hd.symm.trans hd')]
    · cases hd.symm.trans ends
    · cases hd.symm.trans waits

end Scenes

theorem Acts.polls {v : Venue ω} {a a' : App ω} {calls : List (Activity Unit Unit Unit)}
    (h : Acts v a calls a') : Polls v a calls a' := by
  have passed {next : Scene} (tally : Tally) {w : ω}
      (early : a.scene.isEarly = false ∧ a.scene.isDeciding = false)
      (h : next.isEarly = false ∧ next.isDeciding = false)
      (hw : w = a.world ∨ w = (v.collect a.world).2) :
      Polls v a [] { a with scene := next, tally := tally, world := w } :=
    .passed early.1 (fun n size hs => by simp [hs, Scene.isDeciding] at early) h.1 h.2 hw
  cases h with
  | opened hs visible => exact .opened hs visible
  | refused asked =>
    exact .refused ((resize_of_move? asked).imp_right fun ⟨n, hs, hd⟩ => ⟨n, _, hs, hd⟩)
  | marked hs => exact .marked hs (by split <;> rfl) (by split <;> rfl)
  | picked hs => exact .ran .pick (by rw [hs]; rfl) (by rw [hs]; rfl) rfl rfl
  | told hs => exact .ran .notify (by rw [hs]; rfl) (by rw [hs]; rfl) rfl rfl
  | stopped hs => exact .ran .stop (by rw [hs]; rfl) (by rw [hs]; rfl) rfl rfl
  | dismissed hs | settled hs | joined hs =>
    exact passed a.tally (by rw [hs]; exact ⟨rfl, rfl⟩) ⟨rfl, rfl⟩ (.inl rfl)
  | checked hs =>
    exact passed a.tally (by rw [hs]; exact ⟨rfl, rfl⟩) (by split <;> exact ⟨rfl, rfl⟩) (.inl rfl)
  | drained hs | collected hs =>
    exact passed _ (by rw [hs]; exact ⟨rfl, rfl⟩) ⟨rfl, rfl⟩ (.inr rfl)
  | read hs => exact .read hs
  | applied hs hd visible => exact .applied hs hd visible
  | ended hs hd | waited hs hd =>
    refine .passed (by rw [hs]; rfl) (fun m size hm => ?_) rfl rfl (.inl rfl)
    obtain rfl := Scene.deciding.inj (hs.symm.trans hm)
    simp [hd]

theorem unblocked_of_allows {v : Venue ω} {a : App ω} (allowed : (machine v).allows a .interface) :
    a.isBlocked = false := by
  cases blocked : a.isBlocked with
  | true => simp [machine, take?, blocked] at allowed
  | false => rfl

theorem resize_mirror (f : ω → ω') (size : Size) (next : Scene) (a : App ω) :
    (a.mapWorld f).resize size next = (a.resize size next).mapWorld f := by
  simp only [resize, Pump.setDrawableSize, mapWorld]
  cases size.isVisible <;> rfl

theorem turn_mirror (v : Venue ω) (past : List (Activity Unit Unit Unit)) (m : Turn)
    (a : App (Recorded Unit Unit Unit ω)) :
    (a.mapWorld (Recorded.after past)).turn v.recorded m =
      (a.turn v.recorded m).mapWorld (Recorded.after past) := by
  have mirrors := v.surroundings.recorded_mirrors past
  obtain ⟨options, pump, world, scene, schedule, tally⟩ := a
  cases m with
  | pump due =>
    have same := Pump.step_mirror mirrors due pump world
    simp only [turn, advance, mapWorld, Venue.recorded, same]
    rfl
  | interface =>
    cases scene with
    | opening => exact resize_mirror ..
    | picking roms =>
      cases roms with
      | nil => rfl
      | cons rom roms =>
        have same := Pump.requestLoad_mirror mirrors rom pump world
        simp only [turn, act, mapWorld, Pump.requestPick, Venue.recorded, same]
        rfl
    | telling roms =>
      have same := congrArg Prod.snd (Pump.perform_mirror mirrors (.notify 0) pump world)
      simp only [Pump.perform, Prod.map] at same
      simp only [turn, act, mapWorld, Venue.recorded, same, id]
    | deciding n =>
      simp only [turn, act, mapWorld, ResizeSchedule.poll]
      cases schedule.decide n with
      | apply size => exact resize_mirror _ _ _ ⟨options, pump, world, .deciding n, _, tally⟩
      | finish | wait => rfl
    | _ => rfl

theorem take?_recorded {v : Venue ω} {m : Turn} {a : App ω} (allowed : (machine v).allows a m)
    (past : List (Activity Unit Unit Unit)) :
    (a.mapWorld fun w => ⟨w, past⟩).take? v.recorded m =
      some (((machine v).episode m a).after.mapWorld
        fun w => ⟨w, past ++ ((machine v).episode m a).calls⟩) := by
  have taken : (a.mapWorld fun w => ⟨w, past⟩).take? v.recorded m =
      some ((a.mapWorld fun w => ⟨w, past⟩).turn v.recorded m) := by
    cases m with
    | pump due => rfl
    | interface =>
      cases blocked : a.isBlocked with
      | true => simp [machine, take?, blocked] at allowed
      | false =>
        have same : (a.mapWorld fun w => (⟨w, past⟩ : Recorded Unit Unit Unit ω)).isBlocked =
          a.isBlocked := rfl
        simp [take?, same, blocked, turn]
  have fresh : (a.mapWorld fun w => (⟨w, past⟩ : Recorded Unit Unit Unit ω)) =
      (a.mapWorld fun w => ⟨w, []⟩).mapWorld (Recorded.after past) := by
    simp [mapWorld, Recorded.after_fresh]
  rw [taken, fresh, turn_mirror]
  rfl

theorem run?_concat (v : Venue ω) (turns : List Turn) (m : Turn) (a : App ω) :
    a.run? v (turns ++ [m]) = (a.run? v turns).bind fun a => a.take? v m := by
  simp [run?, List.foldlM_append]

theorem run?_of_machine {v : Venue ω} {a a' : App ω} {t : List (Entry ω)}
    (run : (machine v).Run a t a') :
    (a.mapWorld fun w => ⟨w, []⟩).run? v.recorded (t.map (·.move)) =
      some (a'.mapWorld fun w => ⟨w, t.flatMap (·.calls)⟩) := by
  induction run with
  | start => rfl
  | next m _ allowed ih =>
    rw [List.map_append, List.map_singleton, run?_concat, ih, List.flatMap_append,
      List.flatMap_singleton]
    exact take?_recorded allowed _

section Runs

variable {v : Venue ω} {a a' b : App ω} {t : List (Entry ω)} {e : Entry ω}
  {calls : List (Activity Unit Unit Unit)}

theorem turn_induction {Q : List (Entry ω) → App ω → Prop} (start : Q [] b)
    (pumped : ∀ {t a due calls p w}, (machine v).Run b t a → Q t a →
      Pump.Advances v.surroundings due (a.pump, a.world) calls (p, w) →
      Q (t ++ [⟨a, .pump due, (), calls, { a with pump := p, world := w }⟩])
        { a with pump := p, world := w })
    (acted : ∀ {t a calls a'}, (machine v).Run b t a → Q t a → a.isBlocked = false →
      Acts v a calls a' → Q (t ++ [⟨a, .interface, (), calls, a'⟩]) a')
    (run : (machine v).Run b t a) : Q t a := by
  induction run with
  | start => exact start
  | @next t a m earlier allowed ih =>
    cases m with
    | pump due => exact pumped earlier ih (Pump.advances v.surroundings due (a.pump, a.world))
    | interface =>
      have unblocked := unblocked_of_allows allowed
      exact acted earlier ih unblocked (acts v a unblocked)

theorem run_induction {Q : List (Entry ω) → App ω → Prop} (start : Q [] b)
    (pumped : ∀ {t a due calls p w}, Q t a →
      Pump.Advances v.surroundings due (a.pump, a.world) calls (p, w) →
      Q (t ++ [⟨a, .pump due, (), calls, { a with pump := p, world := w }⟩])
        { a with pump := p, world := w })
    (polled : ∀ {t a calls a'}, Q t a → a.isBlocked = false → Polls v a calls a' →
      Q (t ++ [⟨a, .interface, (), calls, a'⟩]) a')
    (run : (machine v).Run b t a) : Q t a :=
  turn_induction start (fun _ => pumped) (fun _ h unblocked act => polled h unblocked act.polls) run

theorem Errand.not_isAdvance {m : Pump.Move Unit} (h : Errand m) : ¬ m.isAdvance := by
  cases h <;> exact nofun

theorem Errand.ne_resize {m : Pump.Move Unit} (h : Errand m) (z : Size) : m ≠ .resize z := by
  cases h <;> exact nofun

theorem Polls.untouched (h : Polls v a calls a') : Pump.Untouched a.pump a'.pump ∧
    calls.filterMap Activity.rendered? = [] := by
  cases h with
  | ran he =>
    have step := Pump.serves v.surroundings he.not_isAdvance (a.pump, a.world)
    exact ⟨step.untouched, step.renders⟩
  | opened | marked | read | applied | refused | passed => exact ⟨by constructor <;> rfl, rfl⟩

theorem Polls.options (h : Polls v a calls a') : a'.options = a.options := by
  cases h <;> rfl

theorem options_of_run (run : (machine v).Run b t a) : a.options = b.options :=
  run_induction (Q := fun _ a => a.options = b.options) rfl (fun same _ => same)
    (fun same _ poll => poll.options.trans same) run

theorem acts_of_run {before after : List (Entry ω)}
    (run : (machine v).Run b (before ++ e :: after) a) (turn : e.move = .interface) :
    Acts v e.before e.calls e.after := by
  obtain ⟨-, allowed, same, -⟩ := run.split
  rw [turn] at allowed same
  have act := acts v e.before (unblocked_of_allows allowed)
  rwa [← same] at act

theorem polls_of_run {before after : List (Entry ω)}
    (run : (machine v).Run b (before ++ e :: after) a) (turn : e.move = .interface) :
    Polls v e.before e.calls e.after :=
  (acts_of_run run turn).polls

end Runs

end App

end Headless

end EmulatorHost
