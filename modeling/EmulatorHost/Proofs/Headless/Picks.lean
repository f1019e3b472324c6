import EmulatorHost.Proofs.Headless.Course
import EmulatorHost.Proofs.Pump.Deliveries
import EmulatorHost.Proofs.Software.Core
import Mathlib.Data.List.Induction

namespace EmulatorHost

namespace Headless

namespace Scene

def toPick (roms : List Path) : Scene → List Path
  | .opening | .marking | .dismissing => roms
  | .picking rest | .telling rest => rest
  | _ => []

def picksLast : Scene → Bool
  | .picking [_] => true
  | _ => false

end Scene

namespace App

variable {ω : Type} {v : Venue ω} {a a' : App ω} {t u : List (Entry ω)} {e : Entry ω}
  {calls : List (Activity Unit Unit Unit)} {o : Options} {w : ω} {due : Bool}
  {p : Pump Unit Unit Unit} {m : Pump.Move Unit} {files : ω → Path → Except String ByteArray}

def picked? (e : Entry ω) : Option Path :=
  match e.move with
  | .interface => e.before.move?.bind Pump.Move.path?
  | .pump _ => none

def picked (t : List (Entry ω)) : List Path := t.filterMap picked?

theorem picked_concat (t : List (Entry ω)) (e : Entry ω) :
    picked (t ++ [e]) = picked t ++ (picked? e).toList := by
  simp only [picked, List.filterMap_append]
  cases h : picked? e <;> simp [h]

def timely (t : List (Entry ω)) : List Path :=
  picked (t.filter (!·.before.pump.coordinator.stopped))

theorem timely_append (t u : List (Entry ω)) : timely (t ++ u) = timely t ++ timely u := by
  simp [timely, picked]

theorem timely_of_asked (asked : a.move? = some m) :
    timely [⟨a, .interface, (), calls, a'⟩] = Pump.timely m a.pump := by
  cases torn : a.pump.coordinator.stopped with
  | true => simp [timely, picked, torn, Pump.timely_of_stopped torn]
  | false =>
    rw [Pump.timely_of_standing torn]
    cases hm : m.path? <;> simp [timely, picked, picked?, torn, asked, hm]

def loaded (t : List (Entry ω)) : List Path := Pump.loadedPaths (t.flatMap (·.calls))

theorem loaded_append (t u : List (Entry ω)) : loaded (t ++ u) = loaded t ++ loaded u := by
  simp [loaded]

def created (t : List (Entry ω)) : List Unit := (t.flatMap (·.calls)).filterMap Activity.created?

theorem picking_of_move? {path : Path} (asked : a.move? = some m) (hm : m.path? = some path) :
    ∃ roms, a.scene = .picking (path :: roms) := by
  obtain ⟨options, pump, world, scene, schedule, tally⟩ := a
  cases scene with
  | picking roms =>
    cases roms with
    | nil => cases asked
    | cons rom roms =>
      obtain rfl := Option.some.inj asked
      obtain rfl := Option.some.inj hm
      exact ⟨roms, rfl⟩
  | deciding n =>
    simp only [move?] at asked
    split at asked <;> cases asked
    cases hm
  | opening | telling | stopping =>
    obtain rfl := Option.some.inj asked
    cases hm
  | _ => cases asked

theorem picked_of_run (visible : o.Visible) (run : (machine v).Run (start o w) t a) :
    picked t ++ a.scene.toPick o.roms = o.roms := by
  refine turn_induction (Q := fun t a => picked t ++ a.scene.toPick o.roms = o.roms) ?_ ?_ ?_ run
  · rfl
  · intro t a due calls p w _ all _
    rw [picked_concat]
    simpa [picked?] using all
  · intro t a calls a' earlier all _ act
    have sized := Sized.of_run visible earlier
    have options := sized.options
    rw [picked_concat]
    cases act with
    | refused asked hidden => simp [sized.isVisible_of_move? visible asked] at hidden
    | marked hs =>
      rw [hs] at all
      cases hc : a.options.cancelPick <;>
        simpa [picked?, move?, hs, hc, options, Scene.toPick] using all
    | picked hs =>
      rw [hs] at all
      simpa [picked?, move?, hs, Pump.Move.path?, asking, Scene.toPick] using all
    | checked hs =>
      rw [hs] at all
      cases hr : a.pump.running <;> simpa [picked?, move?, hs, hr, enter, Scene.toPick] using all
    | applied hs hd | ended hs hd | waited hs hd =>
      rw [hs] at all
      simpa [picked?, move?, hs, hd, Pump.Move.path?, enter, Scene.toPick] using all
    | opened hs | dismissed hs | told hs | settled hs | drained hs | read hs | stopped hs
    | joined hs | collected hs =>
      rw [hs] at all
      simpa [picked?, move?, hs, options, Pump.Move.path?, enter, asking, Scene.toPick] using all

/-- What the record of a run says of its pump, told step by step in `u`. -/
structure Ledger (t : List (Entry ω)) (a : App ω) (custody : Custody Unit)
    (u : List (Pump.Entry Unit Unit Unit ω)) : Prop where
  calls : u.flatMap (·.calls) = t.flatMap (·.calls)
  keeps : Pump.Keeps (t.flatMap (·.calls)) a.pump custody
  remembers : Pump.Remembers u a.pump
  delivers : Pump.Delivers (timely t) (t.flatMap (·.calls)) a.pump

namespace Ledger

variable {custody : Custody Unit} {u : List (Pump.Entry Unit Unit Unit ω)}

theorem idle (h : Ledger t a custody u) (silent : e.calls = []) (unpicked : timely [e] = [])
    (pump : a'.pump = a.pump) : Ledger (t ++ [e]) a' custody u := by
  have calls : (t ++ [e]).flatMap (·.calls) = t.flatMap (·.calls) := by simp [silent]
  have picks : timely (t ++ [e]) = timely t := by rw [timely_append, unpicked, List.append_nil]
  constructor
  · rw [calls, h.calls]
  · rw [calls, pump]
    exact h.keeps
  · rw [pump]
    exact h.remembers
  · rw [calls, picks, pump]
    exact h.delivers

theorem advance (h : Ledger t a custody u)
    (step : Pump.Advances v.surroundings due (a.pump, a.world) calls (p, w)) :
    ∃ custody u, Ledger (t ++ [⟨a, .pump due, (), calls, { a with pump := p, world := w }⟩])
      { a with pump := p, world := w } custody u := by
  obtain ⟨later, keeps⟩ := Pump.Keeps.advance (x := (a.pump, a.world)) h.keeps step
  have unpicked : timely [(⟨a, .pump due, (), calls, { a with pump := p, world := w }⟩ :
      Entry ω)] = [] := by
    cases torn : a.pump.coordinator.stopped <;> simp [timely, picked, picked?, torn]
  refine ⟨later, u ++ [⟨(a.pump, a.world), .advance due, .silent, calls, (p, w)⟩], ?_, ?_, ?_, ?_⟩
  · simp [h.calls]
  · simpa using keeps
  · exact Pump.Remembers.advance (x := (a.pump, a.world)) h.remembers step
  · rw [timely_append, unpicked, List.append_nil, List.flatMap_append, List.flatMap_singleton]
    exact Pump.Delivers.advance (x := (a.pump, a.world)) h.delivers h.keeps h.remembers.stopped step

theorem act (h : Ledger t a custody u)
    (named : ∀ rom roms, a.scene = .picking (rom :: roms) → rom.isEmpty = false)
    (act : Acts v a calls a') :
    ∃ custody u, Ledger (t ++ [⟨a, .interface, (), calls, a'⟩]) a' custody u := by
  rcases act.asks with ⟨m, asked, rfl, after, -⟩ | ⟨unasked, silent, pump, -⟩
  · have step := Pump.serves v.surroundings (host_of_move? asked).1 (a.pump, a.world)
    have named (path : Path) (hm : m.path? = some path) : path.isEmpty = false :=
      have ⟨roms, hs⟩ := picking_of_move? asked hm
      named path roms hs
    have same : a'.pump = (a.pumpEpisode v m).after.1 := congrArg Prod.fst after
    refine ⟨custody, u ++ [a.pumpEpisode v m], ?_, ?_, ?_, ?_⟩
    · simp [h.calls]
    · rw [same, List.flatMap_append, List.flatMap_singleton]
      exact Pump.Keeps.serve (x := (a.pump, a.world)) h.keeps step
    · rw [same]
      exact Pump.Remembers.serve (x := (a.pump, a.world)) h.remembers step
    · rw [same, timely_append, timely_of_asked asked, List.flatMap_append, List.flatMap_singleton]
      exact Pump.Delivers.serve (x := (a.pump, a.world)) h.delivers h.keeps h.remembers.stopped
        named step
  · refine ⟨custody, u, h.idle silent ?_ pump⟩
    cases torn : a.pump.coordinator.stopped <;> simp [timely, picked, picked?, torn, unasked]

theorem of_run (visible : o.Visible) (named : ∀ rom ∈ o.roms, rom.isEmpty = false)
    (run : (machine v).Run (start o w) t a) : ∃ custody u, Ledger t a custody u := by
  refine turn_induction (Q := fun t a => ∃ custody u, Ledger t a custody u) ?_ ?_ ?_ run
  · exact ⟨.awaited, [], rfl, Pump.Keeps.start .., ⟨rfl, rfl⟩, Pump.Delivers.start ..⟩
  · intro t a due calls p w _ ⟨custody, u, h⟩ step
    exact h.advance step
  · intro t a calls a' earlier ⟨custody, u, h⟩ _ act
    refine h.act (fun rom roms hs => named rom ?_) act
    have all := picked_of_run visible earlier
    rw [hs] at all
    rw [← all]
    simp [Scene.toPick]

end Ledger

theorem timely_of_run {b : App ω} (run : (machine v).Run b t a) :
    timely t <+: picked t ∧ (a.pump.coordinator.stopped = false → timely t = picked t) := by
  have step {t : List (Entry ω)} {e : Entry ω}
      (h : timely t <+: picked t ∧
        (e.before.pump.coordinator.stopped = false → timely t = picked t))
      (forever : e.before.pump.coordinator.stopped = true →
        e.after.pump.coordinator.stopped = true) :
      timely (t ++ [e]) <+: picked (t ++ [e]) ∧
        (e.after.pump.coordinator.stopped = false → timely (t ++ [e]) = picked (t ++ [e])) := by
    rw [timely_append, picked_concat]
    cases torn : e.before.pump.coordinator.stopped with
    | true =>
      rw [show timely [e] = [] by simp [timely, picked, torn], List.append_nil]
      exact ⟨h.1.trans (List.prefix_append ..), fun standing => by simp [forever torn] at standing⟩
    | false =>
      have same : timely [e] = (picked? e).toList := by
        cases hp : picked? e <;> simp [timely, picked, torn, hp]
      rw [same, h.2 torn]
      exact ⟨List.prefix_rfl, fun _ => rfl⟩
  refine turn_induction (Q := fun t a => timely t <+: picked t ∧
    (a.pump.coordinator.stopped = false → timely t = picked t)) ?_ ?_ ?_ run
  · exact ⟨List.prefix_rfl, fun _ => rfl⟩
  · intro t a due calls p w _ h advance
    exact step h advance.stopped
  · intro t a calls a' _ h _ act
    exact step h fun torn => act.polls.untouched.1.stopped.trans torn

structure EndsInTime (e : Entry ω) : Prop where
  turn : e.move = .interface
  last : e.before.scene.picksLast = true
  standing : e.before.pump.coordinator.stopped = false

instance (e : Entry ω) : Decidable (EndsInTime e) :=
  decidable_of_iff (e.move = .interface ∧ e.before.scene.picksLast = true ∧
      e.before.pump.coordinator.stopped = false)
    ⟨fun ⟨turn, last, standing⟩ => ⟨turn, last, standing⟩,
      fun h => ⟨h.turn, h.last, h.standing⟩⟩

theorem picking_of_picksLast {scene : Scene} (h : scene.picksLast = true) :
    ∃ rom, scene = .picking [rom] := by
  unfold Scene.picksLast at h
  split at h
  · exact ⟨_, rfl⟩
  · cases h

theorem timely_eq_roms (visible : o.Visible) (run : (machine v).Run (start o w) t a) (he : e ∈ t)
    (inTime : EndsInTime e) : timely t = o.roms ∧ o.roms ≠ [] := by
  obtain ⟨before, after, rfl⟩ := List.append_of_mem he
  obtain ⟨rom, hs⟩ := picking_of_picksLast inTime.last
  have all := picked_of_run visible run.split.1
  rw [hs] at all
  have now : timely [e] = [rom] := by
    simp [timely, picked, picked?, inTime.turn, inTime.standing, move?, hs, Pump.Move.path?]
  have upTo : timely (before ++ e :: after) = o.roms ++ timely after := by
    rw [show before ++ e :: after = before ++ [e] ++ after by simp, timely_append, timely_append,
      (timely_of_run run.split.1).2 inTime.standing, now, ← all]
    rfl
  have short : (timely (before ++ e :: after)).length ≤ o.roms.length := by
    rw [← picked_of_run visible run]
    exact ((timely_of_run run).1.trans (List.prefix_append ..)).length_le
  rw [upTo, List.length_append] at short
  have none : timely after = [] := List.eq_nil_of_length_eq_zero (by omega)
  refine ⟨by rw [upTo, none, List.append_nil], ?_⟩
  rw [← all]
  simp [Scene.toPick]

theorem unloaded_of_stopped {b : App ω} (run : (machine v).Run b t a)
    (torn : b.pump.coordinator.stopped = true)
    (installed : b.pump.phase.awaitsInstall = false) :
    loaded t = [] ∧ a.pump.coordinator.stopped = true ∧ a.pump.phase.awaitsInstall = false := by
  refine turn_induction (Q := fun t a => loaded t = [] ∧ a.pump.coordinator.stopped = true ∧
    a.pump.phase.awaitsInstall = false) ⟨rfl, torn, installed⟩ ?_ ?_ run
  · intro t a due calls p w _ ⟨before, torn, installed⟩ step
    refine ⟨?_, step.stopped torn, ?_⟩
    · rw [loaded_append, before, loaded, List.flatMap_singleton, step.unloaded installed]
      rfl
    · by_contra awaits
      have earlier := (step.of_awaitsInstall (by simpa using awaits)).1
      exact Bool.false_ne_true (installed.symm.trans earlier)
  · intro t a calls a' _ ⟨before, torn, installed⟩ _ act
    have same := act.polls.untouched.1
    refine ⟨?_, same.stopped.trans torn, by rw [same.phase, installed]⟩
    rw [loaded_append, before, loaded, List.flatMap_singleton]
    rcases act.asks with ⟨m, asked, rfl, -, -⟩ | ⟨-, silent, -, -⟩
    · exact (Pump.serves v.surroundings (host_of_move? asked).1 (a.pump, a.world)).unloaded torn
    · simp [silent, Pump.loadedPaths]

theorem exited_of_run (visible : o.Visible) (run : (machine v).Run (start o w) t a)
    (last : 3 ≤ a.scene.closing) : a.pump.phase.isExited = true := by
  refine turn_induction (Q := fun _ a => 3 ≤ a.scene.closing → a.pump.phase.isExited = true)
    ?_ ?_ ?_ run last
  · simp [start, Scene.closing]
  · intro t a due calls p w _ ih step last
    obtain ⟨reason, exited⟩ := Phase.exited_of_isExited (ih last)
    rw [(Prod.mk.inj (step.rests exited).2).1]
    exact ih last
  · intro t a calls a' earlier ih _ act last
    cases act with
    | refused asked hidden =>
      simp [(Sized.of_run visible earlier).isVisible_of_move? visible asked] at hidden
    | joined _ exited => exact exited
    | collected hs => exact ih (by rw [hs]; exact Nat.le_refl 3)
    | marked => cases hc : a.options.cancelPick <;> simp [hc, Scene.closing] at last
    | checked => cases hr : a.pump.running <;> simp [enter, hr, Scene.closing] at last
    | _ => simp [enter, asking, Scene.closing] at last

def Reads (v : Venue ω) (files : ω → Path → Except String ByteArray) : Prop :=
  ∀ path w, ∃ core : SoftwareCore,
    (v.surroundings.loadRom () path w).1 = (core.load (files w path)).1

def LoadsSome (e : Entry ω) : Prop := loaded [e] ≠ []

def LoadsImage (files : ω → Path → Except String ByteArray) (e : Entry ω) : Prop :=
  ∃ path bytes, loaded [e] = [path] ∧ files e.before.world path = .ok bytes ∧ bytes.size ≠ 0

theorem tries_of_mem (visible : o.Visible) (named : ∀ rom ∈ o.roms, rom.isEmpty = false)
    (run : (machine v).Run (start o w) t a) (he : e ∈ t) :
    Pump.Tries v.surroundings e.before.world e.calls := by
  obtain ⟨before, after, rfl⟩ := List.append_of_mem he
  obtain ⟨earlier, allowed, same, -⟩ := run.split
  obtain ⟨custody, u, ledger⟩ := Ledger.of_run visible named earlier
  cases turn : e.move with
  | pump due =>
    have step := Pump.advances v.surroundings due (e.before.pump, e.before.world)
    have tries := step.tries ledger.keeps.coreless
    rw [same, turn]
    exact tries
  | interface =>
    rw [turn] at allowed same
    have act := acts v e.before (unblocked_of_allows allowed)
    rw [← same] at act
    rcases act.asks with ⟨m, asked, called, -, -⟩ | ⟨-, silent, -, -⟩
    · have step := Pump.serves v.surroundings (host_of_move? asked).1
        (e.before.pump, e.before.world)
      rw [called]
      exact step.tries
    · rw [silent]
      exact .nothing rfl rfl

theorem last_load_iff (reads : Reads v files)
    (tries : ∀ e ∈ t, Pump.Tries v.surroundings e.before.world e.calls) :
    ((t.flatMap (·.calls)).filterMap Activity.loadNotice?).getLast?.any Notification.isRomLoaded =
      true ↔ Since (LoadsImage files) LoadsSome t := by
  induction t using List.reverseRecOn with
  | nil => simp
  | append_singleton t e ih =>
    have earlier := ih fun f hf => tries f (by simp [hf])
    rw [List.flatMap_append, List.flatMap_singleton, List.filterMap_append]
    cases tries e (by simp) with
    | nothing unloaded unasked =>
      have none : loaded [e] = [] := by simpa [loaded] using unloaded
      rw [unasked, List.append_nil, earlier,
        Since.concat_of_not (by simp [LoadsImage, none]) (by simp [LoadsSome, none])]
    | one core path loads asked =>
      have one : loaded [e] = [path] := by simpa [loaded] using loads
      obtain ⟨software, same⟩ := reads path e.before.world
      have taken := software.accepted_load (files e.before.world path)
      rw [asked, Since.concat_iff, same]
      simpa [LoadsImage, LoadsSome, one] using taken

structure TearsDown (e : Entry ω) : Prop where
  standing : e.before.pump.coordinator.stopped = false
  torn : e.after.pump.coordinator.stopped = true

instance (e : Entry ω) : Decidable (TearsDown e) :=
  decidable_of_iff (e.before.pump.coordinator.stopped = false ∧
      e.after.pump.coordinator.stopped = true)
    ⟨fun ⟨standing, torn⟩ => ⟨standing, torn⟩, fun h => ⟨h.standing, h.torn⟩⟩

theorem unloaded_of_tearsDown {before after : List (Entry ω)} {b : App ω}
    (run : (machine v).Run b (before ++ e :: after) a) (tears : TearsDown e) :
    loaded (e :: after) = [] := by
  obtain ⟨-, allowed, same, later⟩ := run.split
  have torn := tears.torn
  cases turn : e.move with
  | pump due =>
    have step := Pump.advances v.surroundings due (e.before.pump, e.before.world)
    rw [same, turn] at torn
    obtain ⟨silent, installed⟩ := step.tearsDown tears.standing torn
    have calls : e.calls = [] := by
      rw [same, turn]
      exact silent
    have gone := (unloaded_of_stopped later tears.torn (by
      rw [same, turn]
      exact installed)).1
    rw [loaded, List.flatMap_cons, calls, List.nil_append]
    exact gone
  | interface =>
    have kept := (polls_of_run run turn).untouched.1.stopped
    cases (tears.standing.symm.trans kept.symm).trans tears.torn

/-- The core that the interface picks ROMs for is asked to load a stretch of them in their order,
each once: none without a core, and up to the last one if that is picked before teardown and a core
has been installed. Just before teardown there is a ROM if and only if some was loaded, and the
file of the last one could be read then and was not empty. -/
theorem roms_reach_the_core_in_order {v : Venue ω} {files : ω → Path → Except String ByteArray}
    {arguments : List Argument} {o : Options} {w : ω} {t : List (Entry ω)} {a : App ω}
    (reads : Reads v files) (accepted : CommandLine.parse arguments = .ok o)
    (run : (machine v).Run (start o w) t a) :
    loaded t <:+: o.roms ∧
    (created t = [] → loaded t = []) ∧
    (created t ≠ [] → a.pump.phase.awaitsInstall = false → (∃ e ∈ t, EndsInTime e) →
      loaded t ≠ [] ∧ loaded t <:+ o.roms) ∧
    (a.result?.isSome → a.pump.phase.isExited) ∧
    (∀ before e after, t = before ++ e :: after → TearsDown e →
      (e.before.pump.coordinator.romLoaded = true ↔
        Since (LoadsImage files) LoadsSome before) ∧ loaded (e :: after) = []) := by
  have visible := Options.visible_of_parse accepted
  have named := Options.named_of_parse accepted
  obtain ⟨custody, u, ledger⟩ := Ledger.of_run visible named run
  obtain ⟨calls, keeps, remembers, delivers⟩ := ledger
  refine ⟨?_, fun unmade => ?_, ?_, fun ended => ?_, ?_⟩
  · have early : timely t <+: o.roms := by
      rw [← picked_of_run visible run]
      exact (timely_of_run run).1.trans (List.prefix_append ..)
    exact ((List.prefix_append ..).isInfix.trans delivers.ending.isInfix).trans early.isInfix
  · rw [created, keeps.filterMap_created] at unmade
    exact keeps.unloaded (by simpa using unmade)
  · rintro made installed ⟨e, he, inTime⟩
    have none := delivers.unparked keeps remembers.stopped installed made
    obtain ⟨all, some⟩ := timely_eq_roms visible run he inTime
    have ending := delivers.ending
    have kept := delivers.kept
    rw [none, Option.toList_none, List.append_nil, all] at ending kept
    exact ⟨(kept some).resolve_right fun empty => made empty.2, ending⟩
  · obtain ⟨r, hr⟩ := Option.isSome_iff_exists.1 ended
    refine exited_of_run visible run ?_
    rw [result?_eq_some.1 hr]
    exact Nat.le_refl 3
  · rintro before e after rfl tears
    refine ⟨?_, unloaded_of_tearsDown run tears⟩
    obtain ⟨custody, u, calls, keeps, remembers, -⟩ := Ledger.of_run visible named run.split.1
    rw [← last_load_iff reads fun f hf => tries_of_mem visible named run (by simp [hf]), ← calls,
      remembers.romLoaded, tears.standing]
    rfl

theorem first_of_three_roms_replaced : ∃ o t a, ∃ files : Stage → Path → Except String ByteArray,
    CommandLine.parse (["--frames", "1", "--size", "1x1", "--rom", "a", "--rom", "b", "--rom",
      "c"].map CommandLine.bytes) = .ok o ∧
      Reads (Stage.venue (files {}) o.failEvery) files ∧
      (machine (Stage.venue (files {}) o.failEvery)).Run (start o {}) t a ∧
      loaded t <:+: o.roms ∧ loaded t = [⟨[98]⟩, ⟨[99]⟩] ∧ loaded t <:+ o.roms ∧
      ∃ before e after, t = before ++ e :: after ∧ TearsDown e ∧
        e.before.pump.coordinator.romLoaded = false ∧
        ¬ Since (LoadsImage files) LoadsSome before ∧ loaded (e :: after) = [] := by
  let o : Options := { frames := 1, size := ⟨1, 1⟩, roms := [⟨[97]⟩, ⟨[98]⟩, ⟨[99]⟩] }
  let read (path : Path) : Except String ByteArray :=
    .ok (if path = ⟨[99]⟩ then ⟨#[]⟩ else ⟨#[7]⟩)
  obtain ⟨t, a, run, loads, made, installed, last, e, he, tears, unloaded⟩ : ∃ t a,
      (machine (Stage.venue read o.failEvery)).Run (start o {}) t a ∧
        loaded t = [⟨[98]⟩, ⟨[99]⟩] ∧ created t ≠ [] ∧ a.pump.phase.awaitsInstall = false ∧
        (∃ e ∈ t, EndsInTime e) ∧
        ∃ e ∈ t, TearsDown e ∧ e.before.pump.coordinator.romLoaded = false :=
    Machine.Run.of_decided
      (.replicate 6 .interface ++ .replicate 2 (.pump true) ++ .replicate 3 .interface ++
        .replicate 24 (.pump true) ++ .replicate 5 .interface ++ .replicate 10 (.pump true) ++
        .replicate 2 .interface)
      (by decide +kernel)
  have accepted : CommandLine.parse (["--frames", "1", "--size", "1x1", "--rom", "a", "--rom", "b",
    "--rom", "c"].map CommandLine.bytes) = .ok o := rfl
  have reads : Reads (Stage.venue read o.failEvery) fun _ => read :=
    fun _ w => ⟨w.screen.core, rfl⟩
  obtain ⟨between, -, ending, -, teardown⟩ := roms_reach_the_core_in_order reads accepted run
  obtain ⟨before, after, rfl⟩ := List.append_of_mem he
  obtain ⟨recalls, later⟩ := teardown before e after rfl tears
  refine ⟨o, _, a, fun _ => read, accepted, reads, run, between, loads,
    (ending made installed last).2, before, e, after, rfl, tears, unloaded, ?_, later⟩
  rw [← recalls, unloaded]
  exact Bool.false_ne_true

end App

end Headless

end EmulatorHost
