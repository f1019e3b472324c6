import EmulatorHost.Proofs.Headless.Arguments
import EmulatorHost.Proofs.Headless.FrameCount
import EmulatorHost.Proofs.Headless.PumpRun
import EmulatorHost.Proofs.Pump.Account

namespace EmulatorHost

namespace Pump

variable {κ σ η ω : Type} {s : Surroundings κ σ η ω} {m : Move η} {answer : Answer}
  {calls : List (Activity κ σ η)} {x x' : Pump κ σ η × ω}

theorem Serves.outbox_pick {rom : Path} (h : Serves s (.pick (.picked rom)) x answer calls x') :
    x'.1.outbox.length ≤ x.1.outbox.length + 1 ∧ x'.1.stopRequested = x.1.stopRequested := by
  cases h with
  | asked => simp
  | _ => exact ⟨Nat.le_succ _, rfl⟩

theorem Serves.outbox_notify (h : Serves s (.notify 0) x answer calls x') :
    x'.1.outbox.length = x.1.outbox.length - 1 ∧ x'.1.stopRequested = x.1.stopRequested := by
  cases h with
  | nothingToTell none => exact ⟨by simp_all, rfl⟩
  | told found =>
    obtain ⟨small, -⟩ := List.getElem?_eq_some_iff.1 found
    exact ⟨List.length_eraseIdx_of_lt small, rfl⟩
  | unnamed hm | refused hm | parked hm | asked hm => cases hm

end Pump

namespace Headless

namespace Scene

def backlog : Scene → Nat
  | .telling _ => 1
  | _ => 0

def closing : Scene → Nat
  | .stopping => 1
  | .joining => 2
  | .collecting | .finished _ => 3
  | _ => 0

end Scene

theorem ResizeSchedule.of_finish {s : ResizeSchedule} {n : Nat} (h : s.decide n = .finish) :
    s.resizes.length ≤ s.applied ∧ s.target.toNat ≤ n := by
  unfold decide at h
  split at h
  · split at h <;> cases h
  · rename_i none
    split at h
    · rename_i reached
      exact ⟨List.getElem?_eq_none_iff.1 none, reached.1⟩
    · cases h

namespace App

variable {ω ω' : Type} {v : Venue ω} {a a' b : App ω} {t : List (Entry ω)} {e : Entry ω}
  {calls : List (Activity Unit Unit Unit)} {o : Options} {w : ω} {due : Bool}
  {p : Pump Unit Unit Unit}

theorem result?_eq_some {result : Except RunError Report} :
    a.result? = some result ↔ a.scene = .finished result := by
  cases hs : a.scene <;> simp [result?, hs]

def reported? (e : Entry ω) : Option Size :=
  match e.move with
  | .interface => e.before.move?.bind Pump.Move.size?
  | .pump _ => none

def reported (t : List (Entry ω)) : List Size := t.filterMap reported?

@[simp] theorem reported_append (t u : List (Entry ω)) :
    reported (t ++ u) = reported t ++ reported u := List.filterMap_append

theorem reported_quiet (h : reported? e = none) : reported (t ++ [e]) = reported t := by
  simp [reported, h]

theorem reported_concat {z : Size} (asked : a.move? = some (.resize z)) :
    reported (t ++ [⟨a, .interface, (), calls, a'⟩]) = reported t ++ [z] := by
  simp [reported, reported?, asked, Pump.Move.size?]

theorem reported?_eq_some {z : Size} :
    reported? e = some z ↔ e.move = .interface ∧ e.before.move? = some (.resize z) := by
  obtain ⟨before, move, answer, calls, after⟩ := e
  cases move with
  | pump due => simp [reported?]
  | interface =>
    simp only [reported?, Option.bind_eq_some_iff, true_and]
    constructor
    · rintro ⟨m, asked, size⟩
      cases m <;> cases size
      exact asked
    · exact fun asked => ⟨_, asked, rfl⟩

section Sizes

variable {before after : List (Entry ω)} (run : (machine v).Run b (before ++ e :: after) a)

include run

theorem pump_of_reported {z : Size} (hz : reported? e = some z) :
    e.after.pump = (e.before.pump.setDrawableSize z).2 := by
  obtain ⟨turn, asked⟩ := reported?_eq_some.1 hz
  rcases (acts_of_run run turn).asks with ⟨m, same, -, served, -⟩ | ⟨none, -⟩
  · obtain rfl := Option.some.inj (asked.symm.trans same)
    exact congrArg Prod.fst served
  · cases asked.symm.trans none

theorem setDrawableSize_of_reported {z : Size} (hz : reported? e = some z)
    (visible : z.isVisible = true) :
    ∃ changed, e.before.pump.setDrawableSize z = (.ok changed, e.after.pump) := by
  rw [pump_of_reported run hz, Pump.setDrawableSize, if_pos visible]
  exact ⟨_, rfl⟩

theorem refused_of_reported {z : Size} (hz : reported? e = some z) (hidden : z.isVisible = false) :
    ∃ error, e.before.pump.setDrawableSize z = (.error error, e.after.pump) ∧
      e.after.scene = .finished (.error (.invalidRequest error)) := by
  obtain ⟨turn, asked⟩ := reported?_eq_some.1 hz
  refine ⟨_, ?_, (acts_of_run run turn).of_refused asked hidden⟩
  rw [pump_of_reported run hz, Pump.setDrawableSize, hidden]
  rfl

theorem drawable_size_of_unreported (none : reported? e = none) :
    e.after.pump.coordinator.drawable.size = e.before.pump.coordinator.drawable.size := by
  cases turn : e.move with
  | pump due =>
    obtain ⟨-, -, same, -⟩ := run.split
    have step := Pump.advances v.surroundings due (e.before.pump, e.before.world)
    rw [same, turn]
    exact step.drawable_size
  | interface =>
    rcases (acts_of_run run turn).asks with ⟨m, asked, -, served, -⟩ | ⟨-, -, same, -⟩
    · have other (z : Size) : m ≠ .resize z := by
        rintro rfl
        cases none.symm.trans (reported?_eq_some.2 ⟨turn, asked⟩)
      have step := Pump.serves v.surroundings (host_of_move? asked).1
        (e.before.pump, e.before.world)
      rw [show e.after.pump = _ from congrArg Prod.fst served, ← step.drawable other]
      rfl
    · rw [same]

end Sizes

/-- Up to a scene, the first size has been reported and the resizes that were applied. -/
structure Sized (o : Options) (t : List (Entry ω)) (a : App ω) : Prop where
  options : a.options = o
  target : a.schedule.target = o.frames
  resizes : a.schedule.resizes = o.resizes
  early : a.scene = .opening → a.schedule.applied = 0 ∧ reported t = []
  later : a.scene ≠ .opening → reported t = o.size :: o.resizes.take a.schedule.applied ∧
    (reported t).getLast? = some a.pump.coordinator.drawable.size

namespace Sized

theorem advance (h : Sized o t a)
    (step : Pump.Advances v.surroundings due (a.pump, a.world) calls (p, w)) :
    Sized o (t ++ [⟨a, .pump due, (), calls, { a with pump := p, world := w }⟩])
      { a with pump := p, world := w } := by
  have same := step.drawable_size
  have quiet := reported_quiet (t := t)
    (e := ⟨a, .pump due, (), calls, { a with pump := p, world := w }⟩) rfl
  refine ⟨h.options, h.target, h.resizes, fun opening => ?_, fun opened => ?_⟩
  · exact ⟨(h.early opening).1, quiet.trans (h.early opening).2⟩
  · obtain ⟨all, latest⟩ := h.later opened
    dsimp only at same ⊢
    rw [quiet, same]
    exact ⟨all, latest⟩

theorem quiet (h : Sized o t e.before) (options : e.after.options = e.before.options)
    (target : e.after.schedule.target = e.before.schedule.target)
    (resizes : e.after.schedule.resizes = e.before.schedule.resizes)
    (applied : e.after.schedule.applied = e.before.schedule.applied)
    (opened : e.before.scene ≠ .opening) (next : e.after.scene ≠ .opening)
    (none : reported? e = none)
    (drawable : e.after.pump.coordinator.drawable = e.before.pump.coordinator.drawable) :
    Sized o (t ++ [e]) e.after where
  options := options.trans h.options
  target := target.trans h.target
  resizes := resizes.trans h.resizes
  early opening := absurd opening next
  later _ := by
    rw [reported_quiet none, applied, drawable]
    exact h.later opened

theorem next_resize (h : Sized o t a) {n : Nat} {z : Size}
    (hd : a.schedule.decide n = .apply z) : o.resizes[a.schedule.applied]? = some z := by
  rw [← h.resizes]
  unfold ResizeSchedule.decide at hd
  split at hd
  · rename_i size found
    split at hd
    · rw [found, Decision.apply.inj hd]
    · cases hd
  · split at hd <;> cases hd

theorem isVisible_of_move? (h : Sized o t a) (visible : o.Visible) {z : Size}
    (asked : a.move? = some (.resize z)) : z.isVisible = true := by
  rcases resize_of_move? asked with hs | ⟨n, -, hd⟩
  · simp only [move?, hs, Option.some.injEq, Pump.Move.resize.injEq] at asked
    rw [← asked, h.options]
    exact visible.size
  · exact visible.resizes _ (List.mem_of_getElem? (h.next_resize hd))

theorem act (h : Sized o t a) (visible : o.Visible) (act : Acts v a calls a') :
    Sized o (t ++ [⟨a, .interface, (), calls, a'⟩]) a' := by
  cases act with
  | opened hs =>
    obtain ⟨unapplied, unreported⟩ := h.early hs
    refine ⟨h.options, h.target, h.resizes, by simp, fun _ => ?_⟩
    rw [reported_concat (z := o.size) (by simp [move?, hs, h.options]), unreported]
    simp [unapplied, Pump.withSize, h.options]
  | refused asked hidden => simp [h.isVisible_of_move? visible asked] at hidden
  | @applied n z hs hd =>
    obtain ⟨all, -⟩ := h.later (by simp [hs])
    refine ⟨h.options, h.target, h.resizes, by simp, fun _ => ?_⟩
    rw [reported_concat (z := z) (by simp [move?, hs, hd])]
    exact ⟨by simp [all, List.take_add_one, h.next_resize hd], by simp [Pump.withSize]⟩
  | marked hs =>
    refine h.quiet rfl rfl rfl rfl (by simp [hs]) ?_ (by simp [reported?, move?, hs]) rfl
    dsimp only
    split <;> simp
  | checked hs =>
    refine h.quiet rfl rfl rfl rfl (by simp [hs]) ?_ (by simp [reported?, move?, hs]) rfl
    dsimp only [enter]
    split <;> simp
  | @picked rom roms hs =>
    have asked : a.move? = some (.pick (.picked rom)) := by simp [move?, hs]
    refine h.quiet rfl rfl rfl rfl (by simp [hs]) (by simp [asking]) ?_ ?_
    · simp [reported?, asked, Pump.Move.size?]
    · exact (Pump.serves v.surroundings (host_of_move? asked).1 _).drawable (by simp)
  | told hs =>
    have asked : a.move? = some (.notify 0) := by simp [move?, hs]
    refine h.quiet rfl rfl rfl rfl (by simp [hs]) (by simp [asking]) ?_ ?_
    · simp [reported?, asked, Pump.Move.size?]
    · exact (Pump.serves v.surroundings (host_of_move? asked).1 _).drawable (by simp)
  | ended hs hd | waited hs hd =>
    exact h.quiet rfl rfl rfl rfl (by simp [hs]) (by simp [enter])
      (by simp [reported?, move?, hs, hd]) rfl
  | stopped hs =>
    exact h.quiet rfl rfl rfl rfl (by simp [hs]) (by simp)
      (by simp [reported?, move?, hs, Pump.Move.size?]) rfl
  | dismissed hs | settled hs | drained hs | read hs | joined hs | collected hs =>
    exact h.quiet rfl rfl rfl rfl (by simp [hs]) (by simp [enter])
      (by simp [reported?, move?, hs]) rfl

theorem of_run (visible : o.Visible) (run : (machine v).Run (start o w) t a) : Sized o t a := by
  refine turn_induction (Q := Sized o) ?_ ?_ ?_ run
  · exact ⟨rfl, rfl, rfl, fun _ => ⟨rfl, rfl⟩, fun opened => absurd rfl opened⟩
  · intro t a due calls p w _ h step
    exact h.advance step
  · intro t a calls a' _ h _ act
    exact h.act visible act

theorem reported_prefix (h : Sized o t a) : reported t <+: o.size :: o.resizes := by
  by_cases opening : a.scene = .opening
  · rw [(h.early opening).2]
    exact List.nil_prefix
  · rw [(h.later opening).1, List.cons_prefix_cons]
    exact ⟨rfl, List.take_prefix ..⟩

theorem isVisible_of_reported (h : Sized o t a) (visible : o.Visible) (he : e ∈ t) {z : Size}
    (hz : reported? e = some z) : z.isVisible = true := by
  have planned := h.reported_prefix.mem (List.mem_filterMap.2 ⟨e, he, hz⟩)
  rcases List.mem_cons.1 planned with rfl | later
  · exact visible.size
  · exact visible.resizes z later

theorem latest (h : Sized o t a) (opened : a.scene ≠ .opening)
    (all : o.resizes.length ≤ a.schedule.applied) :
    reported t = o.size :: o.resizes ∧
      a.pump.coordinator.drawable.size = o.resizes.getLastD o.size := by
  obtain ⟨same, last⟩ := h.later opened
  rw [List.take_of_length_le all] at same
  rw [same, List.getLast?_cons, Option.some.injEq] at last
  exact ⟨same, last.symm.trans List.getLastD_eq_getLast?.symm⟩

end Sized

/-- The pump has stopped by itself, or the frames and the resizes that were asked for are done. -/
def Done (o : Options) (t : List (Entry ω)) (a : App ω) : Prop :=
  (∃ reason, reason ≠ .requested ∧ a.pump.phase.reason? = some reason) ∨
    o.resizes.length ≤ a.schedule.applied ∧ o.frames.toNat ≤ drawn t

theorem Done.grow (h : Done o t a) (applied : a'.schedule.applied = a.schedule.applied)
    (phase : ∀ reason, a.pump.phase.reason? = some reason →
      a'.pump.phase.reason? = some reason) : Done o (t ++ [e]) a' := by
  rcases h with ⟨reason, unasked, stops⟩ | ⟨all, enough⟩
  · exact .inl ⟨reason, unasked, phase reason stops⟩
  · refine .inr ⟨applied ▸ all, Nat.le_trans enough ?_⟩
    rw [drawn_append]
    exact Nat.le_add_right ..

structure OnCourse (v : Venue ω) (o : Options) (t : List (Entry ω)) (a : App ω) : Prop where
  outbox : a.pump.outbox.length ≤ a.scene.backlog
  unasked : a.scene.closing ≤ 1 → a.pump.stopRequested = false
  done : 1 ≤ a.scene.closing → Done o t a
  exited : 3 ≤ a.scene.closing → ∃ reason, a.pump.phase = .exited reason
  result : ∀ r, a.scene = .finished r → r = a.report v ∧ ∃ w, a.world = (v.collect w).2

namespace OnCourse

theorem advance (h : OnCourse v o t a)
    (step : Pump.Advances v.surroundings due (a.pump, a.world) calls (p, w)) :
    OnCourse v o (t ++ [⟨a, .pump due, (), calls, { a with pump := p, world := w }⟩])
      { a with pump := p, world := w } where
  outbox := Nat.le_trans (Nat.le_of_eq (congrArg List.length step.outbox)) h.outbox
  unasked early := step.stopRequested.trans (h.unasked early)
  done closing := (h.done closing).grow rfl fun _ => step.reason?
  exited last := by
    obtain ⟨reason, exited⟩ := h.exited last
    rw [(Prod.mk.inj (step.rests exited).2).1]
    exact ⟨reason, exited⟩
  result r hs := by
    have last : 3 ≤ a.scene.closing := by
      dsimp only at hs
      rw [hs]
      exact Nat.le_refl 3
    obtain ⟨reason, exited⟩ := h.exited last
    obtain ⟨rfl, rfl⟩ := Prod.mk.inj (step.rests exited).2
    exact h.result r hs

theorem onward (h : OnCourse v o t e.before) (before : e.before.scene.closing = 0)
    (after : e.after.scene.closing = 0)
    (outbox : e.after.pump.outbox.length ≤ e.after.scene.backlog)
    (asked : e.after.pump.stopRequested = e.before.pump.stopRequested) :
    OnCourse v o (t ++ [e]) e.after where
  outbox := outbox
  unasked _ := asked.trans (h.unasked (by omega))
  done closing := by omega
  exited last := by omega
  result r hs := by simp [hs, Scene.closing] at after

theorem leave (h : OnCourse v o t e.before) (before : e.before.scene.closing = 0)
    (after : e.after.scene = .stopping) (pump : e.after.pump = e.before.pump)
    (outbox : e.before.pump.outbox.length ≤ 0) (done : Done o (t ++ [e]) e.after) :
    OnCourse v o (t ++ [e]) e.after where
  outbox := by
    rw [after, pump]
    exact outbox
  unasked _ := by
    rw [pump]
    exact h.unasked (by omega)
  done _ := done
  exited last := by simp [after, Scene.closing] at last
  result r hs := by cases after.symm.trans hs

theorem close (h : OnCourse v o t e.before) (before : 1 ≤ e.before.scene.closing)
    (after : 2 ≤ e.after.scene.closing)
    (outbox : e.after.pump.outbox.length ≤ e.after.scene.backlog)
    (phase : e.after.pump.phase = e.before.pump.phase)
    (applied : e.after.schedule.applied = e.before.schedule.applied)
    (exited : 3 ≤ e.after.scene.closing → ∃ reason, e.before.pump.phase = .exited reason)
    (result : ∀ r, e.after.scene = .finished r →
      r = e.after.report v ∧ ∃ w, e.after.world = (v.collect w).2) :
    OnCourse v o (t ++ [e]) e.after where
  outbox := outbox
  unasked early := by omega
  done _ := (h.done before).grow applied fun reason stops => phase ▸ stops
  exited last := phase ▸ exited last
  result := result

theorem act (h : OnCourse v o t a) (sized : Sized o t a) (visible : o.Visible)
    (stopped : a.pump.running = false → ∃ reason, a.pump.phase.reason? = some reason ∧
      (reason = .requested → a.pump.stopRequested = true))
    (read : ∀ n, a.scene = .deciding n → n ≤ drawn t) (act : Acts v a calls a') :
    OnCourse v o (t ++ [⟨a, .interface, (), calls, a'⟩]) a' := by
  have outbox := h.outbox
  cases act with
  | opened hs =>
    rw [hs] at outbox
    exact h.onward (by rw [hs]; rfl) rfl outbox rfl
  | refused asked hidden => simp [sized.isVisible_of_move? visible asked] at hidden
  | applied hs =>
    rw [hs] at outbox
    exact h.onward (by rw [hs]; rfl) rfl outbox rfl
  | marked hs =>
    rw [hs] at outbox
    refine h.onward (by rw [hs]; rfl) ?_ ?_ rfl <;> dsimp only <;> split <;>
      first | rfl | exact outbox
  | @picked rom roms hs =>
    rw [hs] at outbox
    have step := Pump.serves v.surroundings (m := .pick (.picked rom)) nofun (a.pump, a.world)
    obtain ⟨more, asked⟩ := step.outbox_pick
    exact h.onward (by rw [hs]; rfl) rfl (Nat.le_trans more (Nat.succ_le_succ outbox)) asked
  | told hs =>
    rw [hs] at outbox
    have step := Pump.serves v.surroundings (m := .notify 0) nofun (a.pump, a.world)
    obtain ⟨fewer, asked⟩ := step.outbox_notify
    refine h.onward (by rw [hs]; rfl) rfl ?_ asked
    exact Nat.le_trans (Nat.le_of_eq fewer) (Nat.sub_le_sub_right outbox 1)
  | checked hs =>
    rw [hs] at outbox
    cases running : a.pump.running with
    | true => exact h.onward (by rw [hs]; rfl) rfl outbox rfl
    | false =>
      obtain ⟨reason, stops, requested⟩ := stopped running
      -- in its loop the interface has not asked for the stop, and nobody else does
      have unasked := h.unasked (by simp [hs, Scene.closing])
      have other : reason ≠ .requested := fun same => by simp [requested same] at unasked
      exact h.leave (by rw [hs]; rfl) (by simp [enter]) rfl outbox
        (.inl ⟨reason, other, stops⟩)
  | @ended n hs hd =>
    rw [hs] at outbox
    obtain ⟨all, enough⟩ := ResizeSchedule.of_finish hd
    rw [sized.resizes] at all
    rw [sized.target] at enough
    refine h.leave (by rw [hs]; rfl) rfl rfl outbox (.inr ⟨all, ?_⟩)
    rw [drawn_append]
    have drew := read n hs
    omega
  | waited hs hd =>
    rw [hs] at outbox
    exact h.onward (by rw [hs]; rfl) rfl outbox rfl
  | stopped hs =>
    rw [hs] at outbox
    exact h.close (by rw [hs]; exact Nat.le_refl 1) (Nat.le_refl 2) outbox rfl rfl
      (by simp [Scene.closing]) nofun
  | dismissed hs | settled hs | drained hs | read hs =>
    rw [hs] at outbox
    exact h.onward (by rw [hs]; rfl) rfl outbox rfl
  | joined hs exited =>
    rw [hs] at outbox
    exact h.close (by rw [hs]; exact Nat.le_succ 1) (Nat.le_succ 2) outbox rfl rfl
      (fun _ => Phase.exited_of_isExited exited) nofun
  | collected hs =>
    rw [hs] at outbox
    have last : a.scene.closing = 3 := by rw [hs]; rfl
    refine h.close (by rw [last]; decide) (Nat.le_succ 2) outbox rfl rfl
      (fun _ => h.exited (Nat.le_of_eq last.symm)) fun r same => ?_
    exact ⟨(Scene.finished.inj same).symm, a.world, rfl⟩

theorem of_run {s : Surroundings Unit Unit Unit ω'} {f : ω → ω'}
    (mirrors : v.surroundings.Mirrors f s) (kept : ∀ w, f (v.collect w).2 = f w)
    (visible : o.Visible) (run : (machine v).Run (start o w) t a) : OnCourse v o t a := by
  refine turn_induction (Q := OnCourse v o) ?_ ?_ ?_ run
  · exact ⟨Nat.le_refl 0, fun _ => rfl, nofun, nofun, nofun⟩
  · intro t a due calls p w _ h step
    exact h.advance step
  · intro t a calls a' earlier h _ act
    obtain ⟨u, pumped⟩ := Pumped.of_run mirrors kept earlier
    refine h.act (.of_run visible earlier) visible (Pump.reason_of_run pumped.run)
      (fun n hs => ?_) act
    have most := read_le earlier rfl hs
    simpa [start, Pump.start, inFlight, Phase.uncounted, Pump.successes] using most

end OnCourse

end App

end Headless

end EmulatorHost
