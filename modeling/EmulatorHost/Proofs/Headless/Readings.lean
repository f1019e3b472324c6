import EmulatorHost.Proofs.Headless.Arguments
import EmulatorHost.Proofs.Headless.Polling
import EmulatorHost.Proofs.Pump.Rolling
import EmulatorHost.Proofs.Software.Core

namespace EmulatorHost.Headless

structure Steady (counts : List Nat) : Prop where
  grows : counts.Pairwise (· ≤ ·)
  fits : ∀ n ∈ counts, n + 2 < UInt64.size

namespace Steady

variable {counts : List Nat} {k n : Nat}

theorem concat_iff : Steady (counts ++ [n]) ↔
    Steady counts ∧ (∀ k ∈ counts, k ≤ n) ∧ n + 2 < UInt64.size := by
  constructor
  · rintro ⟨grows, fits⟩
    obtain ⟨earlier, -, below⟩ := List.pairwise_append.1 grows
    obtain ⟨small, last⟩ := List.forall_mem_append.1 fits
    exact ⟨⟨earlier, small⟩, fun k hk => below k hk n (List.mem_singleton_self n),
      last n (List.mem_singleton_self n)⟩
  · rintro ⟨⟨grows, fits⟩, below, small⟩
    refine ⟨List.pairwise_append.2 ⟨grows, List.pairwise_singleton _ _, fun k hk m hm => ?_⟩,
      List.forall_mem_append.2 ⟨fits, fun m hm => ?_⟩⟩
    · rw [List.mem_singleton.1 hm]
      exact below k hk
    · rw [List.mem_singleton.1 hm]
      exact small

theorem left (h : Steady (counts ++ [n])) : Steady counts := (concat_iff.1 h).1

theorem le_last (h : Steady (counts ++ [n])) (hk : k ∈ counts) : k ≤ n := (concat_iff.1 h).2.1 k hk

theorem lt (h : Steady counts) (hk : k ∈ counts) : k < UInt64.size := by
  have fits := h.fits k hk
  omega

end Steady

def Stage.Flawless (s : Stage) : Prop := s.screen.core.failEvery = none

theorem Stage.untiring (read : Path → Except String ByteArray) :
    (venue read none).surroundings.Untiring Flawless where
  runFrame _ _ w never := by
    have taken := w.screen.accepted_runFrame
    rw [never] at taken
    have kept : w.screen.runFrame.2.core.failEvery = w.screen.core.failEvery := by
      rw [w.screen.core_runFrame]
    exact ⟨CoreOutcome.accepted_iff.1 (taken.trans rfl), kept.trans never⟩
  setOutputSize _ _ _ never := never
  loadRom _ path w never := (SoftwareCore.failEvery_load _ _).trans never
  deliver _ _ _ never := never
  release _ _ never := never

namespace App

open ResizeSchedule (opened loop Poll)

variable {ω : Type} {v : Venue ω} {good : ω → Prop} {a a' a'' b : App ω} {k n first : Nat}
  {o : Options} {u : List Poll} {x : ResizeSchedule.Loop} {s : ResizeSchedule}

theorem resize_of_visible {z : Size} (visible : z.isVisible = true) (next : Scene) (a : App ω) :
    ((a.mapWorld fun w => (⟨w, []⟩ : Recorded Unit Unit Unit ω)).resize z next).mapWorld (·.world) =
      { a with pump := a.pump.withSize z, scene := next } := by
  simp [mapWorld, resize, Pump.setDrawableSize, visible, Pump.withSize,
    Coordinator.setDrawableSize]

theorem after_of_apply {z : Size} (hd : a.schedule.decide n = .apply z)
    (visible : z.isVisible = true) (small : n + 2 < UInt64.size) :
    ((machine v).episode .interface (a.enter (.deciding n))).after =
      { a with
        pump := a.pump.withSize z
        schedule := (loop.episode n ⟨a.schedule, false⟩).after.schedule
        scene := .draining } := by
  let next : ResizeSchedule :=
    { a.schedule with
      applied := a.schedule.applied + 1
      settledAt := ResizeSchedule.settle n }
  have polled : a.schedule.poll n = (.apply z, next) := by simp [ResizeSchedule.poll, hd, next]
  have fits : next.wrap = next := next.wrap_eq small
  rw [ResizeSchedule.episode_of_apply _ hd]
  simp only [Machine.episode, machine, App.turn, act, enter, mapWorld, polled, fits]
  exact resize_of_visible visible .draining { a.enter (.deciding n) with schedule := next }

theorem after_of_wait (hd : a.schedule.decide n = .wait) :
    ((machine v).episode .interface (a.enter (.deciding n))).after = a.enter .draining := by
  have polled : a.schedule.poll n = (.wait, a.schedule) := by simp [ResizeSchedule.poll, hd]
  simp only [Machine.episode, machine, App.turn, act, enter, mapWorld, polled]

def Leads (v : Venue ω) (a a' : App ω) : Prop := ∃ t, (machine v).Run a t a' ∧ polled t = []

namespace Leads

theorem trans (h : Leads v a a') (h' : Leads v a' a'') : Leads v a a'' := by
  obtain ⟨t, run, unpolled⟩ := h
  obtain ⟨t', run', unpolled'⟩ := h'
  exact ⟨t ++ t', run.trans run', by rw [polled_append, unpolled, unpolled', List.append_nil]⟩

theorem act (unblocked : a.isBlocked = false) (undecided : a.scene.isDeciding = false) :
    Leads v a ((machine v).episode .interface a).after := by
  refine ⟨_, .single Turn.interface (by simp [machine, take?, unblocked]), ?_⟩
  rw [polled, List.filterMap_cons_none (polled?_of_undecided undecided), List.filterMap_nil]

theorem of_pump {t : List (Pump.Entry Unit Unit Unit ω)} {y z : Pump Unit Unit Unit × ω}
    (run : (Pump.machine v.surroundings).Run y t z) (alone : ∀ e ∈ t, e.move.isAdvance) :
    Leads v { a with pump := y.1, world := y.2 } { a with pump := z.1, world := z.2 } := by
  induction run with
  | start => exact ⟨[], .start, rfl⟩
  | @next t z m _ _ ih =>
    obtain ⟨earlier, last⟩ := List.forall_mem_append.1 alone
    obtain ⟨due, rfl⟩ := Pump.Move.eq_advance (last _ (List.mem_singleton_self _))
    exact (ih earlier).trans ⟨_, .single (Turn.pump due) rfl, rfl⟩

end Leads

section Turns

variable (untiring : v.surroundings.Untiring good)

include untiring

theorem exists_counting (h : Pump.Between good k (a.pump, a.world)) (le : k ≤ n)
    (small : n < UInt64.size) :
    ∃ p w, Leads v a { a with pump := p, world := w } ∧ Pump.Between good n (p, w) := by
  obtain ⟨t, ⟨p, w⟩, run, alone, between⟩ := h.exists_run untiring le small
  exact ⟨p, w, .of_pump run alone, between⟩

theorem exists_reading (kept : ∀ w, good w → good (v.collect w).2)
    (h : Pump.Between good k (a.pump, a.world)) (le : k ≤ n) (small : n < UInt64.size) :
    ∃ a' : App ω, Leads v (a.enter .draining) (a'.enter (.deciding n)) ∧
      Pump.Between good n (a'.pump, a'.world) ∧ a'.schedule = a.schedule := by
  obtain ⟨p, w, counts, between⟩ := exists_counting (a := a.enter .draining) untiring h le small
  let c : App ω := { a with pump := p, world := w }
  let b : App ω := c.drain v
  have drained : Leads v (c.enter .draining) (b.enter .checking) := .act rfl rfl
  have checked : Leads v (b.enter .checking)
      (b.enter (if p.running then .counting else .stopping)) := .act rfl rfl
  rw [between.rolls.running, if_pos rfl] at checked
  have read : Leads v (b.enter .counting) (b.enter (.deciding p.frames.toNat)) := .act rfl rfl
  rw [between.frames] at read
  exact ⟨b, ((counts.trans drained).trans checked).trans read,
    between.withWorld (kept w between.rolls.good), rfl⟩

theorem exists_picked {roms : List Path} (h : Pump.Between good k (a.pump, a.world)) :
    ∃ a' : App ω, Leads v (a.enter (.picking roms)) (a'.enter .draining) ∧
      Pump.Between good k (a'.pump, a'.world) ∧ a'.schedule = a.schedule := by
  induction roms generalizing a with
  | nil => exact ⟨a, .act rfl rfl, h, rfl⟩
  | cons rom roms ih =>
    let b := a.asking v (.pick (.picked rom)) (.telling roms)
    let c := b.asking v (.notify 0) (.picking roms)
    have picks : Leads v (a.enter (.picking (rom :: roms))) b :=
      .act (by simp [isBlocked, enter, h.isRendering]) rfl
    have tells : Leads v b c := .act rfl rfl
    have asked := h.serve untiring
      (Pump.serves v.surroundings (m := .pick (.picked rom)) Bool.false_ne_true _) rfl
    have told := asked.serve untiring
      (Pump.serves v.surroundings (m := .notify 0) Bool.false_ne_true _) rfl
    obtain ⟨a', later, between, schedule⟩ := ih (a := c) told
    exact ⟨a', (picks.trans tells).trans later, between, schedule⟩

theorem exists_marking (visible : a.options.size.isVisible = true)
    (h : Pump.Between good k (a.pump, a.world)) (le : k ≤ n) (small : n < UInt64.size) :
    ∃ a' : App ω, Leads v (a.enter .opening) (a'.enter .marking) ∧
      Pump.Between good n (a'.pump, a'.world) ∧ a'.schedule = a.schedule := by
  let b : App ω := { a with pump := a.pump.withSize a.options.size }
  have turn : ((machine v).episode .interface (a.enter .opening)).after = b.enter .marking :=
    resize_of_visible visible .marking (a.enter .opening)
  have opens := Leads.act (v := v) (a := a.enter .opening)
    (by simp [isBlocked, enter, h.isRendering]) rfl
  rw [turn] at opens
  obtain ⟨p, w, counts, between⟩ :=
    exists_counting (a := b.enter .marking) untiring (h.withSize _) le small
  exact ⟨{ b with pump := p, world := w }, opens.trans counts, between, rfl⟩

end Turns

/-- The run has polled `u`, and the pump stands between two frames. -/
structure Stands (v : Venue ω) (good : ω → Prop) (b : App ω) (first : Nat) (u : List Poll)
    (s : ResizeSchedule) (k : Nat) (a : App ω) : Prop where
  run : ∃ t, (machine v).Run b t a ∧ (∃ m ∈ t, Marks first m) ∧
    polled t = u.map fun e => (e.move, e.answer)
  schedule : a.schedule = s
  between : Pump.Between good k (a.pump, a.world)

namespace Stands

theorem leads (h : Stands v good b first u s k a) (leads : Leads v a a')
    (between : Pump.Between good n (a'.pump, a'.world)) (same : a'.schedule = a.schedule) :
    Stands v good b first u s n a' := by
  obtain ⟨t, run, ⟨m, hm, marks⟩, polled⟩ := h.run
  obtain ⟨t', later, unpolled⟩ := leads
  refine ⟨⟨t ++ t', run.trans later, ⟨m, List.mem_append_left _ hm, marks⟩, ?_⟩,
    same.trans h.schedule, between⟩
  rw [polled_append, polled, unpolled, List.append_nil]

theorem poll (h : Stands v good b first u s n (a.enter (.deciding n)))
    (unblocked : (a.enter (.deciding n)).isBlocked = false)
    (turn : ((machine v).episode .interface (a.enter (.deciding n))).after = a')
    (same : a'.schedule = (loop.episode n ⟨s, false⟩).after.schedule)
    (between : Pump.Between good n (a'.pump, a'.world)) :
    Stands v good b first (u ++ [loop.episode n ⟨s, false⟩])
      (loop.episode n ⟨s, false⟩).after.schedule n a' := by
  obtain ⟨t, run, ⟨m, hm, marks⟩, polled⟩ := h.run
  have next := run.next Turn.interface (by simp [machine, take?, unblocked])
  rw [turn] at next
  refine ⟨⟨_, next, ⟨m, List.mem_append_left _ hm, marks⟩, ?_⟩, same, between⟩
  have decides : polled? ((machine v).episode .interface (a.enter (.deciding n))) =
      some (n, s.decide n) := by
    rw [← h.schedule]
    rfl
  rw [polled_concat, polled, decides, ← ResizeSchedule.answer_poll, List.map_append]
  rfl

section Turns

variable (untiring : v.surroundings.Untiring good)

include untiring

theorem exists_first (led : Leads v b (a.enter .marking))
    (h : Pump.Between good first (a.pump, a.world)) (small : first + 2 < UInt64.size) :
    ∃ a' : App ω, Stands v good b first []
      { a.schedule with settledAt := ResizeSchedule.settle first } first (a'.enter .draining) := by
  obtain ⟨t, run, unpolled⟩ := led
  obtain rfl : a.pump.frames.toNat = first := h.frames
  let settled : ResizeSchedule :=
    { a.schedule with settledAt := ResizeSchedule.settle a.pump.frames.toNat }
  let c : App ω := { a with schedule := settled.wrap }
  let next : Scene := if a.options.cancelPick then .dismissing else .picking a.options.roms
  have marks : (machine v).Run b _ (c.enter next) := run.next Turn.interface rfl
  have unpolled' : polled (t ++ [(machine v).episode .interface (a.enter .marking)]) = [] := by
    rw [polled_concat, unpolled]
    rfl
  have marked : Stands v good b a.pump.frames.toNat [] c.schedule a.pump.frames.toNat
      (c.enter next) :=
    ⟨⟨_, marks, ⟨_, List.mem_append_right t (List.mem_singleton_self _), rfl, rfl, rfl⟩,
      unpolled'⟩, rfl, h⟩
  have dismissed : Leads v (c.enter next) (c.enter (.picking a.options.roms)) := by
    dsimp only [next]
    cases a.options.cancelPick with
    | true => exact .act rfl rfl
    | false => exact ⟨[], .start, rfl⟩
  obtain ⟨a', picks, between, same⟩ := exists_picked (a := c) untiring h
  have stands := marked.leads (dismissed.trans picks) between same
  rw [show c.schedule = settled from settled.wrap_eq small] at stands
  exact ⟨a', stands⟩

variable (kept : ∀ w, good w → good (v.collect w).2)

include kept

theorem exists_next (h : Stands v good b first u s k (a.enter .draining))
    (visible : ∀ z ∈ s.resizes, z.isVisible = true) (goes : s.decide n ≠ .finish)
    (le : k ≤ n) (small : n + 2 < UInt64.size) :
    ∃ a' : App ω, Stands v good b first (u ++ [loop.episode n ⟨s, false⟩])
      (loop.episode n ⟨s, false⟩).after.schedule n (a'.enter .draining) := by
  obtain ⟨a', reads, between, same⟩ :=
    exists_reading untiring kept h.between le (Nat.lt_of_add_right_lt small)
  have deciding := h.leads reads between same
  obtain rfl : a'.schedule = s := deciding.schedule
  cases hd : a'.schedule.decide n with
  | finish => exact absurd hd goes
  | apply z =>
    have next := (ResizeSchedule.decide_eq_apply.1 hd).1
    have shown := visible z (List.mem_of_getElem? next)
    have unblocked : (a'.enter (.deciding n)).isBlocked = false := by
      simp [isBlocked, enter, hd, between.isRendering]
    exact ⟨{ a' with
        pump := a'.pump.withSize z
        schedule := (loop.episode n ⟨a'.schedule, false⟩).after.schedule },
      deciding.poll unblocked (after_of_apply hd shown small) rfl (between.withSize z)⟩
  | wait =>
    have unblocked : (a'.enter (.deciding n)).isBlocked = false := by simp [isBlocked, enter, hd]
    refine ⟨a', deciding.poll unblocked (after_of_wait hd) ?_ between⟩
    rw [ResizeSchedule.episode_of_wait _ hd]
    rfl

theorem exists_stands (run : loop.Run (opened o first) u x) (goes : x.finished = false)
    (steady : Steady (first :: u.map (·.move))) (visible : ∀ z ∈ o.resizes, z.isVisible = true)
    (begun : ∃ a : App ω, Stands v good b first [] (opened o first).schedule first
      (a.enter .draining)) :
    ∃ k ∈ first :: u.map (·.move), ∃ a : App ω,
      Stands v good b first u x.schedule k (a.enter .draining) := by
  induction run with
  | start => exact ⟨first, List.mem_cons_self, begun⟩
  | @next u x n earlier allowed ih =>
    obtain ⟨s, finished⟩ := x
    obtain rfl : finished = false := by simpa [loop] using allowed
    have last : n ∈ first :: (u ++ [loop.episode n ⟨s, false⟩]).map (·.move) := by
      rw [List.map_append]
      exact List.mem_cons_of_mem first (List.mem_append_right _ (List.mem_singleton_self n))
    have small := steady.fits n last
    rw [List.map_append, ← List.cons_append] at steady
    obtain ⟨k, hk, a, stands⟩ := ih rfl steady.left
    have continues : s.decide n ≠ .finish := by
      intro hd
      rw [ResizeSchedule.episode_of_finish s hd] at goes
      cases goes
    have same : s.resizes = o.resizes := (ResizeSchedule.Follows.of_run earlier).resizes
    obtain ⟨a', next⟩ := exists_next untiring kept stands (same ▸ visible) continues
      (steady.le_last hk) small
    exact ⟨n, last, a', next⟩

end Turns

end Stands

theorem exists_opening (read : Path → Except String ByteArray) (never : o.failEvery = none) :
    ∃ a : App Stage, Leads (Stage.venue read o.failEvery) (start o {}) (a.enter .opening) ∧
      a.options = o ∧ a.schedule = (start o ({} : Stage)).schedule ∧
        Pump.Between Stage.Flawless 0 (a.pump, a.world) := by
  rw [never]
  let next (a : App Stage) := ((machine (Stage.venue read none)).episode (.pump true) a).after
  have step (a : App Stage) : Leads (Stage.venue read none) a (next a) :=
    ⟨_, .single (Turn.pump true) rfl, rfl⟩
  exact ⟨next (next (next (start o {}))), ((step _).trans (step _)).trans (step _), rfl, rfl,
    ⟨rfl, ⟨_, rfl⟩, rfl, rfl, rfl, rfl⟩, rfl⟩

/-- A run of a software core that never fails comes to decide by any count, after any other counts,
as long as they do not go down. -/
theorem exists_deciding (read : Path → Except String ByteArray) (visible : o.Visible)
    (never : o.failEvery = none) (run : loop.Run (opened o first) u x) (goes : x.finished = false)
    (steady : Steady (first :: (u.map (·.move) ++ [n]))) :
    ∃ t a, (machine (Stage.venue read o.failEvery)).Run (start o {}) t a ∧
      a.scene = .deciding n ∧ a.schedule = x.schedule ∧ (∃ m ∈ t, Marks first m) ∧
        polled t = u.map fun e => (e.move, e.answer) := by
  obtain ⟨a, begins, options, schedule, between⟩ := exists_opening read never
  rw [never] at begins ⊢
  have untiring := Stage.untiring read
  have kept (w : Stage) (fine : w.Flawless) : ((Stage.venue read none).collect w).2.Flawless := fine
  rw [← List.cons_append] at steady
  obtain ⟨b, opens, marking, same⟩ := exists_marking untiring (options ▸ visible.size) between
    (Nat.zero_le first) (steady.lt List.mem_cons_self)
  obtain ⟨c, begun⟩ := Stands.exists_first untiring (begins.trans opens) marking
    (steady.fits first List.mem_cons_self)
  rw [same, schedule] at begun
  obtain ⟨k, hk, d, stands⟩ :=
    Stands.exists_stands untiring kept run goes steady.left visible.resizes ⟨c, begun⟩
  obtain ⟨e, reads, between, same⟩ := exists_reading untiring kept stands.between
    (steady.le_last hk) (steady.lt (List.mem_append_right _ (List.mem_singleton_self n)))
  have deciding := stands.leads reads between same
  obtain ⟨t, run, marked, polled⟩ := deciding.run
  exact ⟨t, _, run, rfl, deciding.schedule, marked, polled⟩

end App

end EmulatorHost.Headless
