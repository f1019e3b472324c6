import EmulatorHost.Proofs.Headless.History
import EmulatorHost.Proofs.Pump.Life

/-! For the pump of a headless run the interface is one more host, and what that does with the
mailbox is none of its business. -/

namespace EmulatorHost

section Mirrors

variable {κ σ η ω ω' : Type} {f : ω → ω'} {s : Surroundings κ σ η ω} {s' : Surroundings κ σ η ω'}

def Recorded.mapWorld (f : ω → ω') (r : Recorded κ σ η ω) : Recorded κ σ η ω' :=
  ⟨f r.world, r.activity⟩

theorem Surroundings.Mirrors.recorded (h : s.Mirrors f s') :
    s.recorded.Mirrors (Recorded.mapWorld f) s'.recorded := by
  constructor <;> intros <;>
    simp [Surroundings.recorded, Recorded.call, Recorded.note, Recorded.mapWorld, Prod.map,
      h.createCore, h.runFrame, h.setOutputSize, h.loadRom, h.drop, h.deliver, h.release]

theorem Pump.episode_mirror (h : s.Mirrors f s') (m : Move η) (p : Pump κ σ η) (w : ω) :
    let e := (machine s).episode m (p, w)
    (machine s').episode m (p, f w) =
      ⟨(p, f w), m, e.answer, e.calls, (e.after.1, f e.after.2)⟩ := by
  have same := Pump.perform_mirror h.recorded m p ⟨w, []⟩
  simp only [Machine.episode, machine]
  rw [show (⟨f w, []⟩ : Recorded κ σ η ω') = Recorded.mapWorld f ⟨w, []⟩ from rfl, same]
  rfl

end Mirrors

theorem Pump.episode_resize {κ σ η ω : Type} (s : Surroundings κ σ η ω) {z : Size}
    (visible : z.isVisible = true) (p : Pump κ σ η) (w : ω) :
    ((machine s).episode (.resize z) (p, w)).calls = [] ∧
      ((machine s).episode (.resize z) (p, w)).after = (p.withSize z, w) := by
  simp [Machine.episode, machine, perform, setDrawableSize, visible, withSize,
    Coordinator.setDrawableSize]

theorem Pump.episode_resize_hidden {κ σ η ω : Type} (s : Surroundings κ σ η ω) {z : Size}
    (hidden : z.isVisible = false) (p : Pump κ σ η) (w : ω) :
    ((machine s).episode (.resize z) (p, w)).calls = [] ∧
      ((machine s).episode (.resize z) (p, w)).after = (p, w) := by
  simp [Machine.episode, machine, perform, setDrawableSize, hidden]

namespace Headless.App

variable {ω ω' : Type} {v : Venue ω} {a a' b : App ω} {t : List (Entry ω)} {e : Entry ω}
  {calls : List (Activity Unit Unit Unit)} {f : ω → ω'} {m : Pump.Move Unit}

theorem Acts.asks (h : Acts v a calls a') :
    (∃ m, a.move? = some m ∧ calls = (a.pumpEpisode v m).calls ∧
      (a'.pump, a'.world) = (a.pumpEpisode v m).after ∧ a'.tally = a.tally) ∨
    a.move? = none ∧ calls = [] ∧ a'.pump = a.pump ∧
      ((a'.world, a'.tally) = (a.world, a.tally) ∨
        (a'.world, a'.tally) = ((a.drain v).world, (a.drain v).tally)) := by
  cases h with
  | opened h visible =>
    have same := Pump.episode_resize v.surroundings visible a.pump a.world
    exact .inl ⟨_, by simp only [move?, h], same.1.symm, same.2.symm, rfl⟩
  | applied h hd visible =>
    have same := Pump.episode_resize v.surroundings visible a.pump a.world
    exact .inl ⟨_, by simp only [move?, h, hd], same.1.symm, same.2.symm, rfl⟩
  | refused h hidden =>
    have same := Pump.episode_resize_hidden v.surroundings hidden a.pump a.world
    exact .inl ⟨_, h, same.1.symm, same.2.symm, rfl⟩
  | picked h | told h => exact .inl ⟨_, by simp only [move?, h], rfl, rfl, rfl⟩
  | stopped h => exact .inl ⟨.stop, by simp only [move?, h], rfl, rfl, rfl⟩
  | drained h | collected h => exact .inr ⟨by simp only [move?, h], rfl, rfl, .inr rfl⟩
  | ended h hd | waited h hd => exact .inr ⟨by simp only [move?, h, hd], rfl, rfl, .inl rfl⟩
  | marked h | dismissed h | settled h | checked h | read h | joined h =>
    exact .inr ⟨by simp only [move?, h], rfl, rfl, .inl rfl⟩

theorem isBlocked_of_move? (h : a.move? = some m) : a.isBlocked = !a.pump.allows m := by
  obtain ⟨options, pump, world, scene, schedule, tally⟩ := a
  cases scene with
  | opening =>
    obtain rfl := Option.some.inj h
    simp [isBlocked, Pump.allows, Pump.Move.needsCoordinator, Bool.and_comm]
  | picking roms =>
    cases roms with
    | nil => cases h
    | cons rom roms =>
      obtain rfl := Option.some.inj h
      simp [isBlocked, Pump.allows, Pump.Move.needsCoordinator, Bool.and_comm]
  | deciding n =>
    simp only [move?] at h
    cases hd : schedule.decide n with
    | apply z =>
      rw [hd] at h
      obtain rfl := Option.some.inj h
      simp [isBlocked, hd, Pump.allows, Pump.Move.needsCoordinator, Bool.and_comm]
    | finish | wait => simp [hd] at h
  | telling | stopping =>
    obtain rfl := Option.some.inj h
    rfl
  | _ => cases h

theorem host_of_move? (h : a.move? = some m) :
    ¬ m.isAdvance ∧ m.changesSubscriber = false := by
  obtain ⟨options, pump, world, scene, schedule, tally⟩ := a
  cases scene with
  | picking roms =>
    cases roms with
    | nil => cases h
    | cons rom roms =>
      cases h
      exact ⟨Bool.false_ne_true, rfl⟩
  | deciding n =>
    simp only [move?] at h
    split at h <;> cases h
    exact ⟨Bool.false_ne_true, rfl⟩
  | _ => cases h <;> exact ⟨Bool.false_ne_true, rfl⟩

/-- The pump's own run, in which the interface is a host that stays subscribed. -/
structure Pumped (s : Surroundings Unit Unit Unit ω') (f : ω → ω') (b : App ω) (t : List (Entry ω))
    (a : App ω) (u : List (Pump.Entry Unit Unit Unit ω')) : Prop where
  run : (Pump.machine s).Run (b.pump, f b.world) u (a.pump, f a.world)
  calls : u.flatMap (·.calls) = t.flatMap (·.calls)
  listens : ∀ e ∈ u, e.move.changesSubscriber = false

namespace Pumped

variable {s : Surroundings Unit Unit Unit ω'} {u : List (Pump.Entry Unit Unit Unit ω')}

theorem idle (h : Pumped s f b t a u) (silent : e.calls = []) (pump : a'.pump = a.pump)
    (world : f a'.world = f a.world) : Pumped s f b (t ++ [e]) a' u where
  run := by
    rw [pump, world]
    exact h.run
  calls := by rw [h.calls, List.flatMap_append, List.flatMap_singleton, silent, List.append_nil]
  listens := h.listens

theorem next (h : Pumped s f b t a u) (mirrors : v.surroundings.Mirrors f s)
    (allowed : a.pump.allows m = true) (listens : m.changesSubscriber = false)
    (called : e.calls = (a.pumpEpisode v m).calls)
    (after : (a'.pump, a'.world) = (a.pumpEpisode v m).after) :
    ∃ u, Pumped s f b (t ++ [e]) a' u := by
  have same := Pump.episode_mirror mirrors m a.pump a.world
  have run := h.run.next m allowed
  refine ⟨u ++ [(Pump.machine s).episode m (a.pump, f a.world)], ?_, ?_, fun e he => ?_⟩
  · rw [show a'.pump = (a.pumpEpisode v m).after.1 from congrArg Prod.fst after,
      show a'.world = (a.pumpEpisode v m).after.2 from congrArg Prod.snd after]
    rw [same] at run ⊢
    exact run
  · rw [List.flatMap_append, List.flatMap_append, h.calls, List.flatMap_singleton,
      List.flatMap_singleton, called, same]
    rfl
  · rcases List.mem_append.1 he with earlier | last
    · exact h.listens e earlier
    · rw [List.mem_singleton.1 last]
      exact listens

theorem of_run (mirrors : v.surroundings.Mirrors f s) (kept : ∀ w, f (v.collect w).2 = f w)
    (run : (machine v).Run b t a) : ∃ u, Pumped s f b t a u := by
  induction run with
  | start => exact ⟨[], .start, rfl, List.forall_mem_nil _⟩
  | @next t a m _ allowed ih =>
    obtain ⟨u, h⟩ := ih
    cases m with
    | pump due => exact h.next (m := .advance due) mirrors rfl rfl rfl rfl
    | interface =>
      have unblocked := unblocked_of_allows allowed
      rcases (acts v a unblocked).asks with ⟨m, asked, called, after, -⟩ | ⟨-, silent, pump, mail⟩
      · rw [isBlocked_of_move? asked, Bool.not_eq_false'] at unblocked
        exact h.next mirrors unblocked (host_of_move? asked).2 called after
      · refine ⟨u, h.idle silent pump ?_⟩
        rcases mail with same | emptied
        · rw [(Prod.mk.inj same).1]
        · rw [(Prod.mk.inj emptied).1]
          exact kept a.world

end Pumped

end Headless.App

end EmulatorHost
