import EmulatorHost.Headless.CommandLine
import EmulatorHost.Proofs.Headless.FrameCount
import EmulatorHost.Proofs.Pump.Sizes

/-! For the first size the frame count is read after the size was reported, for the others it was
read before. -/

namespace EmulatorHost.Headless

def Stage.coreSize (s : Stage) : Size := s.screen.core.size

theorem Stage.takesSizes (read : Path → Except String ByteArray) (failEvery : Option UInt64) :
    (venue read failEvery).surroundings.TakesSizes coreSize where
  setOutputSize _ _ _ := ⟨rfl, rfl⟩
  runFrame _ _ w := w.screen.size_runFrame
  loadRom _ path w := w.screen.core.size_load (read path)
  drop _ _ := rfl
  deliver _ _ _ := rfl
  release _ _ := rfl

namespace App

variable {ω : Type} {v : Venue ω} {size : ω → Size} {a a' b : App ω} {t : List (Entry ω)}
  {e : Entry ω} {calls : List (Activity Unit Unit Unit)} {n : Nat} {z : Size}
  {o : Options} {w : ω}

def decision? (a : App ω) : Option Decision :=
  match a.scene with
  | .deciding n => some (a.schedule.decide n)
  | _ => none

theorem decision?_eq_some {d : Decision} :
    a.decision? = some d ↔ ∃ n, a.scene = .deciding n ∧ a.schedule.decide n = d := by
  cases hs : a.scene <;> simp [decision?, hs]

def Applies (z : Size) (e : Entry ω) : Prop :=
  e.move = .interface ∧ e.before.decision? = some (.apply z)

def Finishes (e : Entry ω) : Prop := e.move = .interface ∧ e.before.decision? = some .finish

def Decides (e : Entry ω) : Prop := e.move = .interface ∧ ∃ d ∈ e.before.decision?, d ≠ .wait

instance : Decidable (Applies z e) := inferInstanceAs (Decidable (_ ∧ _))

instance : Decidable (Finishes e) := inferInstanceAs (Decidable (_ ∧ _))

instance : Decidable (Decides e) := inferInstanceAs (Decidable (_ ∧ _))

theorem settled_of_decides (h : Decides e) :
    ∃ n, e.before.scene = .deciding n ∧ e.before.schedule.settledAt ≤ n := by
  obtain ⟨-, d, hd, decided⟩ := h
  obtain ⟨n, hs, rfl⟩ := decision?_eq_some.1 hd
  refine ⟨n, hs, ?_⟩
  unfold ResizeSchedule.decide at decided
  split at decided <;> split at decided
  · rename_i reached
    exact reached.1
  · exact absurd rfl decided
  · rename_i reached
    exact reached.2
  · exact absurd rfl decided

theorem Polls.ne_opening (h : Polls v a calls a') (opened : a.scene ≠ .opening) :
    a'.scene ≠ .opening := by
  have later {s : Scene} (early : s.isEarly = false) : s ≠ .opening := by
    rintro rfl
    cases early
  cases h with
  | opened h => exact absurd h opened
  | marked _ early | ran _ _ _ early | passed _ _ early => exact later early
  | read | applied | refused => nofun

theorem Polls.quiet (h : Polls v a calls a') (opened : a.scene ≠ .opening)
    (undecided : ¬ Decides ⟨a, .interface, (), calls, a'⟩) :
    a'.pump.coordinator.drawable = a.pump.coordinator.drawable ∧
      (a.scene.isEarly = false →
        a'.scene.isEarly = false ∧ a'.schedule.settledAt = a.schedule.settledAt) := by
  cases h with
  | opened h => exact absurd h opened
  | marked h => exact ⟨rfl, by simp [h, Scene.isEarly]⟩
  | ran he _ _ early =>
    have step := Pump.serves v.surroundings he.not_isAdvance (a.pump, a.world)
    exact ⟨step.drawable he.ne_resize, fun _ => ⟨early, rfl⟩⟩
  | read => exact ⟨rfl, fun _ => ⟨rfl, rfl⟩⟩
  | applied h hd => exact absurd ⟨rfl, _, decision?_eq_some.2 ⟨_, h, hd⟩, nofun⟩ undecided
  | refused h =>
    rcases h with h | ⟨n, z, h, hd⟩
    · exact absurd h opened
    · exact absurd ⟨rfl, _, decision?_eq_some.2 ⟨n, h, hd⟩, nofun⟩ undecided
  | passed _ _ early => exact ⟨rfl, fun _ => ⟨early, rfl⟩⟩

theorem quiet_induction {Q : List (Entry ω) → App ω → Prop} (start : Q [] b)
    (pumped : ∀ {t a due calls p w}, Q t a →
      Pump.Advances v.surroundings due (a.pump, a.world) calls (p, w) →
      Q (t ++ [⟨a, .pump due, (), calls, { a with pump := p, world := w }⟩])
        { a with pump := p, world := w })
    (polled : ∀ {t a calls a'}, Q t a → Polls v a calls a' →
      ¬ Decides ⟨a, .interface, (), calls, a'⟩ → Q (t ++ [⟨a, .interface, (), calls, a'⟩]) a')
    (run : (machine v).Run b t a) (quiet : ∀ e ∈ t, ¬ Decides e) : Q t a := by
  refine run_induction (Q := fun t a => (∀ e ∈ t, ¬ Decides e) → Q t a) ?_ ?_ ?_ run quiet
  · exact fun _ => start
  · exact fun ih step quiet => pumped (ih fun e he => quiet e (List.mem_append_left _ he)) step
  · intro t a calls a' ih _ poll quiet
    exact polled (ih fun e he => quiet e (List.mem_append_left _ he)) poll (quiet _ (by simp))

theorem settled_of_run (run : (machine v).Run b t a) (begun : b.scene.isEarly = false)
    (quiet : ∀ e ∈ t, ¬ Decides e) : a.schedule.settledAt = b.schedule.settledAt := by
  refine (quiet_induction (Q := fun _ a => a.scene.isEarly = false ∧
    a.schedule.settledAt = b.schedule.settledAt) ⟨begun, rfl⟩ ?_ ?_ run quiet).2
  · exact fun ih _ => ih
  · rintro t a calls a' ⟨begun, same⟩ poll undecided
    have opened : a.scene ≠ .opening := by
      intro h
      simp [h, Scene.isEarly] at begun
    obtain ⟨-, kept⟩ := poll.quiet opened undecided
    exact ⟨(kept begun).1, (kept begun).2.trans same⟩

theorem finished_of_run {r : Except RunError Report} (run : (machine v).Run b t a)
    (ended : b.scene = .finished r) : a.scene = .finished r := by
  refine run_induction (Q := fun _ a => a.scene = .finished r) ended ?_ ?_ run
  · exact fun ended _ => ended
  · intro t a calls a' ended unblocked _
    simp [isBlocked, ended] at unblocked

section Sizes

variable (takes : v.surroundings.TakesSizes size) (kept : ∀ w, size (v.collect w).2 = size w)

include takes kept

theorem Polls.fitted (h : Polls v a calls a') (fitted : Pump.Fitted size (a.pump, a.world)) :
    Pump.Fitted size (a'.pump, a'.world) := by
  cases h with
  | opened | applied => exact fitted.withSize _
  | ran he =>
    exact fitted.serve takes (Pump.serves v.surroundings he.not_isAdvance (a.pump, a.world))
  | passed _ _ _ _ hw =>
    rcases hw with rfl | rfl
    · exact fitted
    · exact fitted.imp_right fun later => ⟨later.1, (kept a.world).trans later.2⟩
  | marked | read | refused => exact fitted

theorem fitted_of_run (run : (machine v).Run (start o w) t a) :
    a.scene = .opening ∧ a.pump.coordinator.drawable = {} ∨ (∃ r, a.scene = .finished r) ∨
      Pump.Fitted size (a.pump, a.world) := by
  refine turn_induction (Q := fun _ a => a.scene = .opening ∧ a.pump.coordinator.drawable = {} ∨
    (∃ r, a.scene = .finished r) ∨ Pump.Fitted size (a.pump, a.world)) (.inl ⟨rfl, rfl⟩) ?_ ?_ run
  · rintro t a due calls p w - (⟨opening, untold⟩ | ended | fitted) step
    · have same := step.drawable_of_told (by rw [untold])
      exact .inl ⟨opening, same.trans untold⟩
    · exact .inr (.inl ended)
    · exact .inr (.inr (fitted.advance takes step))
  · rintro t a calls a' - (⟨opening, untold⟩ | ⟨r, ended⟩ | fitted) unblocked act
    · rcases act.of_opening opening with ⟨visible, rfl⟩ | ⟨schedule, rfl⟩
      · refine .inr (.inr (.inl ?_))
        have changed : Size.zero ≠ a.options.size := by
          intro same
          rw [← same] at visible
          cases visible
        simp [Pump.withSize, untold, Drawable.set, changed]
      · exact .inr (.inl ⟨_, rfl⟩)
    · simp [isBlocked, ended] at unblocked
    · exact .inr (.inr (act.polls.fitted takes kept fitted))

end Sizes

def drawnAt (size : ω → Size) (z : Size) (t : List (Entry ω)) : Nat :=
  drawn (t.filter fun e => size e.after.world = z)

theorem drawnAt_append (z : Size) (t t' : List (Entry ω)) :
    drawnAt size z (t ++ t') = drawnAt size z t + drawnAt size z t' := by
  rw [drawnAt, List.filter_append, drawn_append]
  rfl

theorem drawnAt_singleton
    (fits : e.calls.filterMap Activity.rendered? ≠ [] → size e.after.world = z) :
    drawnAt size z [e] = drawn [e] := by
  by_cases same : size e.after.world = z
  · simp [drawnAt, same]
  · have silent := Classical.not_not.1 (mt fits same)
    rw [drawn_quiet silent]
    simp [drawnAt, same]
    rfl

theorem drawnAt_of_run (takes : v.surroundings.TakesSizes size)
    (kept : ∀ w, size (v.collect w).2 = size w) (run : (machine v).Run b t a)
    (opened : b.scene ≠ .opening) (fitted : Pump.Fitted size (b.pump, b.world))
    (latest : b.pump.coordinator.drawable.size = z) (quiet : ∀ e ∈ t, ¬ Decides e) :
    drawnAt size z t = drawn t := by
  refine (quiet_induction (Q := fun t a => drawnAt size z t = drawn t ∧ a.scene ≠ .opening ∧
    Pump.Fitted size (a.pump, a.world) ∧ a.pump.coordinator.drawable.size = z)
    ⟨rfl, opened, fitted, latest⟩ ?_ ?_ run quiet).1
  · rintro t a due calls p w ⟨same, opened, fitted, latest⟩ step
    refine ⟨?_, opened, fitted.advance takes step, step.drawable_size.trans latest⟩
    rw [drawnAt_append, drawn_append, same,
      drawnAt_singleton fun drew => (fitted.frame takes step drew).trans latest]
  · rintro t a calls a' ⟨same, opened, fitted, latest⟩ poll undecided
    have unchanged := (poll.quiet opened undecided).1
    have silent := poll.untouched.2
    refine ⟨?_, poll.ne_opening opened, poll.fitted takes kept fitted,
      (congrArg _ unchanged).trans latest⟩
    rw [drawnAt_append, drawn_append, same, drawnAt_singleton fun drew => absurd silent drew]

theorem marking_of_run (run : (machine v).Run b t a) (hb : b.scene = .marking)
    (begun : a.scene.isEarly = false) :
    ∃ before m after, t = before ++ m :: after ∧ m.move = .interface ∧
      m.before.scene = .marking := by
  refine (run_induction (Q := fun t a => a.scene ≠ .opening ∧ (a.scene.isEarly = false →
    ∃ before m after, t = before ++ m :: after ∧ m.move = .interface ∧
      m.before.scene = .marking)) ?_ ?_ ?_ run).2 begun
  · exact ⟨by simp [hb], by simp [hb, Scene.isEarly]⟩
  · rintro t a due calls p w ⟨opened, marked⟩ -
    refine ⟨opened, fun begun => ?_⟩
    obtain ⟨before, m, after, rfl, hm⟩ := marked begun
    exact ⟨before, m, after ++ _, List.append_assoc .., hm⟩
  · rintro t a calls a' ⟨opened, marked⟩ - poll
    refine ⟨poll.ne_opening opened, fun _ => ?_⟩
    cases early : a.scene.isEarly with
    | false =>
      obtain ⟨before, m, after, rfl, hm⟩ := marked early
      exact ⟨before, m, after ++ _, List.append_assoc .., hm⟩
    | true =>
      refine ⟨t, ⟨a, .interface, (), calls, a'⟩, [], rfl, rfl, ?_⟩
      dsimp only
      cases hs : a.scene with
      | opening => exact absurd hs opened
      | marking => rfl
      | _ => simp [hs, Scene.isEarly] at early

theorem Acts.marks (h : Acts v a calls a') (hs : a.scene = .marking)
    (small : a.pump.frames.toNat + 2 < UInt64.size) :
    a'.schedule.settledAt = a'.pump.frames.toNat + 2 ∧ a'.scene.isEarly = false ∧
      a'.scene.isDeciding = false := by
  rw [h.of_marking hs]
  refine ⟨Nat.mod_eq_of_lt small, ?_⟩
  dsimp only
  split <;> exact ⟨rfl, rfl⟩

theorem not_finished_of_decides {f : Entry ω} {r : Except RunError Report}
    (run : (machine v).Run b t f.before) (decides : Decides f) : b.scene ≠ .finished r := by
  intro ended
  obtain ⟨n, hs, -⟩ := settled_of_decides decides
  cases hs.symm.trans (finished_of_run run ended)

section Rendered

variable {before middle after : List (Entry ω)} {f : Entry ω}
  (takes : v.surroundings.TakesSizes size) (kept : ∀ w, size (v.collect w).2 = size w)

include takes kept

theorem fitted_after (run : (machine v).Run (start o w) (before ++ e :: after) a)
    (opened : e.after.scene ≠ .opening) (live : ∀ r, e.after.scene ≠ .finished r) :
    Pump.Fitted size (e.after.pump, e.after.world) := by
  rcases fitted_of_run takes kept run.through with ⟨opening, -⟩ | ⟨r, ended⟩ | fitted
  · exact absurd opening opened
  · exact absurd ended (live r)
  · exact fitted

theorem first_size_rendered
    (run : (machine v).Run (start o w) (before ++ e :: (middle ++ f :: after)) a)
    (small : ∀ n ∈ readings (before ++ e :: (middle ++ f :: after)), n + 2 < UInt64.size)
    (turn : e.move = .interface) (opening : e.before.scene = .opening)
    (quiet : ∀ g ∈ middle, ¬ Decides g) (decides : Decides f) :
    1 ≤ drawnAt size o.size middle := by
  obtain ⟨first, -, -, later⟩ := run.split
  obtain ⟨mid, -⟩ := later.split
  obtain ⟨n, hs, settled⟩ := settled_of_decides decides
  have begun : f.before.scene.isEarly = false := by simp [hs, Scene.isEarly]
  obtain ⟨reported, latest⟩ : e.after.scene = .marking ∧
      e.after.pump.coordinator.drawable.size = e.before.options.size := by
    rcases (acts_of_run run turn).of_opening opening with ⟨-, same⟩ | ⟨schedule, same⟩
    · rw [same]
      exact ⟨rfl, Drawable.size_set ..⟩
    · exact absurd (congrArg scene same) (not_finished_of_decides mid decides)
  -- The count is read by a later turn, and all frames from there on count.
  obtain ⟨unread, m, rest, rfl, hm, marks⟩ := marking_of_run mid reported begun
  obtain ⟨-, -, -, last⟩ := mid.split
  obtain ⟨counted, started, idle⟩ := (acts_of_run mid hm).marks marks
    (small _ (mem_readings_of_marking (by simp) hm marks))
  have settles := settled_of_run last started fun g hg => quiet g (by simp [hg])
  rw [settles, counted] at settled
  have two := two_drawn last idle hs settled
  have one : inFlight m.after ≤ 1 := Pump.successes_le_one _
  have fitted := fitted_after takes kept run (by simp [reported]) (by simp [reported])
  have wanted : e.after.pump.coordinator.drawable.size = o.size :=
    latest.trans (congrArg Options.size (options_of_run first))
  rw [drawnAt_of_run takes kept mid (by simp [reported]) fitted wanted quiet]
  have parts : drawn (unread ++ m :: rest) = drawn unread + (drawn [m] + drawn rest) := by
    rw [← drawn_append, ← drawn_append, List.singleton_append]
  omega

theorem later_size_rendered
    (run : (machine v).Run (start o w) (before ++ e :: (middle ++ f :: after)) a)
    (small : ∀ n ∈ readings (before ++ e :: (middle ++ f :: after)), n + 2 < UInt64.size)
    (applies : Applies z e) (quiet : ∀ m ∈ middle, ¬ Decides m) (decides : Decides f) :
    ∃ earlier r missed, before = earlier ++ r :: missed ∧ r.move = .interface ∧
      r.before.scene = .counting ∧ (∀ m ∈ missed, m.move ≠ .interface) ∧
        2 ≤ inFlight r.before + drawn missed + drawnAt size z middle := by
  obtain ⟨first, -, -, later⟩ := run.split
  obtain ⟨mid, -⟩ := later.split
  obtain ⟨k, deciding, hd⟩ := decision?_eq_some.1 applies.2
  have applied := ((acts_of_run run applies.1).of_apply deciding hd).resolve_right
    fun ⟨_, ended⟩ => not_finished_of_decides mid decides ended
  have counted : e.after.schedule.settledAt = k + 2 := by
    rw [applied]
    exact Nat.mod_eq_of_lt (small _ (mem_readings_of_deciding (by simp) applies.1 deciding))
  have draining : e.after.scene = .draining := congrArg scene applied
  have latest : e.after.pump.coordinator.drawable.size = z := by
    rw [applied]
    exact Drawable.size_set ..
  obtain ⟨earlier, r, missed, rfl, turn, counting, read, alone⟩ :=
    reading_of_run first rfl deciding
  refine ⟨earlier, r, missed, rfl, turn, counting, alone, ?_⟩
  obtain ⟨n, hs, settled⟩ := settled_of_decides decides
  rw [settled_of_run mid (by simp [draining, Scene.isEarly]) quiet, counted, read] at settled
  have whole : (machine v).Run r.before ((r :: (missed ++ e :: middle)) ++ f :: after) a := by
    rw [List.append_assoc] at run
    simpa using run.onward
  have two := two_drawn whole.split.1 (by simp [counting, Scene.isDeciding]) hs settled
  have fitted := fitted_after takes kept run (by simp [draining]) (by simp [draining])
  rw [drawnAt_of_run takes kept mid (by simp [draining]) fitted latest quiet]
  have parts : drawn (r :: (missed ++ e :: middle)) =
      drawn [r] + (drawn missed + (drawn [e] + drawn middle)) := by
    rw [← drawn_append, ← drawn_append, ← drawn_append]
    rfl
  rw [parts, drawn_quiet (polls_of_run first turn).untouched.2,
    drawn_quiet (polls_of_run run applies.1).untouched.2] at two
  omega

end Rendered

/-- Between a size and the next decision there is a frame of that size; for a size that was not the
first, unless two frames were under way or drawn after the count was read. -/
theorem rendered_unless_two_frames_slip_in {read : Path → Except String ByteArray} {a : App Stage}
    {t : List (Entry Stage)}
    (run : (machine (Stage.venue read o.failEvery)).Run (start o {}) t a)
    (small : ∀ n ∈ readings t, n + 2 < UInt64.size) :
    ∀ before e middle f after, t = before ++ e :: (middle ++ f :: after) →
      e.move = .interface → (∀ m ∈ middle, ¬ Decides m) → Decides f →
        (e.before.scene = .opening → 1 ≤ drawnAt Stage.coreSize o.size middle) ∧
        ∀ z, Applies z e → ∃ earlier r missed, before = earlier ++ r :: missed ∧
          r.move = .interface ∧ r.before.scene = .counting ∧
            (∀ m ∈ missed, m.move ≠ .interface) ∧
              2 ≤ inFlight r.before + drawn missed + drawnAt Stage.coreSize z middle := by
  rintro before e middle f after rfl turn quiet decides
  have takes := Stage.takesSizes read o.failEvery
  have kept (s : Stage) :
      ((Stage.venue read o.failEvery).collect s).2.coreSize = s.coreSize := rfl
  exact ⟨fun opening => first_size_rendered takes kept run small turn opening quiet decides,
    fun z applies => later_size_rendered takes kept run small applies quiet decides⟩

theorem one_frame_slips_in : ∃ o t a before e middle f after,
    (machine (Stage.venue (fun _ => .error "") o.failEvery)).Run (start o {}) t a ∧
      (∀ n ∈ readings t, n + 2 < UInt64.size) ∧
      t = before ++ e :: (middle ++ f :: after) ∧ Applies ⟨2, 1⟩ e ∧
      (∀ m ∈ middle, ¬ Decides m) ∧ Decides f ∧
      ∃ earlier r missed, before = earlier ++ r :: missed ∧
        2 ≤ inFlight r.before + drawn missed + drawnAt Stage.coreSize ⟨2, 1⟩ middle := by
  let o : Options := { frames := 2, size := ⟨1, 1⟩, resizes := [⟨2, 1⟩] }
  obtain ⟨t, a, run, small, ⟨e, he, applies⟩, ⟨f, hf, decides⟩, quiet⟩ : ∃ t a,
      (machine (Stage.venue (fun _ => .error "") o.failEvery)).Run (start o {}) t a ∧
        (∀ n ∈ readings t, n + 2 < UInt64.size) ∧ (∃ e ∈ t[27]?, Applies ⟨2, 1⟩ e) ∧
        (∃ f ∈ (t.drop 28)[9]?, Decides f) ∧ ∀ m ∈ (t.drop 28).take 9, ¬ Decides m :=
    Machine.Run.of_decided
      (.replicate 3 .interface ++ .replicate 15 (.pump true) ++ .replicate 3 .interface ++
        .replicate 6 (.pump true) ++ .interface :: .replicate 6 (.pump true) ++
        .replicate 4 .interface)
      (by decide +kernel)
  have cut := eq_split_of_getElem? he
  rw [eq_split_of_getElem? hf] at cut
  obtain ⟨-, resized⟩ :=
    rendered_unless_two_frames_slip_in run small _ _ _ _ _ cut applies.1 quiet decides
  obtain ⟨earlier, r, missed, same, -, -, -, two⟩ := resized ⟨2, 1⟩ applies
  exact ⟨o, t, a, _, e, _, f, _, run, small, cut, applies, quiet, decides, earlier, r, missed,
    same, two⟩

/-- When the second size is applied, the two frames that it waits for have been drawn. -/
theorem ends_without_rendering_a_size : ∃ o t a before e middle f,
    CommandLine.parse (["--frames", "2", "--size", "1x1", "--resize", "2x1"].map
      CommandLine.bytes) = .ok o ∧
      (machine (Stage.venue (fun _ => .error "") o.failEvery)).Run (start o {}) t a ∧
      t = before ++ e :: (middle ++ [f]) ∧ Applies ⟨2, 1⟩ e ∧ Finishes f ∧
      f.before.pump.running = true ∧ drawnAt Stage.coreSize ⟨2, 1⟩ t = 0 := by
  let o : Options := { frames := 2, size := ⟨1, 1⟩, resizes := [⟨2, 1⟩] }
  obtain ⟨t, a, run, ⟨e, he, applies⟩, ⟨f, hf, finishes, running⟩, last, unseen⟩ : ∃ t a,
      (machine (Stage.venue (fun _ => .error "") o.failEvery)).Run (start o {}) t a ∧
        (∃ e ∈ t[33]?, Applies ⟨2, 1⟩ e) ∧
        (∃ f ∈ (t.drop 34)[3]?, Finishes f ∧ f.before.pump.running = true) ∧
        (t.drop 34).drop 4 = [] ∧ drawnAt Stage.coreSize ⟨2, 1⟩ t = 0 :=
    Machine.Run.of_decided
      (.replicate 3 .interface ++ .replicate 15 (.pump true) ++ .replicate 3 .interface ++
        .replicate 12 (.pump true) ++ .replicate 5 .interface)
      (by decide +kernel)
  have cut := eq_split_of_getElem? he
  rw [eq_split_of_getElem? hf, last] at cut
  exact ⟨o, t, a, _, e, _, f, rfl, run, cut, applies, finishes, running, unseen⟩

end App

end EmulatorHost.Headless
