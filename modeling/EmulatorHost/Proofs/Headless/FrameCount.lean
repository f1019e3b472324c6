import EmulatorHost.Proofs.Headless.History
import EmulatorHost.Proofs.Pump.Counters

/-! A frame is counted some time after it was drawn, and the count is read some time before it is
used, so only a difference of two counts says that a frame was drawn in between. -/

namespace EmulatorHost.Headless.App

variable {ω : Type} {v : Venue ω} {a a' b : App ω} {t : List (Entry ω)} {e : Entry ω}
  {calls : List (Activity Unit Unit Unit)} {n : Nat}

def drawn (t : List (Entry ω)) : Nat :=
  Pump.successes ((t.flatMap (·.calls)).filterMap Activity.rendered?)

def inFlight (a : App ω) : Nat := Pump.successes a.pump.phase.uncounted

@[simp] theorem drawn_append (t t' : List (Entry ω)) : drawn (t ++ t') = drawn t + drawn t' := by
  simp [drawn, Pump.successes]

theorem drawn_singleton (e : Entry ω) :
    drawn [e] = Pump.successes (e.calls.filterMap Activity.rendered?) := by
  simp [drawn]

theorem drawn_quiet (silent : e.calls.filterMap Activity.rendered? = []) : drawn [e] = 0 := by
  rw [drawn_singleton, silent]
  rfl

/-- `k` frames have been counted, and the interface has never read a greater number. -/
structure Clock (offset : Nat) (t : List (Entry ω)) (a : App ω) (k : Nat) : Prop where
  frames : a.pump.frames = UInt64.ofNat k
  drawn : offset + drawn t = k + inFlight a
  read : ∀ n, a.scene = .deciding n → ∃ j ≤ k, n = (UInt64.ofNat j).toNat

theorem Polls.scene (h : Polls v a calls a') (hs : a'.scene = .deciding n) :
    a.scene = .counting ∧ n = a.pump.frames.toNat := by
  cases h with
  | read h => exact ⟨h, (Scene.deciding.inj hs).symm⟩
  | marked _ _ deciding | ran _ _ _ _ deciding | passed _ _ _ deciding =>
    dsimp only at hs
    simp [hs, Scene.isDeciding] at deciding
  | opened | applied | refused => cases hs

theorem clock_of_run (run : (machine v).Run b t a) (idle : b.scene.isDeciding = false) :
    ∃ k, Clock (b.pump.frames.toNat + inFlight b) t a k := by
  refine run_induction
    (Q := fun t a => ∃ k, Clock (b.pump.frames.toNat + inFlight b) t a k) ?_ ?_ ?_ run
  · refine ⟨b.pump.frames.toNat, by simp, by simp [App.drawn, Pump.successes], fun n hs => ?_⟩
    simp [hs, Scene.isDeciding] at idle
  · rintro t a due calls p w ⟨k, clock⟩ step
    obtain ⟨d, frames, counted⟩ := step.frames
    refine ⟨k + d, ?_, ?_, fun n hs => ?_⟩
    · dsimp only at frames ⊢
      rw [frames, clock.frames]
      simp
    · have before := clock.drawn
      rw [drawn_append, drawn_singleton]
      simp only [inFlight] at before counted ⊢
      omega
    · obtain ⟨j, le, rfl⟩ := clock.read n hs
      exact ⟨j, by omega, rfl⟩
  · rintro t a calls a' ⟨k, clock⟩ - poll
    obtain ⟨same, silent⟩ := poll.untouched
    refine ⟨k, same.frames.trans clock.frames, ?_, fun n hs => ?_⟩
    · rw [drawn_append, drawn_quiet silent, Nat.add_zero, clock.drawn, inFlight, inFlight,
        same.phase]
    · obtain ⟨-, rfl⟩ := poll.scene hs
      exact ⟨k, Nat.le_refl k, by rw [clock.frames]⟩

theorem toNat_ofNat_le (k : Nat) : (UInt64.ofNat k).toNat ≤ k := by
  rw [UInt64.toNat_ofNat']
  exact Nat.mod_le ..

theorem frames_le (run : (machine v).Run b t a) (idle : b.scene.isDeciding = false) :
    a.pump.frames.toNat ≤ b.pump.frames.toNat + inFlight b + drawn t := by
  obtain ⟨k, clock⟩ := clock_of_run run idle
  have counted := clock.drawn
  have read : a.pump.frames.toNat ≤ k := clock.frames ▸ toNat_ofNat_le k
  omega

theorem read_le (run : (machine v).Run b t a) (idle : b.scene.isDeciding = false)
    (hs : a.scene = .deciding n) : n ≤ b.pump.frames.toNat + inFlight b + drawn t := by
  obtain ⟨k, clock⟩ := clock_of_run run idle
  obtain ⟨j, le, rfl⟩ := clock.read n hs
  have counted := clock.drawn
  have read := toNat_ofNat_le j
  omega

/-- Unless the count is read anew, two more frames were drawn when it has gone up by two. -/
theorem two_drawn (run : (machine v).Run b t a) (idle : b.scene.isDeciding = false)
    (hs : a.scene = .deciding n) (later : b.pump.frames.toNat + 2 ≤ n) :
    2 ≤ inFlight b + drawn t := by
  have most := read_le run idle hs
  omega

theorem reading_of_run (run : (machine v).Run b t a) (idle : b.scene.isDeciding = false)
    (hs : a.scene = .deciding n) :
    ∃ before e missed, t = before ++ e :: missed ∧ e.move = .interface ∧
      e.before.scene = .counting ∧ n = e.before.pump.frames.toNat ∧
        ∀ m ∈ missed, m.move ≠ .interface := by
  refine run_induction (Q := fun t a => a.scene = .deciding n →
    ∃ before e missed, t = before ++ e :: missed ∧ e.move = .interface ∧
      e.before.scene = .counting ∧ n = e.before.pump.frames.toNat ∧
        ∀ m ∈ missed, m.move ≠ .interface) ?_ ?_ ?_ run hs
  · intro hs
    simp [hs, Scene.isDeciding] at idle
  · intro t a due calls p w ih _ hs
    obtain ⟨before, e, missed, rfl, turn, counting, read, alone⟩ := ih hs
    refine ⟨before, e, missed ++ _, List.append_assoc .., turn, counting, read, fun m hm => ?_⟩
    rcases List.mem_append.1 hm with earlier | last
    · exact alone m earlier
    · simp [List.mem_singleton.1 last]
  · intro t a calls a' _ _ poll hs
    obtain ⟨counting, read⟩ := poll.scene hs
    exact ⟨t, ⟨a, .interface, (), calls, a'⟩, [], rfl, rfl, counting, read,
      List.forall_mem_nil _⟩

def read? (e : Entry ω) : Option Nat :=
  match e.move, e.before.scene with
  | .interface, .marking => some e.before.pump.frames.toNat
  | .interface, .deciding n => some n
  | _, _ => none

def readings (t : List (Entry ω)) : List Nat := t.filterMap read?

theorem readings_concat (t : List (Entry ω)) (e : Entry ω) :
    readings (t ++ [e]) = readings t ++ (read? e).toList := by
  cases h : read? e <;> simp [readings, h]

theorem mem_readings_of_marking (he : e ∈ t) (turn : e.move = .interface)
    (hs : e.before.scene = .marking) : e.before.pump.frames.toNat ∈ readings t :=
  List.mem_filterMap.2 ⟨e, he, by simp only [read?, turn, hs]⟩

theorem mem_readings_of_deciding (he : e ∈ t) (turn : e.move = .interface)
    (hs : e.before.scene = .deciding n) : n ∈ readings t :=
  List.mem_filterMap.2 ⟨e, he, by simp only [read?, turn, hs]⟩

end EmulatorHost.Headless.App
