import EmulatorHost.Proofs.Pump.Sizes

namespace EmulatorHost

def Phase.toCount? {κ : Type} : Phase κ → Option Nat
  | .checkingStop => some 6
  | .checkingPause => some 5
  | .awaitingDeadline => some 4
  | .ready => some 3
  | .rendering ⟨_, .ok _⟩ => some 2
  | .reportingResize ⟨_, .ok _⟩ => some 1
  | .counting (.ok _) => some 0
  | _ => none

theorem Phase.isRendering_of_toCount? {κ : Type} {phase : Phase κ}
    (h : phase.toCount? = some 6) : phase.isRendering = false := by
  cases phase with
  | rendering report => rcases report with ⟨_, _ | _⟩ <;> cases h
  | _ => rfl

structure Surroundings.Untiring {κ σ η ω : Type} (s : Surroundings κ σ η ω) (good : ω → Prop) :
    Prop where
  runFrame : ∀ core surface w, good w →
    (s.runFrame core surface w).1 = .ok () ∧ good (s.runFrame core surface w).2
  setOutputSize : ∀ core size w, good w → good (s.setOutputSize core size w).2
  loadRom : ∀ core path w, good w → good (s.loadRom core path w).2
  deliver : ∀ l event w, good w → good (s.deliver l event w).2
  release : ∀ l w, good w → good (s.release l w)

theorem Surroundings.Untiring.letGo {κ σ η ω : Type} {s : Surroundings κ σ η ω} {good : ω → Prop}
    (untiring : s.Untiring good) (n : Notifier η) {w : ω} (fine : good w) :
    good (n.letGo s.toListeners w) := by
  rcases n with ⟨_ | l⟩
  · exact fine
  · exact untiring.release l w fine

namespace Pump

variable {κ σ η ω : Type} {s : Surroundings κ σ η ω} {good : ω → Prop} {m : Move η}
  {answer : Answer} {calls : List (Activity κ σ η)} {x x' : Pump κ σ η × ω} {k n : Nat}
  {event : Notification}

theorem Tells.kept {x x' : Notifier η × ω} (h : Tells s event x calls x')
    (untiring : s.Untiring good) (fine : good x.2) : good x'.2 := by
  cases h with
  | unheard => exact fine
  | @heard l w w' told =>
    have kept := untiring.deliver l event w fine
    rwa [told] at kept
  | @refused l w w' told =>
    have kept := untiring.deliver l event w fine
    rw [told] at kept
    exact untiring.release l w' kept

/-- The pump is `n` steps from its next count, with nothing to hold it up. -/
structure Rolls (good : ω → Prop) (n : Nat) (x : Pump κ σ η × ω) : Prop where
  phase : x.1.phase.toCount? = some n
  core : ∃ core, x.1.coordinator.core = some core
  unstopped : x.1.stopRequested = false
  unpaused : x.1.paused = false
  running : x.1.running = true
  good : good x.2

theorem Announces.rolls {p : Pump κ σ η} {next : Phase κ} (h : Announces p event next)
    (phase : p.phase.toCount? = some n) : ∃ m < n, next.toCount? = some m := by
  cases h with
  | @resize _ render hp =>
    rw [hp] at phase
    cases render with
    | ok =>
      cases phase
      exact ⟨0, Nat.one_pos, rfl⟩
    | error e => cases phase
  | createFailed hp | core hp | coreWithRom hp | rom hp | failure hp | stop hp =>
    rw [hp] at phase
    cases phase

theorem Passes.rolls {p : Pump κ σ η} {next : Phase κ} (h : Passes true p next)
    (phase : p.phase.toCount? = some n) (unstopped : p.stopRequested = false)
    (unpaused : p.paused = false) : ∃ m < n, next.toCount? = some m := by
  cases h with
  | toStop _ hs | stopMeanwhile _ hs => cases hs.symm.trans unstopped
  | paused _ hs => cases hs.symm.trans unpaused
  | waits _ _ hd => cases hd
  | onwards hp | unpaced hp | paced hp | due hp =>
    rw [hp] at phase
    cases phase
    exact ⟨_, by decide, rfl⟩
  | @rendered report hp =>
    rw [hp] at phase
    rcases report with ⟨resize, e | _⟩
    · cases phase
    · cases phase
      exact ⟨1, by decide, rfl⟩
  | @unresized render hp =>
    rw [hp] at phase
    cases render with
    | ok =>
      cases phase
      exact ⟨0, by decide, rfl⟩
    | error e => cases phase
  | coreless hp =>
    rw [hp] at phase
    cases phase

theorem Advances.rolls (h : Advances s true x calls x') (untiring : s.Untiring good)
    (rolls : Rolls good n x) :
    (∃ m < n, Rolls good m x' ∧ x'.1.frames = x.1.frames) ∨
      Rolls good 6 x' ∧ x'.1.frames = x.1.frames + 1 := by
  obtain ⟨phase, core, unstopped, unpaused, running, fine⟩ := rolls
  cases h with
  | announced ha ht =>
    obtain ⟨m, less, next⟩ := ha.rolls phase
    exact .inl ⟨m, less, ⟨next, core, unstopped, unpaused, running, ht.kept untiring fine⟩, rfl⟩
  | passed hp =>
    obtain ⟨m, less, next⟩ := hp.rolls phase unstopped unpaused
    exact .inl ⟨m, less, ⟨next, core, unstopped, unpaused, running, fine⟩, rfl⟩
  | @rendered p w w' core' outcome hp hc _ hr =>
    obtain ⟨taken, kept⟩ := untiring.runFrame core' p.surface w fine
    rw [hr] at taken kept
    obtain rfl : outcome = .ok () := taken
    rw [hp] at phase
    cases phase
    exact .inl ⟨2, by decide, ⟨rfl, core, unstopped, unpaused, running, kept⟩, rfl⟩
  | @pushed p w w₁ w' core' push outcome hp hc _ hs hr =>
    have pushed := untiring.setOutputSize core' p.coordinator.drawable.size w fine
    rw [hs] at pushed
    obtain ⟨taken, kept⟩ := untiring.runFrame core' p.surface w₁ pushed
    rw [hr] at taken kept
    obtain rfl : outcome = .ok () := taken
    rw [hp] at phase
    cases phase
    exact .inl ⟨2, by decide, ⟨rfl, core, unstopped, unpaused, running, kept⟩, rfl⟩
  | counted => exact .inr ⟨⟨rfl, core, unstopped, unpaused, running, fine⟩, rfl⟩
  | missed _ absent =>
    obtain ⟨core, held⟩ := core
    cases held.symm.trans absent
  | created hp | refused hp | installed hp | loaded hp | failed hp | tornDown hp | dropped hp
  | ended hp | rested hp =>
    rw [hp] at phase
    cases phase

theorem Rolls.exists_run (rolls : Rolls good n x) (untiring : s.Untiring good) :
    ∃ t x', (machine s).Run x t x' ∧ (∀ e ∈ t, e.move.isAdvance) ∧ Rolls good 6 x' ∧
      x'.1.frames = x.1.frames + 1 := by
  induction n using Nat.strongRecOn generalizing x with
  | ind n ih =>
    have first := Machine.Run.single (x := machine s) (s := x) (.advance true) rfl
    rcases (advances s true x).rolls untiring rolls with ⟨m, less, rolls, same⟩ | ⟨rolls, counted⟩
    · obtain ⟨t, x', run, alone, rolls, counted⟩ := ih m less rolls
      exact ⟨_, x', first.trans run, List.forall_mem_cons.2 ⟨rfl, alone⟩, rolls,
        counted.trans (congrArg (· + 1) same)⟩
    · exact ⟨_, _, first, List.forall_mem_singleton.2 rfl, rolls, counted⟩

def Move.holdsUp : Move η → Bool
  | .pause _ | .stop => true
  | _ => false

theorem Serves.rolls (h : Serves s m x answer calls x') (untiring : s.Untiring good)
    (rolls : Rolls good n x) (lets : m.holdsUp = false) : Rolls good n x' := by
  obtain ⟨phase, core, unstopped, unpaused, running, fine⟩ := rolls
  cases h with
  | @asked _ p w w' path core' outcome _ _ _ _ hl =>
    have kept := untiring.loadRom core' path w fine
    rw [hl] at kept
    exact ⟨phase, core, unstopped, unpaused, running, kept⟩
  | told _ ht => exact ⟨phase, core, unstopped, unpaused, running, ht.kept untiring fine⟩
  | subscribed | unsubscribed =>
    exact ⟨phase, core, unstopped, unpaused, running, untiring.letGo _ fine⟩
  | invisible | cancelled | unnamed | refused | parked | nothingToTell | inspected | resized =>
    exact ⟨phase, core, unstopped, unpaused, running, fine⟩
  | paused | stopped => cases lets

structure Between (good : ω → Prop) (n : Nat) (x : Pump κ σ η × ω) : Prop where
  rolls : Rolls good 6 x
  frames : x.1.frames.toNat = n

namespace Between

variable {p : Pump κ σ η} {w : ω}

theorem isRendering (h : Between good n (p, w)) : p.phase.isRendering = false :=
  Phase.isRendering_of_toCount? h.rolls.phase

theorem withSize (h : Between good n (p, w)) (z : Size) : Between good n (p.withSize z, w) :=
  ⟨⟨h.rolls.phase, h.rolls.core, h.rolls.unstopped, h.rolls.unpaused, h.rolls.running,
    h.rolls.good⟩, h.frames⟩

theorem withWorld (h : Between good n (p, w)) {w' : ω} (fine : good w') : Between good n (p, w') :=
  ⟨⟨h.rolls.phase, h.rolls.core, h.rolls.unstopped, h.rolls.unpaused, h.rolls.running, fine⟩,
    h.frames⟩

theorem exists_run (h : Between good k x) (untiring : s.Untiring good) (le : k ≤ n)
    (small : n < UInt64.size) :
    ∃ t x', (machine s).Run x t x' ∧ (∀ e ∈ t, e.move.isAdvance) ∧ Between good n x' := by
  induction le with
  | refl => exact ⟨[], x, .start, List.forall_mem_nil _, h⟩
  | step _ ih =>
    obtain ⟨t, y, run, alone, between⟩ := ih (Nat.lt_of_succ_lt small)
    obtain ⟨u, z, later, alone', rolls, counted⟩ := between.rolls.exists_run untiring
    refine ⟨t ++ u, z, run.trans later, List.forall_mem_append.2 ⟨alone, alone'⟩, rolls, ?_⟩
    rw [counted, UInt64.toNat_add, between.frames]
    exact Nat.mod_eq_of_lt small

theorem serve (h : Between good n x) (untiring : s.Untiring good)
    (step : Serves s m x answer calls x') (lets : m.holdsUp = false) : Between good n x' :=
  ⟨step.rolls untiring h.rolls lets, (congrArg UInt64.toNat step.untouched.frames).trans h.frames⟩

end Between

end Pump

end EmulatorHost
