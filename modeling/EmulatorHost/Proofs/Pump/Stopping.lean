import EmulatorHost.Lockstep.Script
import EmulatorHost.Proofs.Pump.Life

namespace EmulatorHost

def Phase.reason? {κ : Type} : Phase κ → Option StopReason
  | .tearingDown reason | .dropping _ reason | .dropped reason | .announcingStop reason
  | .exited reason => some reason
  | _ => none

def Phase.remaining {κ : Type} : Phase κ → Nat
  | .rendering _ => 8
  | .reportingResize _ => 7
  | .counting _ => 6
  | .reportingFailure .. | .createFailed _ => 5
  | .tearingDown _ => 4
  | .dropping .. => 3
  | .dropped _ => 2
  | .announcingStop _ => 1
  | _ => 0

namespace Pump

variable {κ σ η ω : Type}
  {s : Surroundings κ σ η ω} {due : Bool} {m : Move η} {answer : Answer}
  {calls : List (Activity κ σ η)} {x x' : Pump κ σ η × ω} {t : List (Entry κ σ η ω)}
  {p : Pump κ σ η} {event : Notification} {next : Phase κ} {config : Config} {surface : σ}
  {subscriber : Option η} {w w' : ω} {reason : StopReason}
  {results : List CoreOutcome} {life : Life κ} {n : Nat} {streak : UInt32} {phase : Phase κ}

def steps (t : List (Entry κ σ η ω)) : Nat := t.countP (·.move.isAdvance)

def Exceeds (config : Config) (streak : UInt32) : Prop :=
  ∃ limit, config.failureLimit = some limit ∧ limit ≤ streak

def Bound (config : Config) (streak : UInt32) (reason : StopReason) : Phase κ → Prop
  | .createFailed _ => reason = .createFailed
  | .rendering ⟨_, .error _⟩ | .reportingResize ⟨_, .error _⟩ | .counting (.error _) =>
    reason = .renderFailures (nextStreak streak) ∧ Exceeds config (nextStreak streak)
  | .reportingFailure .. => reason = .renderFailures streak ∧ Exceeds config streak
  | .tearingDown reason' | .dropping _ reason' | .dropped reason' | .announcingStop reason'
  | .exited reason' => reason' = reason
  | _ => False

theorem afterFailure_of_exceeds (h : Exceeds config streak) :
    (afterFailure config streak : Phase κ) = .tearingDown (.renderFailures streak) := by
  obtain ⟨limit, hl, reached⟩ := h
  simp [afterFailure, hl, reached]

theorem Announces.bound (h : Announces p event next)
    (bound : Bound p.config p.streak reason p.phase) :
    Bound p.config p.streak reason next ∧ next.remaining = p.phase.remaining - 1 := by
  cases h with
  | createFailed hp =>
    rw [hp] at bound ⊢
    exact ⟨bound.symm, rfl⟩
  | core hp | coreWithRom hp | rom hp =>
    rw [hp] at bound
    cases bound
  | @resize _ render hp =>
    cases render with
    | ok =>
      rw [hp] at bound
      cases bound
    | error e =>
      rw [hp] at bound ⊢
      exact ⟨bound, rfl⟩
  | failure hp =>
    rw [hp] at bound ⊢
    obtain ⟨rfl, exceeds⟩ := bound
    rw [afterFailure_of_exceeds exceeds]
    exact ⟨rfl, rfl⟩
  | stop hp =>
    rw [hp] at bound ⊢
    exact ⟨bound, rfl⟩

theorem Passes.bound (h : Passes due p next) (bound : Bound p.config p.streak reason p.phase) :
    Bound p.config p.streak reason next ∧ next.remaining = p.phase.remaining - 1 := by
  cases h with
  | @rendered report hp =>
    rw [hp] at bound ⊢
    rcases report with ⟨resize, _ | e⟩
    · exact ⟨bound, rfl⟩
    · cases bound
  | @unresized render hp =>
    cases render with
    | ok =>
      rw [hp] at bound
      cases bound
    | error e =>
      rw [hp] at bound ⊢
      exact ⟨bound, rfl⟩
  | coreless hp =>
    rw [hp] at bound ⊢
    exact ⟨bound, rfl⟩
  | toStop hp | onwards hp | paused hp | unpaced hp | paced hp | stopMeanwhile hp | due hp
  | waits hp =>
    rw [hp] at bound
    cases bound

theorem Advances.bound (h : Advances s due x calls x')
    (bound : Bound x.1.config x.1.streak reason x.1.phase) :
    Bound x'.1.config x'.1.streak reason x'.1.phase ∧
      x'.1.phase.remaining = x.1.phase.remaining - 1 ∧
      calls.filterMap Activity.rendered? = [] := by
  cases h with
  | announced ha ht => exact ⟨(ha.bound bound).1, (ha.bound bound).2, ht.renders⟩
  | passed hp => exact ⟨(hp.bound bound).1, (hp.bound bound).2, rfl⟩
  | created hp | refused hp | installed hp | loaded hp | missed hp | rendered hp | pushed hp
  | counted hp =>
    rw [hp] at bound
    cases bound
  | failed hp | tornDown hp | dropped hp | ended hp =>
    rw [hp] at bound ⊢
    exact ⟨bound, rfl, rfl⟩
  | rested hp =>
    rw [hp] at bound ⊢
    exact ⟨bound, rfl, rfl⟩

theorem Serves.bound (h : Serves s m x answer calls x')
    (bound : Bound x.1.config x.1.streak reason x.1.phase) :
    Bound x'.1.config x'.1.streak reason x'.1.phase := by
  have same := h.untouched
  rw [same.phase, same.config, same.streak]
  exact bound

theorem bound_of_run (run : (machine s).Run x t x')
    (bound : Bound x.1.config x.1.streak reason x.1.phase) :
    Bound x'.1.config x'.1.streak reason x'.1.phase ∧
      x'.1.phase.remaining = x.1.phase.remaining - steps t ∧ renders t = [] := by
  refine run_induction (Q := fun t x' => Bound x'.1.config x'.1.streak reason x'.1.phase ∧
    x'.1.phase.remaining = x.1.phase.remaining - steps t ∧ renders t = []) ?_ ?_ ?_ run
  · exact ⟨bound, rfl, rfl⟩
  · rintro t x' due calls x'' - ⟨bound, left, silent⟩ step
    obtain ⟨later, nearer, quiet⟩ := step.bound bound
    refine ⟨later, ?_, by rw [renders_concat, silent, quiet]; rfl⟩
    rw [nearer, left, steps, steps, List.countP_append, Nat.sub_sub]
    rfl
  · rintro t x' m answer calls x'' - ⟨bound, left, silent⟩ host step
    refine ⟨step.bound bound, ?_, by rw [renders_concat, silent, step.renders]; rfl⟩
    rw [step.untouched.phase, left, steps, steps, List.countP_append]
    simp [host]

theorem exited_of_bound (h : Bound config streak reason phase) (last : phase.remaining = 0) :
    phase = .exited reason := by
  cases phase with
  | exited reason' =>
    obtain rfl : reason' = reason := h
    rfl
  | creating | installing | announcingCore | announcingRom | checkingStop | checkingPause
  | awaitingDeadline | ready => cases h
  | _ => cases last

theorem exceeds_of_patience (hn : config.patience = some n) (hs : streak.toNat = n) :
    Exceeds config streak := by
  obtain ⟨limit, hl, hm⟩ := Option.map_eq_some_iff.1 hn
  exact ⟨limit, hl, UInt32.le_iff_toNat_le.2 (by omega)⟩

theorem Counts.last_failed (h : Counts results p) {render : CoreOutcome}
    (hn : p.config.patience = some n) (within : Within p.config results)
    (ends : n ≤ trailingFailures (results ++ [render])) :
    ∃ e, render = .error e ∧ (nextStreak p.streak).toNat = n ∧
      Exceeds p.config (nextStreak p.streak) := by
  have before := within n hn
  have range := Config.patience_pos hn
  cases render with
  | ok u =>
    rw [trailingFailures_ok] at ends
    omega
  | error e =>
    rw [trailingFailures_error] at ends
    have reached : (nextStreak p.streak).toNat = n := by
      rw [nextStreak_toNat, h.streak]
      omega
    exact ⟨e, rfl, reached, exceeds_of_patience hn reached⟩

theorem bound_of_spent (hn : config.patience = some n)
    (bound : Bound config streak reason phase) (near : phase.remaining ≤ 8)
    (judged : Judged config results (.exited reason : Phase κ))
    (ends : n ≤ trailingFailures results) :
    ∃ count, count.toNat = n ∧ Bound config streak (.renderFailures count) phase ∧
      phase.remaining ≤ 8 := by
  cases reason with
  | renderFailures count =>
    exact ⟨count, Option.some.inj (judged.1.symm.trans hn), bound, near⟩
  | createFailed | requested => exact absurd ends (Nat.not_le.2 (judged n hn))

theorem exits_of_bound (run : (machine s).Run x t x')
    (bound : Bound x.1.config x.1.streak reason x.1.phase) {k : Nat}
    (near : x.1.phase.remaining ≤ k) :
    renders t = [] ∧ (k ≤ steps t → x'.1.phase = .exited reason) := by
  obtain ⟨later, left, silent⟩ := bound_of_run run bound
  exact ⟨silent, fun enough => exited_of_bound later (by omega)⟩

theorem Counted.bound (h : Counted t results p) (hn : p.config.patience = some n)
    (ends : n ≤ trailingFailures (Pump.renders t)) :
    ∃ count, count.toNat = n ∧ Bound p.config p.streak (.renderFailures count) p.phase ∧
      p.phase.remaining ≤ 8 := by
  have judged := h.judged
  have streak := h.counts.streak
  have small := (Config.patience_pos hn).2
  rw [h.renders] at ends
  cases hp : p.phase with
  | rendering report | reportingResize report =>
    -- the last frame is not counted yet, so that it must be the one that failed
    rw [hp] at judged ends
    rcases report with ⟨resize, render⟩
    obtain ⟨e, rfl, hs, exceeds⟩ := h.counts.last_failed hn judged ends
    exact ⟨_, hs, ⟨rfl, exceeds⟩, by simp [Phase.remaining]⟩
  | counting render =>
    rw [hp] at judged ends
    obtain ⟨e, rfl, hs, exceeds⟩ := h.counts.last_failed hn judged ends
    exact ⟨_, hs, ⟨rfl, exceeds⟩, by simp [Phase.remaining]⟩
  | reportingFailure frame e =>
    rw [hp] at judged ends
    have most := judged.2 n hn
    have hs : p.streak.toNat = n := by
      simp only [Phase.uncounted, List.append_nil] at ends
      omega
    exact ⟨p.streak, hs, ⟨rfl, exceeds_of_patience hn hs⟩, by simp [Phase.remaining]⟩
  | tearingDown reason | dropping _ reason | dropped reason | announcingStop reason
  | exited reason =>
    rw [hp] at judged ends
    simp only [Phase.uncounted, List.append_nil] at ends
    refine bound_of_spent hn rfl (by simp [Phase.remaining]) ?_ ends
    cases reason <;> exact judged
  | _ =>
    rw [hp] at judged ends
    simp only [Phase.uncounted, List.append_nil] at ends
    exact absurd ends (Nat.not_le.2 (judged n hn))

theorem Announces.requested (h : Announces p event next) (stops : next.reason? = some .requested) :
    p.phase.reason? = some .requested := by
  cases h with
  | failure =>
    rcases @afterFailure_eq κ p.config p.streak with hn | hn <;> rw [hn] at stops <;> cases stops
  | stop hp =>
    rw [hp]
    exact stops
  | _ => cases stops

theorem Passes.requested (h : Passes due p next) (stops : next.reason? = some .requested) :
    p.stopRequested = true ∨ p.phase.reason? = some .requested := by
  cases h with
  | toStop _ hs | stopMeanwhile _ hs => exact .inl hs
  | coreless hp =>
    rw [hp]
    exact .inr stops
  | _ => cases stops

theorem Advances.requested (h : Advances s due x calls x')
    (present : x.1.phase = .ready → x.1.coordinator.core ≠ none)
    (stops : x'.1.stopRequested = true ∨ x'.1.phase.reason? = some .requested) :
    x.1.stopRequested = true ∨ x.1.phase.reason? = some .requested := by
  rcases stops with asked | stops
  · have same : x'.1.stopRequested = x.1.stopRequested := by cases h <;> rfl
    exact .inl (same ▸ asked)
  · cases h with
    | announced ha => exact .inr (ha.requested stops)
    | passed hp => exact hp.requested stops
    | missed hp hc => exact absurd hc (present hp)
    | tornDown hp | dropped hp | ended hp =>
      rw [hp]
      exact .inr stops
    | rested => exact .inr stops
    | _ => cases stops

theorem Lived.core_of_ready (h : Lived subscriber t p life) (hp : p.phase = .ready) :
    ∃ core, p.coordinator.core = some core := by
  have fits := h.fits
  rw [hp] at fits
  obtain ⟨core, -, -, -, hc⟩ := fits
  exact ⟨core, hc⟩

theorem Advances.of_ready (h : Advances s due x calls x') (hp : x.1.phase = .ready)
    {core : κ} (hc : x.1.coordinator.core = some core) :
    ∃ report, x'.1.phase = .rendering report := by
  cases h with
  | rendered | pushed => exact ⟨_, rfl⟩
  | missed _ absent => cases hc.symm.trans absent
  | announced ha => cases ha with
    | _ other => cases hp.symm.trans other
  | passed pass => cases pass with
    | _ other => cases hp.symm.trans other
  | _ other => cases hp.symm.trans other

theorem stop_of_run (run : (machine s).Run (start config surface subscriber, w) t x)
    (stops : x.1.stopRequested = true ∨ x.1.phase.reason? = some .requested) :
    ∃ e ∈ t, e.move = .stop := by
  refine run_induction (Q := fun t x =>
    x.1.stopRequested = true ∨ x.1.phase.reason? = some .requested → ∃ e ∈ t, e.move = .stop)
    ?_ ?_ ?_ run stops
  · rintro (stops | stops) <;> cases stops
  · intro t x due calls x' earlier ih step stops
    obtain ⟨life, lived⟩ := Lived.of_run earlier
    have present (hp : x.1.phase = .ready) : x.1.coordinator.core ≠ none := by
      obtain ⟨core, hc⟩ := lived.core_of_ready hp
      simp [hc]
    obtain ⟨e, he, hm⟩ := ih (step.requested present stops)
    exact ⟨e, by simp [he], hm⟩
  · intro t x m answer calls x' _ ih _ step stops
    by_cases hm : m = .stop
    · exact ⟨_, List.mem_concat_self, hm⟩
    · have same : x'.1.stopRequested = x.1.stopRequested := by
        cases step with
        | stopped => exact absurd rfl hm
        | _ => rfl
      rw [same, step.untouched.phase] at stops
      obtain ⟨e, he, hm⟩ := ih stops
      exact ⟨e, by simp [he], hm⟩

theorem Lived.ends (h : Lived subscriber t p life)
    (stops : p.phase.reason? = some reason) : life.Ends reason := by
  have fits := h.fits
  cases hp : p.phase with
  | tearingDown _ | dropping _ _ | dropped _ | announcingStop _ | exited _ =>
    rw [hp] at fits stops
    obtain rfl := Option.some.inj stops
    exact fits.1
  | _ =>
    rw [hp] at stops
    cases stops

theorem Lived.bound {e : CoreError} (h : Lived subscriber t p (.failed e)) :
    Bound p.config p.streak .createFailed p.phase ∧ p.phase.remaining ≤ 5 := by
  have fits := h.fits
  cases hp : p.phase with
  | createFailed _ => exact ⟨rfl, by simp [Phase.remaining]⟩
  | tearingDown _ | dropping _ _ | dropped _ | announcingStop _ | exited _ =>
    rw [hp] at fits
    exact ⟨fits.1, by simp [Phase.remaining]⟩
  | _ =>
    rw [hp] at fits
    simp [Life.Fits] at fits

theorem created_mem {error : CoreError} :
    (.created (.error error) : Activity κ σ η) ∈ life.calls surface ++ life.drops phase ↔
      life = .failed error := by
  have undropped : (.created (.error error) : Activity κ σ η) ∉ life.drops phase := by
    cases phase <;> cases life <;> simp [Life.drops, Life.core?]
  rw [List.mem_append, or_iff_left undropped]
  cases life with
  | waiting => simp [Life.calls]
  | failed e => simp [Life.calls, eq_comm]
  | lived core load frames => simp [Life.calls, Frame.calls]

theorem toNat_max_one (limit : UInt32) : (max limit 1).toNat = max limit.toNat 1 := by
  show (if limit ≤ 1 then 1 else limit).toNat = max limit.toNat 1
  split
  · rename_i low
    exact (Nat.max_eq_right (UInt32.le_iff_toNat_le.1 low)).symm
  · rename_i high
    rw [UInt32.le_iff_toNat_le, Nat.not_le] at high
    exact (Nat.max_eq_left (Nat.le_of_lt high)).symm

theorem patience_of_failureLimit {limit : UInt32}
    (h : config.failureLimit = some limit) : config.patience = some (max limit 1).toNat := by
  simp [Config.patience, h, toNat_max_one]

theorem Counted.spent (h : Counted t results p) {count : UInt32}
    (stops : p.phase.reason? = some (.renderFailures count)) :
    p.config.patience = some count.toNat ∧ trailingFailures (Pump.renders t) = count.toNat := by
  have judged := h.judged
  rw [h.renders]
  cases hp : p.phase with
  | tearingDown _ | dropping _ _ | dropped _ | announcingStop _ | exited _ =>
    rw [hp] at judged stops
    obtain rfl := Option.some.inj stops
    simp only [Phase.uncounted, List.append_nil]
    exact judged
  | _ =>
    rw [hp] at stops
    cases stops

/-- Why the pump stops, and when. Once there is no core, or the last frames have failed as often in
a row as the limit allows, it runs no frame and stops after so many steps of its own, whatever is
asked of it meanwhile. -/
theorem stops_for_the_right_reason {s : Surroundings κ σ η ω} {config : Config} {surface : σ}
    {subscriber : Option η} {w w' : ω} {t : List (Entry κ σ η ω)} {p : Pump κ σ η}
    (run : (machine s).Run (start config surface subscriber, w) t (p, w')) :
    (∀ reason, p.phase.reason? = some reason →
      (reason = .createFailed ↔ ∃ error, .created (.error error) ∈ coreCalls t) ∧
      (reason = .requested → ∃ e ∈ t, e.move = .stop) ∧
      ∀ count, reason = .renderFailures count → ∃ limit, config.failureLimit = some limit ∧
        count = max limit 1 ∧ EndsInFailures count.toNat (renders t)) ∧
    (∀ before after error, t = before ++ after → .created (.error error) ∈ coreCalls before →
      renders after = [] ∧ (5 ≤ steps after → p.phase = .exited .createFailed)) ∧
    (∀ before after limit, t = before ++ after → config.failureLimit = some limit →
      EndsInFailures (max limit 1).toNat (renders before) →
      renders after = [] ∧ (8 ≤ steps after → p.phase = .exited (.renderFailures (max limit 1)))) ∧
    (p.phase.uncounted = [] →
      p.streak.toNat = min (trailingFailures (renders t)) (UInt32.size - 1)) ∧
    ∀ e ∈ t, e.move.isAdvance → e.before.1.phase = .ready →
      ∃ report, e.after.1.phase = .rendering report := by
  obtain ⟨life, lived⟩ := Lived.of_run run
  obtain ⟨results, counted⟩ := Counted.of_run run
  have configured : p.config = config := (config_of_run run).1
  refine ⟨fun reason stops => ⟨?_, ?_, ?_⟩, ?_, ?_, ?_, ?_⟩
  · have ends := lived.ends stops
    simp only [lived.calls, created_mem]
    cases life with
    | waiting => cases ends
    | failed e => exact iff_of_true ends ⟨e, rfl⟩
    | lived core load frames => exact iff_of_false ends (by simp)
  · rintro rfl
    exact stop_of_run run (.inr stops)
  · rintro count rfl
    obtain ⟨patience, trailing⟩ := counted.spent stops
    rw [configured] at patience
    obtain ⟨limit, hl, -⟩ := Option.map_eq_some_iff.1 patience
    rw [patience_of_failureLimit hl, Option.some.injEq] at patience
    exact ⟨limit, hl, (UInt32.toNat_inj.1 patience).symm,
      endsInFailures_iff.2 (Nat.le_of_eq trailing.symm)⟩
  · rintro before after error rfl failed
    obtain ⟨x, first, later⟩ := run.cut
    obtain ⟨life, lived⟩ := Lived.of_run first
    rw [lived.calls, created_mem] at failed
    subst failed
    exact exits_of_bound later lived.bound.1 lived.bound.2
  · rintro before after limit rfl hl failed
    obtain ⟨x, first, later⟩ := run.cut
    obtain ⟨results, counted⟩ := Counted.of_run first
    have patience : x.1.config.patience = some (max limit 1).toNat := by
      rw [(config_of_run first).1]
      exact patience_of_failureLimit hl
    obtain ⟨count, hc, bound, near⟩ := counted.bound patience (endsInFailures_iff.1 failed)
    obtain rfl := UInt32.toNat_inj.1 hc
    exact exits_of_bound later bound near
  · intro hp
    rw [counted.renders, hp, List.append_nil]
    exact counted.counts.streak
  · intro e he thread hp
    obtain ⟨due, step⟩ := advances_of_mem run he thread
    obtain ⟨before, after, rfl⟩ := List.append_of_mem he
    obtain ⟨life, lived⟩ := Lived.of_run run.split.1
    obtain ⟨core, hc⟩ := lived.core_of_ready hp
    exact step.of_ready hp hc

open Lockstep in
theorem stops_at_first_failure :
    ∃ t p w, (machine Script.surroundings).Run
        (start { failureLimit := some 0 } 7 none, { failing := .always }) t (p, w) ∧
      t.map (·.move) = List.replicate 6 (.advance true) ++ [.stop] ++
        List.replicate 8 (.advance true) ∧
      p.phase = .exited (.renderFailures 1) := by
  obtain ⟨t, p, w, ran, moves, failed, enough⟩ :
      ∃ t p w, (machine Script.surroundings).run?
          (List.replicate 6 (.advance true) ++ [.stop] ++ List.replicate 8 (.advance true))
          (start { failureLimit := some 0 } 7 none, { failing := .always }) = some (t, p, w) ∧
        t.map (·.move) = List.replicate 6 (.advance true) ++ [.stop] ++
          List.replicate 8 (.advance true) ∧
        trailingFailures (renders (t.take 6)) = 1 ∧ steps (t.drop 6) = 8 :=
    ⟨_, _, _, rfl, rfl, rfl, rfl⟩
  have run := Machine.Run.of_run? ran
  have stopped := (stops_for_the_right_reason run).2.2.1 (t.take 6) (t.drop 6) 0
    (List.take_append_drop ..).symm rfl (endsInFailures_iff.2 (Nat.le_of_eq failed.symm))
  exact ⟨t, p, w, run, moves, stopped.2 (Nat.le_of_eq enough.symm)⟩

end Pump

end EmulatorHost
