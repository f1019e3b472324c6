import EmulatorHost.Proofs.Pump.History

namespace EmulatorHost

def trailingFailures (results : List CoreOutcome) : Nat :=
  (results.reverse.takeWhile (!·.accepted)).length

@[simp] theorem trailingFailures_nil : trailingFailures [] = 0 := rfl

@[simp] theorem trailingFailures_ok (results : List CoreOutcome) (u : Unit) :
    trailingFailures (results ++ [.ok u]) = 0 := by
  simp [trailingFailures, CoreOutcome.accepted]

@[simp] theorem trailingFailures_error (results : List CoreOutcome) (e : CoreError) :
    trailingFailures (results ++ [.error e]) = trailingFailures results + 1 := by
  simp [trailingFailures, CoreOutcome.accepted]

def EndsInFailures (n : Nat) (results : List CoreOutcome) : Prop :=
  ∃ before last, results = before ++ last ∧ last.length = n ∧ ∀ r ∈ last, r.accepted = false

theorem endsInFailures_iff {n : Nat} {results : List CoreOutcome} :
    EndsInFailures n results ↔ n ≤ trailingFailures results := by
  unfold trailingFailures
  constructor
  · rintro ⟨before, last, rfl, rfl, failed⟩
    rw [List.reverse_append, List.takeWhile_append_of_pos (by simpa using failed)]
    simp
  · intro h
    have split := List.takeWhile_append_dropWhile (p := (!·.accepted)) (l := results.reverse)
    have all := List.all_takeWhile (p := (!·.accepted)) (l := results.reverse)
    generalize results.reverse.takeWhile (!·.accepted) = failed at h split all
    refine ⟨(failed.drop n ++ results.reverse.dropWhile (!·.accepted)).reverse,
      (failed.take n).reverse, ?_, by simp [h], fun r hr => ?_⟩
    · rw [← List.reverse_append, ← List.append_assoc, List.take_append_drop, split,
        List.reverse_reverse]
    · have := List.all_eq_true.1 all r (List.mem_of_mem_take (List.mem_reverse.1 hr))
      simpa using this

/-- With so many failures in a row the pump gives up, and with less than one it never does. -/
def Config.patience (config : Config) : Option Nat :=
  config.failureLimit.map fun limit => max limit.toNat 1

theorem Config.patience_pos {config : Config} {n : Nat} (h : config.patience = some n) :
    0 < n ∧ n < UInt32.size := by
  obtain ⟨limit, -, rfl⟩ := Option.map_eq_some_iff.1 h
  have small := limit.toNat_lt
  simp only [UInt32.size]
  omega

namespace Phase

variable {κ : Type}

def uncounted : Phase κ → List CoreOutcome
  | .rendering report | .reportingResize report => [report.render]
  | .counting render => [render]
  | _ => []

end Phase

namespace Pump

variable {κ σ η ω : Type}
  {s : Surroundings κ σ η ω} {due : Bool} {m : Move η} {answer : Answer}
  {calls : List (Activity κ σ η)} {x x' : Pump κ σ η × ω} {t : List (Entry κ σ η ω)}
  {p : Pump κ σ η} {event : Notification} {next : Phase κ} {config : Config} {surface : σ}
  {subscriber : Option η} {w : ω} {results : List CoreOutcome}

def renders (t : List (Entry κ σ η ω)) : List CoreOutcome :=
  (t.flatMap (·.calls)).filterMap Activity.rendered?

theorem renders_concat (t : List (Entry κ σ η ω)) (e : Entry κ σ η ω) :
    renders (t ++ [e]) = renders t ++ e.calls.filterMap Activity.rendered? := by simp [renders]

@[simp] theorem Tells.renders {x x' : Notifier η × ω} (h : Tells s event x calls x') :
    calls.filterMap Activity.rendered? = [] := by
  cases h <;> rfl

theorem Serves.renders (h : Serves s m x answer calls x') :
    calls.filterMap Activity.rendered? = [] := by
  cases h with
  | told _ ht => exact ht.renders
  | subscribed => simp
  | unsubscribed => simp
  | _ => rfl

@[simp] theorem uncounted_afterFailure (config : Config) (streak : UInt32) :
    (afterFailure config streak : Phase κ).uncounted = [] := by
  rcases @afterFailure_eq κ config streak with h | h <;> rw [h] <;> rfl

theorem Announces.uncounted (h : Announces p event next) : next.uncounted = p.phase.uncounted := by
  cases h with
  | failure h =>
    rw [uncounted_afterFailure, h]
    rfl
  | _ h => rw [h]; rfl

theorem Passes.uncounted (h : Passes due p next) : next.uncounted = p.phase.uncounted := by
  cases h <;> simp [*, Phase.uncounted]

theorem nextStreak_toNat (streak : UInt32) :
    (nextStreak streak).toNat = min (streak.toNat + 1) (UInt32.size - 1) := by
  have small := streak.toNat_lt
  have next : (streak + 1).toNat = (streak.toNat + 1) % UInt32.size := by simp
  simp only [UInt32.size] at *
  by_cases full : streak + 1 = 0
  · rw [full] at next
    simp only [nextStreak, full, if_true]
    simp at next
    omega
  · have room : (streak + 1).toNat ≠ 0 := fun h => full (UInt32.toNat_inj.1 h)
    simp only [nextStreak, full, if_false]
    omega

structure Counts (results : List CoreOutcome) (p : Pump κ σ η) : Prop where
  frames : p.frames = UInt64.ofNat (results.countP CoreOutcome.accepted)
  failures : p.failures = UInt64.ofNat (results.countP (!·.accepted))
  streak : p.streak.toNat = min (trailingFailures results) (UInt32.size - 1)

namespace Counts

variable {results : List CoreOutcome} {p q : Pump κ σ η}

theorem start (config : Config) (surface : σ) (subscriber : Option η) :
    Counts [] (start config surface subscriber : Pump κ σ η) := by
  constructor <;> rfl

theorem same (h : Counts results p) (frames : q.frames = p.frames)
    (failures : q.failures = p.failures) (streak : q.streak = p.streak) : Counts results q where
  frames := frames.trans h.frames
  failures := failures.trans h.failures
  streak := by rw [streak, h.streak]

theorem ok (h : Counts results p) (u : Unit) (frames : q.frames = p.frames + 1)
    (failures : q.failures = p.failures) (streak : q.streak = 0) :
    Counts (results ++ [.ok u]) q where
  frames := by simp [frames, h.frames, List.countP_append, CoreOutcome.accepted]
  failures := by simp [failures, h.failures, List.countP_append, CoreOutcome.accepted]
  streak := by simp [streak]

theorem error (h : Counts results p) (e : CoreError) (frames : q.frames = p.frames)
    (failures : q.failures = p.failures + 1) (streak : q.streak = nextStreak p.streak) :
    Counts (results ++ [.error e]) q where
  frames := by simp [frames, h.frames, List.countP_append, CoreOutcome.accepted]
  failures := by simp [failures, h.failures, List.countP_append, CoreOutcome.accepted]
  streak := by
    rw [streak, nextStreak_toNat, h.streak, trailingFailures_error]
    omega

end Counts

def Within (config : Config) (results : List CoreOutcome) : Prop :=
  ∀ n, config.patience = some n → trailingFailures results < n

/-- What the frames that have been counted have to do with where the thread is. -/
def Judged (config : Config) (results : List CoreOutcome) : Phase κ → Prop
  | .reportingFailure .. =>
    0 < trailingFailures results ∧ ∀ n, config.patience = some n → trailingFailures results ≤ n
  | .tearingDown (.renderFailures count) | .dropping _ (.renderFailures count)
  | .dropped (.renderFailures count) | .announcingStop (.renderFailures count)
  | .exited (.renderFailures count) =>
    config.patience = some count.toNat ∧ trailingFailures results = count.toNat
  | _ => Within config results

theorem judged_afterFailure {streak : UInt32}
    (hs : streak.toNat = min (trailingFailures results) (UInt32.size - 1))
    (failed : 0 < trailingFailures results)
    (within : ∀ n, config.patience = some n → trailingFailures results ≤ n) :
    Judged config results (afterFailure config streak : Phase κ) := by
  cases hl : config.failureLimit with
  | none =>
    simp only [afterFailure, hl]
    intro n hn
    simp [Config.patience, hl] at hn
  | some limit =>
    have patience : config.patience = some (max limit.toNat 1) := by simp [Config.patience, hl]
    have most := within _ patience
    -- the counter may stand still, but not before it has reached every limit
    have small := limit.toNat_lt
    simp only [UInt32.size] at hs
    by_cases reached : limit ≤ streak
    · have reached' := UInt32.le_iff_toNat_le.1 reached
      simp only [afterFailure, hl, reached, if_true]
      exact ⟨by rw [patience, Option.some.injEq]; omega, by omega⟩
    · have short : streak.toNat < limit.toNat := by
        rwa [UInt32.le_iff_toNat_le, Nat.not_le] at reached
      simp only [afterFailure, hl, reached, if_false]
      intro n hn
      obtain rfl := Option.some.inj (patience.symm.trans hn)
      omega

theorem Announces.judged (h : Announces p event next) (counts : Counts results p)
    (judged : Judged p.config results p.phase) : Judged p.config results next := by
  cases h with
  | failure hp =>
    rw [hp] at judged
    exact judged_afterFailure counts.streak judged.1 judged.2
  | @stop reason hp =>
    rw [hp] at judged
    cases reason <;> exact judged
  | createFailed hp | core hp | coreWithRom hp | rom hp | resize hp =>
    rw [hp] at judged
    exact judged

theorem Passes.judged (h : Passes due p next) (judged : Judged p.config results p.phase) :
    Judged p.config results next := by
  cases h with
  | @coreless reason hp =>
    rw [hp] at judged
    cases reason <;> exact judged
  | toStop hp | onwards hp | paused hp | unpaced hp | paced hp | stopMeanwhile hp | due hp
  | waits hp | rendered hp | unresized hp =>
    rw [hp] at judged
    exact judged

structure Counted (t : List (Entry κ σ η ω)) (results : List CoreOutcome) (p : Pump κ σ η) :
    Prop where
  counts : Counts results p
  renders : renders t = results ++ p.phase.uncounted
  judged : Judged p.config results p.phase

namespace Counted

variable {t : List (Entry κ σ η ω)} {results : List CoreOutcome} {e : Entry κ σ η ω}

theorem quiet (h : Counted t results e.before.1)
    (silent : e.calls.filterMap Activity.rendered? = [])
    (phase : e.after.1.phase.uncounted = e.before.1.phase.uncounted)
    (frames : e.after.1.frames = e.before.1.frames)
    (failures : e.after.1.failures = e.before.1.failures)
    (streak : e.after.1.streak = e.before.1.streak)
    (judged : Judged e.after.1.config results e.after.1.phase) :
    Counted (t ++ [e]) results e.after.1 where
  counts := h.counts.same frames failures streak
  renders := by rw [renders_concat, silent, phase, List.append_nil, h.renders]
  judged := judged

theorem frames_of_uncounted (h : Counted t results p) (hp : p.phase.uncounted = []) :
    p.frames = .ofNat ((Pump.renders t).countP CoreOutcome.accepted) := by
  rw [h.renders, hp, List.append_nil, h.counts.frames]

theorem advance (h : Counted t results x.1) (step : Advances s due x calls x') :
    ∃ results, Counted (t ++ [⟨x, .advance due, .silent, calls, x'⟩]) results x'.1 := by
  have judged := h.judged
  cases step with
  | announced ha ht =>
    exact ⟨results, h.quiet ht.renders ha.uncounted rfl rfl rfl (ha.judged h.counts judged)⟩
  | passed hp => exact ⟨results, h.quiet rfl hp.uncounted rfl rfl rfl (hp.judged judged)⟩
  | rendered hp =>
    rw [hp] at judged
    refine ⟨results, h.counts.same rfl rfl rfl, ?_, judged⟩
    rw [renders_concat, h.renders, hp]
    simp [Phase.uncounted, Activity.rendered?, enter]
  | pushed hp =>
    rw [hp] at judged
    refine ⟨results, h.counts.same rfl rfl rfl, ?_, judged⟩
    rw [renders_concat, h.renders, hp]
    simp [Phase.uncounted, List.filterMap_cons, Activity.rendered?]
  | counted hp =>
    refine ⟨results ++ [.ok ()], h.counts.ok () (by rfl) (by rfl) (by rfl), ?_, fun n hn => ?_⟩
    · rw [renders_concat, h.renders, hp]
      simp [Phase.uncounted]
    · simpa using (Config.patience_pos hn).1
  | @failed _ _ e hp =>
    rw [hp] at judged
    refine ⟨results ++ [.error e], h.counts.error e (by rfl) (by rfl) (by rfl), ?_, ?_,
      fun n hn => ?_⟩
    · rw [renders_concat, h.renders, hp]
      simp [Phase.uncounted]
    · simp
    · rw [trailingFailures_error]
      exact judged n hn
  | loaded hp =>
    rw [hp] at judged
    exact ⟨results, h.quiet (by simp [Activity.rendered?]) (by rw [hp]; rfl) rfl rfl rfl judged⟩
  | @tornDown _ _ reason hp | @dropped _ _ _ reason hp | @ended _ _ reason hp =>
    rw [hp] at judged
    refine ⟨results, h.quiet (by simp [Activity.rendered?]) (by rw [hp]; rfl) rfl rfl rfl ?_⟩
    cases reason <;> exact judged
  | rested hp => exact ⟨results, h.quiet rfl rfl rfl rfl rfl judged⟩
  | created hp | refused hp | installed hp | missed hp =>
    rw [hp] at judged
    exact ⟨results, h.quiet (by simp [Activity.rendered?]) (by rw [hp]; rfl) rfl rfl rfl judged⟩

theorem of_run (run : (machine s).Run (start config surface subscriber, w) t x) :
    ∃ results, Counted t results x.1 := by
  refine run_induction (Q := fun t x => ∃ results, Counted t results x.1) ?_ ?_ ?_ run
  · exact ⟨[], .start config surface subscriber, rfl, fun n hn => (Config.patience_pos hn).1⟩
  · rintro t x due calls x' - ⟨results, h⟩ step
    exact h.advance step
  · rintro t x m answer calls x' - ⟨results, h⟩ - step
    have same := step.untouched
    refine ⟨results, h.quiet step.renders (by rw [same.phase]) same.frames same.failures
      same.streak ?_⟩
    rw [same.config, same.phase]
    exact h.judged

end Counted

section Steps

variable {s : Surroundings κ σ η ω} {due : Bool} {calls : List (Activity κ σ η)}
  {x x' : Pump κ σ η × ω}

def successes (results : List CoreOutcome) : Nat := results.countP CoreOutcome.accepted

theorem successes_le_one (phase : Phase κ) : successes phase.uncounted ≤ 1 := by
  cases phase with
  | rendering report | reportingResize report => exact List.countP_le_length
  | counting render => exact List.countP_le_length
  | _ => exact Nat.zero_le _

theorem Advances.frames (h : Advances s due x calls x') :
    ∃ d, x'.1.frames = x.1.frames + UInt64.ofNat d ∧
      successes (calls.filterMap Activity.rendered?) + successes x.1.phase.uncounted =
        d + successes x'.1.phase.uncounted := by
  have quiet (silent : calls.filterMap Activity.rendered? = [])
      (phase : x'.1.phase.uncounted = x.1.phase.uncounted) (frames : x'.1.frames = x.1.frames) :
      ∃ d, x'.1.frames = x.1.frames + UInt64.ofNat d ∧
        successes (calls.filterMap Activity.rendered?) + successes x.1.phase.uncounted =
          d + successes x'.1.phase.uncounted :=
    ⟨0, by simp [frames], by simp [silent, phase, successes]⟩
  cases h with
  | announced ha ht => exact quiet ht.renders ha.uncounted rfl
  | passed hp => exact quiet rfl hp.uncounted rfl
  | counted hp => exact ⟨1, rfl, by rw [hp]; rfl⟩
  | failed hp => exact ⟨0, by simp, by rw [hp]; rfl⟩
  | rendered hp | pushed hp =>
    refine ⟨0, by simp [enter], ?_⟩
    rw [hp]
    simp [List.filterMap_cons, Activity.rendered?, Phase.uncounted, enter, successes]
  | rested => exact quiet rfl rfl rfl
  | loaded hp | created hp | refused hp | installed hp | missed hp | tornDown hp | dropped hp
  | ended hp =>
    exact quiet (by simp [Activity.rendered?]) (by rw [hp]; rfl) rfl

end Steps

end Pump

end EmulatorHost
