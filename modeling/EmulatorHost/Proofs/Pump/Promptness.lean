import EmulatorHost.Proofs.Pump.Teardown

namespace EmulatorHost

inductive Flag where
  | stop
  | pause
  deriving DecidableEq, Repr

namespace Flag

variable {κ σ η : Type}

def isRaised (p : Pump κ σ η) : Flag → Bool
  | .stop => p.stopRequested
  | .pause => p.paused

def raise : Flag → Pump.Move η
  | .stop => .stop
  | .pause => .pause true

def isLoweredBy : Flag → Pump.Move η → Bool
  | .pause, .pause false => true
  | _, _ => false

/-- Whether a frame can start in this phase before the thread looks at the flag again. -/
def isMissedIn : Flag → Phase κ → Bool
  | .stop, .checkingPause | .pause, .awaitingDeadline | _, .ready => true
  | _, _ => false

theorem not_isAdvance_raise (flag : Flag) : ¬ (flag.raise : Pump.Move η).isAdvance := by
  cases flag <;> exact nofun

theorem isMissedIn_of_isRendering {flag : Flag} {phase : Phase κ} (h : phase.isRendering) :
    flag.isMissedIn phase = false := by
  cases phase with
  | rendering report => cases flag <;> rfl
  | _ => cases h

end Flag

def Phase.distance {κ : Type} : Phase κ → Nat
  | .checkingPause => 11
  | .ready => 10
  | .rendering _ | .creating => 9
  | .reportingResize _ | .installing _ => 8
  | .counting _ | .announcingCore _ => 7
  | .reportingFailure .. | .announcingRom _ => 6
  | .createFailed _ | .checkingStop | .awaitingDeadline => 5
  | .tearingDown _ => 4
  | .dropping .. => 3
  | .dropped _ => 2
  | .announcingStop _ => 1
  | .exited _ => 0

namespace Phase

variable {κ : Type}

theorem distance_le (phase : Phase κ) : phase.distance ≤ 11 := by
  cases phase <;> simp [distance]

theorem exited_of_distance {phase : Phase κ} (h : phase.distance = 0) :
    ∃ reason, phase = .exited reason := by
  cases phase with
  | exited reason => exact ⟨reason, rfl⟩
  | _ => cases h

end Phase

namespace Pump

variable {κ σ η ω : Type} {s : Surroundings κ σ η ω} {due : Bool} {m : Move η} {answer : Answer}
  {calls : List (Activity κ σ η)} {x x' : Pump κ σ η × ω} {t : List (Entry κ σ η ω)}
  {p : Pump κ σ η} {event : Notification} {next : Phase κ} {config : Config} {surface : σ}
  {subscriber : Option η} {w w' : ω} {flag : Flag} {core : κ} {life : Life κ}

theorem Announces.not_missed (h : Announces p event next) : flag.isMissedIn next = false := by
  cases h with
  | failure =>
    rcases afterFailure_eq p.config p.streak with hn | hn <;> rw [hn] <;> cases flag <;> rfl
  | _ => cases flag <;> rfl

theorem Passes.missed (h : Passes due p next) (raised : flag.isRaised p = true)
    (missed : flag.isMissedIn next = true) : flag.isMissedIn p.phase = true := by
  cases flag with
  | stop =>
    cases h with
    | onwards _ hs | due _ hs | waits _ hs => cases hs.symm.trans raised
    | unpaced hp =>
      rw [hp]
      rfl
    | _ => cases missed
  | pause =>
    cases h with
    | unpaced _ hp | paced _ hp => cases hp.symm.trans raised
    | due hp | waits hp =>
      rw [hp]
      rfl
    | _ => cases missed

theorem Advances.isRaised (h : Advances s due x calls x') (flag : Flag) :
    flag.isRaised x'.1 = flag.isRaised x.1 := by
  cases flag <;> cases h <;> rfl

theorem Advances.heeds (h : Advances s due x calls x') (raised : flag.isRaised x.1 = true) :
    (calls.filterMap Activity.rendered?).length + (flag.isMissedIn x'.1.phase).toNat ≤
      (flag.isMissedIn x.1.phase).toNat := by
  have quiet (silent : calls.filterMap Activity.rendered? = [])
      (heeded : flag.isMissedIn x'.1.phase = true → flag.isMissedIn x.1.phase = true) :
      (calls.filterMap Activity.rendered?).length + (flag.isMissedIn x'.1.phase).toNat ≤
        (flag.isMissedIn x.1.phase).toNat := by
    rw [silent]
    cases missed : flag.isMissedIn x'.1.phase with
    | false => exact Nat.zero_le _
    | true => simp [heeded missed]
  cases h with
  | announced ha ht => exact quiet ht.renders fun missed => by simp [ha.not_missed] at missed
  | passed hp => exact quiet rfl (hp.missed raised)
  | rendered hp | pushed hp =>
    rw [hp]
    cases flag <;> simp [List.filterMap_cons, Activity.rendered?, Flag.isMissedIn, enter]
  | rested => exact quiet rfl id
  | created | refused | installed | loaded | missed | counted | failed | tornDown | dropped
  | ended =>
    refine quiet (by simp [Activity.rendered?]) fun missed => ?_
    cases flag <;> cases missed

theorem Serves.isRaised (h : Serves s m x answer calls x') (held : flag.isLoweredBy m = false)
    (raised : flag.isRaised x.1 = true) : flag.isRaised x'.1 = true := by
  cases h with
  | @paused _ _ on =>
    cases flag with
    | stop => exact raised
    | pause =>
      cases on with
      | true => rfl
      | false => cases held
  | stopped =>
    cases flag with
    | stop => rfl
    | pause => exact raised
  | _ => cases flag <;> exact raised

theorem Serves.raises (h : Serves s m x answer calls x') (raise : m = flag.raise) :
    flag.isRaised x'.1 = true := by
  have pathless : m.path? = none := by
    rw [raise]
    cases flag <;> rfl
  cases h with
  | unnamed hm | refused hm | parked hm | asked hm => cases hm.symm.trans pathless
  | paused =>
    cases flag with
    | stop => cases raise
    | pause =>
      cases raise
      rfl
  | stopped =>
    cases flag with
    | stop => rfl
    | pause => cases raise
  | _ => cases flag <;> cases raise

theorem renders_of_raised (run : (machine s).Run x t x') (raised : flag.isRaised x.1 = true)
    (held : ∀ e ∈ t, flag.isLoweredBy e.move = false) :
    (renders t).length ≤ (flag.isMissedIn x.1.phase).toNat := by
  refine Nat.le_trans (Nat.le_add_right _ _)
    (run_induction (Q := fun t x' => (∀ e ∈ t, flag.isLoweredBy e.move = false) →
      flag.isRaised x'.1 = true ∧ (renders t).length + (flag.isMissedIn x'.1.phase).toNat ≤
        (flag.isMissedIn x.1.phase).toNat) ?_ ?_ ?_ run held).2
  · exact fun _ => ⟨raised, by simp [renders]⟩
  · intro t x' due calls x'' _ ih step held
    obtain ⟨raised, most⟩ := ih fun e he => held e (by simp [he])
    refine ⟨(step.isRaised flag).trans raised, ?_⟩
    have heeds := step.heeds raised
    rw [renders_concat, List.length_append]
    dsimp only
    omega
  · intro t x' m answer calls x'' _ ih _ step held
    obtain ⟨raised, most⟩ := ih fun e he => held e (by simp [he])
    refine ⟨step.isRaised (held _ List.mem_concat_self) raised, ?_⟩
    rwa [renders_concat, step.renders, List.append_nil, step.untouched.phase]

theorem Announces.nearer (h : Announces p event next) :
    next.distance ≤ p.phase.distance - 1 := by
  cases h with
  | failure hp =>
    rcases afterFailure_eq p.config p.streak with hn | hn <;> rw [hp, hn] <;>
      simp [Phase.distance]
  | _ hp =>
    rw [hp]
    simp [Phase.distance]

theorem Passes.nearer (h : Passes due p next) (asked : p.stopRequested = true) :
    next.distance ≤ p.phase.distance - 1 := by
  cases h with
  | onwards _ hs | due _ hs | waits _ hs => cases hs.symm.trans asked
  | toStop hp | paused hp | unpaced hp | paced hp | stopMeanwhile hp | rendered hp | unresized hp
  | coreless hp =>
    rw [hp]
    simp [Phase.distance]

theorem Advances.nearer (h : Advances s due x calls x') (asked : x.1.stopRequested = true) :
    x'.1.phase.distance ≤ x.1.phase.distance - 1 := by
  cases h with
  | announced ha => exact ha.nearer
  | passed hp => exact hp.nearer asked
  | created hp | refused hp | installed hp | loaded hp | missed hp | rendered hp | pushed hp
  | counted hp | failed hp | tornDown hp | dropped hp | ended hp =>
    rw [hp]
    simp [Phase.distance, enter]
  | rested hp => simp [hp, Phase.distance]

theorem distance_of_run (run : (machine s).Run x t x') (asked : x.1.stopRequested = true) :
    x'.1.stopRequested = true ∧ x'.1.phase.distance ≤ x.1.phase.distance - steps t := by
  refine run_induction (Q := fun t x' => x'.1.stopRequested = true ∧
    x'.1.phase.distance ≤ x.1.phase.distance - steps t) ⟨asked, Nat.le_refl _⟩ ?_ ?_ run
  · rintro t x' due calls x'' - ⟨asked, near⟩ step
    refine ⟨(step.isRaised .stop).trans asked, ?_⟩
    have nearer := step.nearer asked
    have counted : steps (t ++ [⟨x', .advance due, .silent, calls, x''⟩]) = steps t + 1 := by
      simp [steps, Move.isAdvance]
    omega
  · rintro t x' m answer calls x'' - ⟨asked, near⟩ host step
    refine ⟨step.isRaised (show Flag.stop.isLoweredBy m = false from rfl) asked, ?_⟩
    rw [step.untouched.phase, steps, List.countP_append]
    simpa [host, steps] using near

theorem exits_of_stop (run : (machine s).Run x t x') (asked : x.1.stopRequested = true)
    (enough : 11 ≤ steps t) : ∃ reason, x'.1.phase = .exited reason := by
  have near := (distance_of_run run asked).2
  have far := x.1.phase.distance_le
  exact Phase.exited_of_distance (by omega)

theorem Keeps.unready {custody : Custody κ} (h : Keeps calls p custody)
    (uncreated : custody.created? = none) : flag.isMissedIn p.phase = false := by
  have fits := h.fits
  cases hp : p.phase with
  | checkingPause | awaitingDeadline | ready =>
    rw [hp] at fits
    obtain ⟨core, rfl, -⟩ := fits
    cases uncreated
  | _ => cases flag <;> rfl

theorem created_of_run (run : (machine s).Run (start config surface subscriber, w) t x) :
    created t = (coreCalls t).filterMap Activity.created? := by
  refine run_induction (Q := fun t _ => created t = (coreCalls t).filterMap Activity.created?)
    rfl ?_ ?_ run
  · intro t x due calls x' _ ih _
    have same := filterMap_toCore Activity.toCore_of_created calls
    rw [coreCalls_concat, List.filterMap_append, ← ih]
    simp [created, Move.isAdvance, ← same, toCore]
  · intro t x m answer calls x' _ ih host step
    have uncreated : calls.filterMap Activity.created? = [] := by
      refine List.filterMap_eq_nil_iff.2 fun call hc => ?_
      cases call with
      | created made => exact absurd hc step.not_created
      | _ => rfl
    rw [coreCalls_concat, if_neg host, List.append_nil, ← ih]
    simp [created, uncreated]

theorem Lived.created (h : Lived subscriber t p life)
    (run : (machine s).Run (start config surface subscriber, w) t x) :
    created t = life.core?.toList := by
  have undropped :
      (life.drops p.phase : List (Activity κ σ η)).filterMap Activity.created? = [] := by
    cases p.phase <;> cases life <;> rfl
  have uncreated (core : κ) (frames : List Frame) :
      (frames.flatMap (Frame.calls core p.surface) : List (Activity κ σ η)).filterMap
        Activity.created? = [] := by
    induction frames with
    | nil => rfl
    | cons f rest ih =>
      rcases f with ⟨_ | push, render⟩ <;>
        simpa [Frame.calls, List.filterMap_cons, Activity.created?] using ih
  rw [created_of_run run, h.calls, List.filterMap_append, undropped, List.append_nil]
  cases life with
  | waiting | failed e => rfl
  | lived core load frames =>
    cases load <;> simp [Life.calls, uncreated, List.filterMap_cons, Activity.created?, Life.core?]

structure Receives (core : κ) (e : Entry κ σ η ω) : Prop where
  installs : Installs core e
  held : e.after.1.coordinator.core = some core
  loads : ∀ path, e.before.1.coordinator.parkedRom = some path →
    ∃ outcome, e.calls = [.loaded core path outcome]
  quiet : e.before.1.coordinator.parkedRom = none → e.calls = []

theorem Advances.receives (h : Advances s due x calls x') (hp : x.1.phase = .installing core)
    (empty : x.1.coordinator.core = none) :
    Receives core ⟨x, .advance due, .silent, calls, x'⟩ := by
  have undropped : ((x.1.coordinator.core.map .dropped).toList : List (Activity κ σ η)) = [] := by
    rw [empty]
    rfl
  cases h with
  | installed hp' hr =>
    obtain rfl := Phase.installing.inj (hp'.symm.trans hp)
    exact ⟨⟨rfl, hp⟩, rfl, (fun path parked => nomatch hr.symm.trans parked), fun _ => undropped⟩
  | @loaded _ _ _ _ _ outcome hp' hr =>
    obtain rfl := Phase.installing.inj (hp'.symm.trans hp)
    refine ⟨⟨rfl, hp⟩, rfl, (fun path parked => ⟨outcome, ?_⟩),
      fun none => nomatch hr.symm.trans none⟩
    obtain rfl := Option.some.inj (hr.symm.trans parked)
    exact congrArg (· ++ _) undropped
  | announced ha => cases ha with
    | _ other => cases hp.symm.trans other
  | passed pass => cases pass with
    | _ other => cases hp.symm.trans other
  | _ other => cases hp.symm.trans other

theorem receives_of_run (run : (machine s).Run (start config surface subscriber, w) t x)
    (made : core ∈ created t) (settled : x.1.phase.awaitsInstall = false) :
    ∃ earlier e later, t = earlier ++ e :: later ∧ Receives core e := by
  obtain ⟨life, lived⟩ := Lived.of_run run
  have installed := lived.installed settled
  rw [lived.created run] at made
  cases life with
  | waiting | failed e => cases made
  | lived k load frames =>
    obtain rfl : core = k := by simpa [Life.core?] using made
    obtain ⟨earlier, e, later, rfl, installs, -⟩ := installed
    obtain ⟨due, step⟩ := advances_of_mem run (by simp) installs.1
    obtain ⟨life, before⟩ := Lived.of_run run.split.1
    have fits := before.fits
    rw [installs.2] at fits
    have received := step.receives installs.2 fits.2
    exact ⟨earlier, e, later, rfl, ⟨installs, received.held, received.loads, received.quiet⟩⟩

theorem requested_of_unrendered {reason : StopReason}
    (run : (machine s).Run (start config surface subscriber, w) t x)
    (made : created t ≠ []) (unrendered : renders t = [])
    (exited : x.1.phase = .exited reason) : reason = .requested := by
  obtain ⟨life, lived⟩ := Lived.of_run run
  obtain ⟨results, counted⟩ := Counted.of_run run
  have stops : x.1.phase.reason? = some reason := by
    rw [exited]
    rfl
  have ends := lived.ends stops
  rw [lived.created run] at made
  cases reason with
  | requested => rfl
  | createFailed =>
    cases life with
    | waiting | failed e => simp [Life.core?] at made
    | lived core load frames => exact absurd rfl ends
  | renderFailures count =>
    obtain ⟨patience, trailing⟩ := counted.spent stops
    rw [unrendered, trailingFailures_nil] at trailing
    have positive := (Config.patience_pos patience).1
    omega

section Runs

variable {before after : List (Entry κ σ η ω)} {e : Entry κ σ η ω}

theorem serves_of_raise (flag : Flag) (run : (machine s).Run (start config surface subscriber, w)
    (before ++ e :: after) x) (raise : e.move = flag.raise) :
    Serves s e.move e.before e.answer e.calls e.after :=
  serves_of_mem run (List.mem_append_right _ List.mem_cons_self) (raise ▸ flag.not_isAdvance_raise)

theorem renders_after_raise (flag : Flag) {held later : List (Entry κ σ η ω)}
    (run : (machine s).Run (start config surface subscriber, w) (before ++ e :: (held ++ later)) x)
    (raise : e.move = flag.raise) (kept : ∀ f ∈ held, flag.isLoweredBy f.move = false) :
    (renders held).length ≤ 1 ∧
      (flag.isMissedIn e.before.1.phase = false → renders held = []) := by
  have step := serves_of_raise flag run raise
  obtain ⟨-, -, -, last⟩ := run.split
  obtain ⟨x', during, -⟩ := last.cut
  have most := renders_of_raised during (step.raises raise) kept
  rw [step.untouched.phase] at most
  refine ⟨Nat.le_trans most (Bool.toNat_le _), fun heeded => ?_⟩
  rw [heeded] at most
  exact List.length_eq_zero_iff.1 (Nat.le_zero.1 most)

theorem unrendered_of_early_stop
    (run : (machine s).Run (start config surface subscriber, w) (before ++ e :: after) x)
    (stop : e.move = .stop) (early : created before = []) :
    renders (before ++ e :: after) = [] := by
  obtain ⟨custody, keeps⟩ := Keeps.of_run run.split.1
  obtain ⟨life, lived⟩ := Lived.of_run run.split.1
  have uncreated : custody.created? = none := by
    simpa [early] using keeps.created
  have earlier : renders before = [] := by
    have coreless := lived.created run.split.1
    rw [early] at coreless
    rw [lived.renders]
    cases life with
    | lived core load frames => cases coreless
    | _ => rfl
  have whole : (machine s).Run (start config surface subscriber, w)
      (before ++ e :: (after ++ [])) x := by simpa using run
  have later := (renders_after_raise .stop whole stop fun f _ => rfl).2 (keeps.unready uncreated)
  have step := serves_of_raise .stop run stop
  have parts : renders (before ++ e :: after) =
      renders before ++ (e.calls.filterMap Activity.rendered? ++ renders after) := by
    simp [renders]
  rw [parts, earlier, step.renders, later]
  rfl

end Runs

/-- How soon a stop and a pause are heeded: one more frame can start, but not if one was under way.
A pump that was stopped is over after so many steps; if that was before there was a core, the core
is still taken over with the ROM that is parked for it, and gets no frame. -/
theorem heeded_within_a_frame {s : Surroundings κ σ η ω} {config : Config} {surface : σ}
    {subscriber : Option η} {w w' : ω} {t : List (Entry κ σ η ω)} {p : Pump κ σ η}
    (run : (machine s).Run (start config surface subscriber, w) t (p, w')) :
    (∀ before e after, t = before ++ e :: after → e.move = .stop →
      (renders after).length ≤ 1 ∧ (e.before.1.phase.isRendering → renders after = []) ∧
      (11 ≤ steps after → ∃ reason, p.phase = .exited reason) ∧
      (created before = [] → renders t = [] ∧ ∀ core ∈ created t,
        (∀ reason, p.phase = .exited reason → reason = .requested) ∧
        (p.phase.awaitsInstall = false →
          ∃ earlier i later, t = earlier ++ i :: later ∧ Receives core i))) ∧
    ∀ before e held after, t = before ++ e :: (held ++ after) → e.move = .pause true →
      (∀ f ∈ held, f.move ≠ .pause false) →
        (renders held).length ≤ 1 ∧ (e.before.1.phase.isRendering → renders held = []) := by
  constructor
  · rintro before e after rfl stop
    have step := serves_of_raise .stop run stop
    have asked : Flag.stop.isRaised e.after.1 = true := step.raises stop
    have whole : (machine s).Run (start config surface subscriber, w)
        (before ++ e :: (after ++ [])) (p, w') := by simpa using run
    have heeded := renders_after_raise .stop whole stop fun f _ => rfl
    refine ⟨heeded.1, fun rendering => heeded.2 (Flag.isMissedIn_of_isRendering rendering),
      fun enough => exits_of_stop run.split.2.2.2 asked enough, fun early => ?_⟩
    have unrendered := unrendered_of_early_stop run stop early
    refine ⟨unrendered, fun core made => ⟨fun reason exited => ?_, receives_of_run run made⟩⟩
    exact requested_of_unrendered run (List.ne_nil_of_mem made) unrendered exited
  · rintro before e held after rfl pause kept
    have heeded := renders_after_raise .pause run pause fun f hf => by
      cases hm : f.move with
      | pause on =>
        cases on with
        | true => rfl
        | false => exact absurd hm (kept f hf)
      | _ => rfl
    exact ⟨heeded.1, fun rendering => heeded.2 (Flag.isMissedIn_of_isRendering rendering)⟩

open Lockstep in
theorem early_stop_leaves_no_frame :
    ∃ t p w, (machine Script.surroundings).Run (start {} 7 none, {}) t (p, w) ∧
      t.map (·.move) = [.load ⟨[97]⟩, .stop] ++ List.replicate 11 (.advance true) ∧
      p.phase = .exited .requested ∧ renders t = [] ∧
      ∃ earlier i later, t = earlier ++ i :: later ∧ Receives 1 i := by
  obtain ⟨t, p, w, ran, moves, e, split, stop, early, enough, made⟩ :
      ∃ t p w, (machine Script.surroundings).run?
          ([.load ⟨[97]⟩, .stop] ++ List.replicate 11 (.advance true))
          (start {} 7 none, {}) = some (t, p, w) ∧
        t.map (·.move) = [.load ⟨[97]⟩, .stop] ++ List.replicate 11 (.advance true) ∧
        ∃ e, t = t.take 1 ++ e :: t.drop 2 ∧ e.move = .stop ∧ created (t.take 1) = [] ∧
          steps (t.drop 2) = 11 ∧ created t = [1] :=
    ⟨_, _, _, rfl, rfl, _, rfl, rfl, rfl, rfl, rfl⟩
  have run := Machine.Run.of_run? ran
  obtain ⟨-, -, exits, leaves⟩ := (heeded_within_a_frame run).1 _ e _ split stop
  obtain ⟨reason, exited⟩ := exits (Nat.le_of_eq enough.symm)
  obtain ⟨unrendered, of_core⟩ := leaves early
  obtain ⟨requested, received⟩ := of_core 1 (by rw [made]; exact List.mem_singleton_self 1)
  obtain rfl := requested reason exited
  exact ⟨t, p, w, run, moves, exited, unrendered, received (by rw [exited]; rfl)⟩

end Pump

end EmulatorHost
