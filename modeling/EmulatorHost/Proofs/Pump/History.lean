import EmulatorHost.Proofs.Coordinator.History
import EmulatorHost.Pump.Host

/-! The pump as a machine: `Advances` lists what the thread can do next, and `Serves` what a host
can come to. -/

namespace EmulatorHost.Pump

variable {κ σ η ω : Type}

def machine (s : Surroundings κ σ η ω) :
    Machine (Pump κ σ η × ω) (Move η) Answer (Activity κ σ η) where
  allows x m := x.1.allows m
  perform m x :=
    let r := x.1.perform s.recorded m ⟨x.2, []⟩
    (r.1, r.2.2.activity, r.2.1, r.2.2.world)

abbrev Entry (κ σ η ω : Type) := Episode (Pump κ σ η × ω) (Move η) Answer (Activity κ σ η)

inductive Tells (s : Surroundings κ σ η ω) (event : Notification) :
    Notifier η × ω → List (Activity κ σ η) → Notifier η × ω → Prop
  | unheard {w : ω} : Tells s event (⟨none⟩, w) [] (⟨none⟩, w)
  | heard {l : η} {w w' : ω} (h : s.deliver l event w = (true, w')) :
      Tells s event (⟨some l⟩, w) [.delivered l event true] (⟨some l⟩, w')
  | refused {l : η} {w w' : ω} (h : s.deliver l event w = (false, w')) :
      Tells s event (⟨some l⟩, w) [.delivered l event false, .released l] (⟨none⟩, s.release l w')

theorem tells (s : Surroundings κ σ η ω) (event : Notification) (n : Notifier η) (w : ω) :
    let r := n.broadcast s.recorded.toListeners event ⟨w, []⟩
    Tells s event (n, w) r.2.activity (r.1, r.2.world) := by
  rcases n with ⟨_ | l⟩
  · exact .unheard
  · rcases h : s.deliver l event w with ⟨_ | _, w'⟩ <;>
      simp only [Notifier.broadcast, Surroundings.recorded, Recorded.call, Recorded.note, h]
    · exact .refused h
    · exact .heard h

namespace Tells

variable {s : Surroundings κ σ η ω} {event : Notification} {x x' : Notifier η × ω}
  {calls : List (Activity κ σ η)}

theorem not_toCore (h : Tells s event x calls x') : calls.filter Activity.isToCore = [] := by
  cases h <;> rfl

theorem heard_of_not_refused (h : Tells s event x calls x') {l : η} (hl : x.1.subscriber = some l)
    (stays : ∀ call ∈ calls, call.isRefused = false) :
    x'.1.subscriber = some l ∧ calls = [.delivered l event true] := by
  cases h with
  | unheard => cases hl
  | heard =>
    obtain rfl := Option.some.inj hl
    exact ⟨rfl, rfl⟩
  | refused =>
    obtain rfl := Option.some.inj hl
    simp [Activity.isRefused] at stays

end Tells

theorem letGo_recorded (s : Surroundings κ σ η ω) (n : Notifier η) (w : ω) :
    n.letGo s.recorded.toListeners ⟨w, []⟩ =
      ⟨n.letGo s.toListeners w, (n.subscriber.map .released).toList⟩ := by
  rcases n with ⟨_ | l⟩ <;> rfl

inductive Announces (p : Pump κ σ η) : Notification → Phase κ → Prop
  | createFailed {e : CoreError} (h : p.phase = .createFailed e) :
      Announces p (.coreCreateFailed e) (.tearingDown .createFailed)
  | core (h : p.phase = .announcingCore none) : Announces p .coreCreated .checkingStop
  | coreWithRom {load : DeferredLoad} (h : p.phase = .announcingCore (some load)) :
      Announces p .coreCreated (.announcingRom load)
  | rom {load : DeferredLoad} (h : p.phase = .announcingRom load) :
      Announces p (romNotice load) .checkingStop
  | resize {r : Except CoreError Size} {render : CoreOutcome}
      (h : p.phase = .reportingResize ⟨some r, render⟩) :
      Announces p (resizeNotice r) (.counting render)
  | failure {frame : UInt64} {e : CoreError} (h : p.phase = .reportingFailure frame e) :
      Announces p (.renderFailed frame e) (afterFailure p.config p.streak)
  | stop {reason : StopReason} (h : p.phase = .announcingStop reason) :
      Announces p (.pumpStopped reason) (.exited reason)

theorem afterFailure_eq (config : Config) (streak : UInt32) :
    (afterFailure config streak : Phase κ) = .checkingStop ∨
      (afterFailure config streak : Phase κ) = .tearingDown (.renderFailures streak) := by
  unfold afterFailure
  split
  · exact .inl rfl
  · split
    · exact .inr rfl
    · exact .inl rfl

inductive Passes (due : Bool) (p : Pump κ σ η) : Phase κ → Prop
  | toStop (h : p.phase = .checkingStop) (hs : p.stopRequested = true) :
      Passes due p (.tearingDown .requested)
  | onwards (h : p.phase = .checkingStop) (hs : p.stopRequested = false) :
      Passes due p .checkingPause
  | paused (h : p.phase = .checkingPause) (hp : p.paused = true) : Passes due p .checkingStop
  | unpaced (h : p.phase = .checkingPause) (hp : p.paused = false)
      (hc : p.config.pacing = .unbounded) : Passes due p .ready
  | paced {nanoseconds : UInt64} (h : p.phase = .checkingPause) (hp : p.paused = false)
      (hc : p.config.pacing = .every nanoseconds) : Passes due p .awaitingDeadline
  | stopMeanwhile (h : p.phase = .awaitingDeadline) (hs : p.stopRequested = true) :
      Passes due p (.tearingDown .requested)
  | due (h : p.phase = .awaitingDeadline) (hs : p.stopRequested = false) (hd : due = true) :
      Passes due p .ready
  | waits (h : p.phase = .awaitingDeadline) (hs : p.stopRequested = false) (hd : due = false) :
      Passes due p .awaitingDeadline
  | rendered {report : FrameReport} (h : p.phase = .rendering report) :
      Passes due p (.reportingResize report)
  | unresized {render : CoreOutcome} (h : p.phase = .reportingResize ⟨none, render⟩) :
      Passes due p (.counting render)
  | coreless {reason : StopReason} (h : p.phase = .dropping none reason) :
      Passes due p (.dropped reason)

inductive Advances (s : Surroundings κ σ η ω) (due : Bool) :
    Pump κ σ η × ω → List (Activity κ σ η) → Pump κ σ η × ω → Prop
  | created {p : Pump κ σ η} {w w' : ω} {core : κ} (h : p.phase = .creating)
      (hc : s.createCore w = (.ok core, w')) :
      Advances s due (p, w) [.created (.ok core)] (p.enter (.installing core), w')
  | refused {p : Pump κ σ η} {w w' : ω} {e : CoreError} (h : p.phase = .creating)
      (hc : s.createCore w = (.error e, w')) :
      Advances s due (p, w) [.created (.error e)] (p.enter (.createFailed e), w')
  | announced {p : Pump κ σ η} {w w' : ω} {event : Notification} {next : Phase κ}
      {calls : List (Activity κ σ η)} {n : Notifier η} (h : Announces p event next)
      (ht : Tells s event (p.notifier, w) calls (n, w')) :
      Advances s due (p, w) calls ({ p with notifier := n, phase := next }, w')
  | passed {p : Pump κ σ η} {w : ω} {next : Phase κ} (h : Passes due p next) :
      Advances s due (p, w) [] (p.enter next, w)
  | installed {p : Pump κ σ η} {w : ω} {core : κ} (h : p.phase = .installing core)
      (hp : p.coordinator.parkedRom = none) :
      Advances s due (p, w) (p.coordinator.core.map .dropped).toList
        ({ p with
            coordinator := { p.coordinator with core := some core }
            phase := .announcingCore none }, p.coordinator.discardCore s.toCores w)
  | loaded {p : Pump κ σ η} {w w' : ω} {core : κ} {path : Path} {outcome : CoreOutcome}
      (h : p.phase = .installing core) (hp : p.coordinator.parkedRom = some path)
      (hl : s.loadRom core path (p.coordinator.discardCore s.toCores w) = (outcome, w')) :
      Advances s due (p, w)
        ((p.coordinator.core.map .dropped).toList ++ [.loaded core path outcome])
        ({ p with
            coordinator := { p.coordinator with
              core := some core, parkedRom := none, romLoaded := outcome.accepted }
            phase := .announcingCore (some ⟨path, outcome⟩) }, w')
  | missed {p : Pump κ σ η} {w : ω} (h : p.phase = .ready) (hc : p.coordinator.core = none) :
      Advances s due (p, w) [] (p.enter (.tearingDown .requested), w)
  | rendered {p : Pump κ σ η} {w w' : ω} {core : κ} {outcome : CoreOutcome} (h : p.phase = .ready)
      (hc : p.coordinator.core = some core) (hd : p.coordinator.drawable.pending = false)
      (hr : s.runFrame core p.surface w = (outcome, w')) :
      Advances s due (p, w) [.frame core p.surface outcome]
        (p.enter (.rendering ⟨none, outcome⟩), w')
  | pushed {p : Pump κ σ η} {w w₁ w' : ω} {core : κ} {push outcome : CoreOutcome}
      (h : p.phase = .ready) (hc : p.coordinator.core = some core)
      (hd : p.coordinator.drawable.pending = true)
      (hp : s.setOutputSize core p.coordinator.drawable.size w = (push, w₁))
      (hr : s.runFrame core p.surface w₁ = (outcome, w')) :
      Advances s due (p, w)
        [.resized core p.coordinator.drawable.size push, .frame core p.surface outcome]
        ({ p with
            coordinator := { p.coordinator with
              drawable := ⟨p.coordinator.drawable.size, !push.accepted⟩ }
            phase := .rendering
              ⟨some (push.map fun _ => p.coordinator.drawable.size), outcome⟩ }, w')
  | counted {p : Pump κ σ η} {w : ω} (h : p.phase = .counting (.ok ())) :
      Advances s due (p, w) []
        ({ p with frames := p.frames + 1, streak := 0, phase := .checkingStop }, w)
  | failed {p : Pump κ σ η} {w : ω} {e : CoreError} (h : p.phase = .counting (.error e)) :
      Advances s due (p, w) []
        ({ p with
            failures := p.failures + 1
            streak := nextStreak p.streak
            phase := .reportingFailure p.frames e }, w)
  | tornDown {p : Pump κ σ η} {w : ω} {reason : StopReason} (h : p.phase = .tearingDown reason) :
      Advances s due (p, w) []
        ({ p with
            coordinator := p.coordinator.takeCore.2
            phase := .dropping p.coordinator.core reason }, w)
  | dropped {p : Pump κ σ η} {w : ω} {core : κ} {reason : StopReason}
      (h : p.phase = .dropping (some core) reason) :
      Advances s due (p, w) [.dropped core] (p.enter (.dropped reason), s.drop core w)
  | ended {p : Pump κ σ η} {w : ω} {reason : StopReason} (h : p.phase = .dropped reason) :
      Advances s due (p, w) [] ({ p with running := false, phase := .announcingStop reason }, w)
  | rested {p : Pump κ σ η} {w : ω} {reason : StopReason} (h : p.phase = .exited reason) :
      Advances s due (p, w) [] (p, w)

theorem advances (s : Surroundings κ σ η ω) (due : Bool) (x : Pump κ σ η × ω) :
    Advances s due x ((machine s).episode (.advance due) x).calls
      ((machine s).episode (.advance due) x).after := by
  obtain ⟨p, w⟩ := x
  have announced {event : Notification} {next : Phase κ} (h : Announces p event next) :
      let r := p.announce s.recorded event next ⟨w, []⟩
      Advances s due (p, w) r.2.activity (r.1, r.2.world) :=
    .announced h (tells s event p.notifier w)
  simp only [Machine.episode, machine, perform, step]
  cases h : p.phase with
  | creating =>
    rcases hc : s.createCore w with ⟨e | core, w'⟩ <;>
      simp only [Surroundings.recorded, Recorded.call, hc]
    · exact .refused h hc
    · exact .created h hc
  | createFailed e => exact announced (.createFailed h)
  | installing core =>
    cases hp : p.coordinator.parkedRom with
    | none =>
      simp only [Coordinator.install_of_episode (Coordinator.episode_install_of_none s hp core)]
      exact .installed h hp
    | some path =>
      simp only [Coordinator.install_of_episode (Coordinator.episode_install_of_parked s hp rfl)]
      exact .loaded h hp rfl
  | announcingCore deferred =>
    cases deferred with
    | none => exact announced (.core h)
    | some load => exact announced (.coreWithRom h)
  | announcingRom load => exact announced (.rom h)
  | checkingStop =>
    cases hs : p.stopRequested with
    | true => exact .passed (.toStop h hs)
    | false => exact .passed (.onwards h hs)
  | checkingPause =>
    cases hp : p.paused with
    | true => exact .passed (.paused h hp)
    | false =>
      cases hc : p.config.pacing with
      | unbounded => exact .passed (.unpaced h hp hc)
      | every nanoseconds => exact .passed (.paced h hp hc)
  | awaitingDeadline =>
    cases hs : p.stopRequested with
    | true => exact .passed (.stopMeanwhile h hs)
    | false =>
      cases hd : due with
      | true => exact .passed (.due h hs rfl)
      | false => exact .passed (.waits h hs rfl)
  | ready =>
    cases hc : p.coordinator.core with
    | none =>
      simp only [Coordinator.pumpOnce_of_episode (Coordinator.episode_pumpOnce_of_absent s hc _)]
      exact .missed h hc
    | some core =>
      cases hd : p.coordinator.drawable.pending with
      | false =>
        simp only [Coordinator.pumpOnce_of_episode
          (Coordinator.episode_pumpOnce_of_told s hc hd rfl)]
        exact .rendered h hc hd rfl
      | true =>
        simp only [Coordinator.pumpOnce_of_episode
          (Coordinator.episode_pumpOnce_of_pending s hc hd rfl rfl)]
        exact .pushed h hc hd rfl rfl
  | rendering report => exact .passed (.rendered h)
  | reportingResize report =>
    rcases report with ⟨_ | r, render⟩
    · exact .passed (.unresized h)
    · exact announced (.resize h)
  | counting render =>
    cases render with
    | ok => exact .counted h
    | error e => exact .failed h
  | reportingFailure frame e => exact announced (.failure h)
  | tearingDown reason => exact .tornDown h
  | dropping core reason =>
    cases core with
    | none => exact .passed (.coreless h)
    | some core => exact .dropped h
  | dropped reason => exact .ended h
  | announcingStop reason => exact announced (.stop h)
  | exited reason => exact .rested h

def Move.path? : Move η → Option Path
  | .load path | .pick (.picked path) => some path
  | _ => none

def Move.size? : Move η → Option Size
  | .resize z => some z
  | _ => none

def Move.isAdvance : Move η → Bool
  | .advance _ => true
  | _ => false

inductive Serves (s : Surroundings κ σ η ω) :
    Move η → Pump κ σ η × ω → Answer → List (Activity κ σ η) → Pump κ σ η × ω → Prop
  | invisible {p : Pump κ σ η} {w : ω} {size : Size} (h : size.isVisible = false) :
      Serves s (.resize size) (p, w) (.resized (.error (.invalidSize size))) [] (p, w)
  | resized {p : Pump κ σ η} {w : ω} {size : Size} (h : size.isVisible = true) :
      Serves s (.resize size) (p, w) (.resized (.ok (p.coordinator.drawable.set size).1)) []
        ({ p with
            coordinator := { p.coordinator with
              drawable := (p.coordinator.drawable.set size).2 } }, w)
  | cancelled {p : Pump κ σ η} {w : ω} :
      Serves s (.pick .cancelled) (p, w) (.picked (.ok .cancelled)) [] (p, w)
  | unnamed {m : Move η} {p : Pump κ σ η} {w : ω} {path : Path} (hm : m.path? = some path)
      (h : path.isEmpty = true) : Serves s m (p, w) (.picked (.error .emptyPath)) [] (p, w)
  | refused {m : Move η} {p : Pump κ σ η} {w : ω} {path : Path} (hm : m.path? = some path)
      (h : path.isEmpty = false) (hs : p.coordinator.stopped = true) :
      Serves s m (p, w) (.picked (.error .stopped)) [] (p, w)
  | parked {m : Move η} {p : Pump κ σ η} {w : ω} {path : Path} (hm : m.path? = some path)
      (h : path.isEmpty = false) (hs : p.coordinator.stopped = false)
      (hc : p.coordinator.core = none) :
      Serves s m (p, w) (.picked (.ok .deferred)) []
        ({ p with coordinator := { p.coordinator with parkedRom := some path } }, w)
  | asked {m : Move η} {p : Pump κ σ η} {w w' : ω} {path : Path} {core : κ}
      {outcome : CoreOutcome} (hm : m.path? = some path) (h : path.isEmpty = false)
      (hs : p.coordinator.stopped = false) (hc : p.coordinator.core = some core)
      (hl : s.loadRom core path w = (outcome, w')) :
      Serves s m (p, w) (.picked (Coordinator.loadAnswer path outcome))
        [.loaded core path outcome]
        ({ p with
            coordinator := { p.coordinator with romLoaded := outcome.accepted }
            outbox := p.outbox ++ [romNotice ⟨path, outcome⟩] }, w')
  | nothingToTell {p : Pump κ σ η} {w : ω} {i : Nat} (h : p.outbox[i]? = none) :
      Serves s (.notify i) (p, w) .silent [] (p, w)
  | told {p : Pump κ σ η} {w w' : ω} {i : Nat} {event : Notification}
      {calls : List (Activity κ σ η)} {n : Notifier η} (h : p.outbox[i]? = some event)
      (ht : Tells s event (p.notifier, w) calls (n, w')) :
      Serves s (.notify i) (p, w) .silent calls
        ({ p with outbox := p.outbox.eraseIdx i, notifier := n }, w')
  | paused {p : Pump κ σ η} {w : ω} {on : Bool} :
      Serves s (.pause on) (p, w) .silent [] (p.setPaused on, w)
  | stopped {p : Pump κ σ η} {w : ω} : Serves s .stop (p, w) .silent [] (p.requestStop, w)
  | inspected {p : Pump κ σ η} {w : ω} :
      Serves s .inspect (p, w) (.inspected p.coordinator.core.isSome) [] (p, w)
  | subscribed {p : Pump κ σ η} {w : ω} {l : η} :
      Serves s (.subscribe l) (p, w) .silent (p.notifier.subscriber.map .released).toList
        ({ p with notifier := ⟨some l⟩ }, p.notifier.letGo s.toListeners w)
  | unsubscribed {p : Pump κ σ η} {w : ω} :
      Serves s .unsubscribe (p, w) .silent (p.notifier.subscriber.map .released).toList
        ({ p with notifier := ⟨none⟩ }, p.notifier.letGo s.toListeners w)

variable {s : Surroundings κ σ η ω} {due : Bool} {m : Move η} {answer : Answer}
  {calls : List (Activity κ σ η)} {x x' : Pump κ σ η × ω} {t : List (Entry κ σ η ω)}
  {e : Entry κ σ η ω}

@[simp] theorem loadNotice_loadAnswer (path : Path) (outcome : CoreOutcome) :
    loadNotice path (Coordinator.loadAnswer path outcome) = [romNotice ⟨path, outcome⟩] := by
  cases outcome <;> rfl

theorem serves_load (s : Surroundings κ σ η ω) {path : Path}
    (hm : m.path? = some path) (p : Pump κ σ η) (w : ω) :
    let r := p.requestLoad s.recorded path ⟨w, []⟩
    Serves s m (p, w) (.picked r.1) r.2.2.activity (r.2.1, r.2.2.world) := by
  cases h : path.isEmpty with
  | true =>
    simp only [requestLoad, h]
    exact .unnamed hm h
  | false =>
    cases hs : p.coordinator.stopped with
    | true =>
      simp only [requestLoad, h, Bool.false_eq_true, if_false, Coordinator.requestLoad_of_episode
        (Coordinator.episode_requestLoad_of_stopped s hs path)]
      simpa [loadNotice] using Serves.refused hm h hs
    | false =>
      cases hc : p.coordinator.core with
      | none =>
        simp only [requestLoad, h, Bool.false_eq_true, if_false, Coordinator.requestLoad_of_episode
          (Coordinator.episode_requestLoad_of_absent s hs hc path)]
        simpa [loadNotice] using Serves.parked hm h hs hc
      | some core =>
        simp only [requestLoad, h, Bool.false_eq_true, if_false, Coordinator.requestLoad_of_episode
          (Coordinator.episode_requestLoad_of_present s hs hc rfl), loadNotice_loadAnswer]
        exact .asked hm h hs hc rfl

theorem serves (s : Surroundings κ σ η ω) (host : ¬ m.isAdvance) (x : Pump κ σ η × ω) :
    Serves s m x ((machine s).episode m x).answer ((machine s).episode m x).calls
      ((machine s).episode m x).after := by
  obtain ⟨p, w⟩ := x
  cases m with
  | advance due => exact absurd rfl host
  | resize size =>
    simp only [Machine.episode, machine, perform, setDrawableSize]
    cases h : size.isVisible with
    | true => exact .resized h
    | false => exact .invisible h
  | load path => exact serves_load s rfl p w
  | pick result =>
    cases result with
    | cancelled => exact .cancelled
    | picked path => exact serves_load s rfl p w
  | notify i =>
    simp only [Machine.episode, machine, perform, sendNotice]
    cases h : p.outbox[i]? with
    | none => exact .nothingToTell h
    | some event => exact .told h (tells s event p.notifier w)
  | pause on => exact .paused
  | stop => exact .stopped
  | inspect => exact .inspected
  | subscribe l =>
    have same := letGo_recorded s p.notifier w
    simp only [Machine.episode, machine, perform, subscribe, Notifier.subscribe, same]
    exact .subscribed
  | unsubscribe =>
    have same := letGo_recorded s p.notifier w
    simp only [Machine.episode, machine, perform, unsubscribe, Notifier.unsubscribe, same]
    exact .unsubscribed

structure Untouched (p q : Pump κ σ η) : Prop where
  config : q.config = p.config
  surface : q.surface = p.surface
  phase : q.phase = p.phase
  core : q.coordinator.core = p.coordinator.core
  stopped : q.coordinator.stopped = p.coordinator.stopped
  running : q.running = p.running
  frames : q.frames = p.frames
  failures : q.failures = p.failures
  streak : q.streak = p.streak

theorem Serves.untouched (h : Serves s m x answer calls x') : Untouched x.1 x'.1 := by
  cases h <;> constructor <;> rfl

theorem Advances.config (h : Advances s due x calls x') :
    x'.1.config = x.1.config ∧ x'.1.surface = x.1.surface := by
  cases h <;> exact ⟨rfl, rfl⟩

theorem Move.eq_advance (h : m.isAdvance) : ∃ due, m = .advance due := by
  cases m with
  | advance due => exact ⟨due, rfl⟩
  | _ => simp [isAdvance] at h

theorem run_induction {Q : List (Entry κ σ η ω) → Pump κ σ η × ω → Prop} (start : Q [] x)
    (advance : ∀ {t x' due calls x''}, (machine s).Run x t x' → Q t x' →
      Advances s due x' calls x'' → Q (t ++ [⟨x', .advance due, .silent, calls, x''⟩]) x'')
    (serve : ∀ {t x' m answer calls x''}, (machine s).Run x t x' → Q t x' → ¬ m.isAdvance →
      Serves s m x' answer calls x'' → Q (t ++ [⟨x', m, answer, calls, x''⟩]) x'')
    (run : (machine s).Run x t x') : Q t x' := by
  induction run with
  | start => exact start
  | @next t x' m earlier _ ih =>
    by_cases host : m.isAdvance
    · obtain ⟨due, rfl⟩ := Move.eq_advance host
      exact advance earlier ih (advances s due x')
    · exact serve earlier ih host (serves s host x')

theorem advances_of_mem (run : (machine s).Run x t x') (he : e ∈ t)
    (thread : e.move.isAdvance) : ∃ due, Advances s due e.before e.calls e.after := by
  obtain ⟨before, after, rfl⟩ := List.append_of_mem he
  obtain ⟨due, hm⟩ := Move.eq_advance thread
  have step := advances s due e.before
  rw [← hm, ← run.split.2.2.1] at step
  exact ⟨due, step⟩

theorem serves_of_mem (run : (machine s).Run x t x') (he : e ∈ t)
    (host : ¬ e.move.isAdvance) : Serves s e.move e.before e.answer e.calls e.after := by
  obtain ⟨before, after, rfl⟩ := List.append_of_mem he
  have step := serves s host e.before
  rwa [← run.split.2.2.1] at step

theorem config_of_run (run : (machine s).Run x t x') :
    x'.1.config = x.1.config ∧ x'.1.surface = x.1.surface := by
  refine run_induction (Q := fun _ x' => x'.1.config = x.1.config ∧ x'.1.surface = x.1.surface)
    ⟨rfl, rfl⟩ ?_ ?_ run
  · intro t x' due calls x'' _ ih h
    exact ⟨h.config.1.trans ih.1, h.config.2.trans ih.2⟩
  · intro t x' m answer calls x'' _ ih _ h
    exact ⟨h.untouched.config.trans ih.1, h.untouched.surface.trans ih.2⟩

def threadCalls (t : List (Entry κ σ η ω)) : List (Activity κ σ η) :=
  (t.filter (·.move.isAdvance)).flatMap (·.calls)

def hostCalls (t : List (Entry κ σ η ω)) : List (Activity κ σ η) :=
  (t.filter (!·.move.isAdvance)).flatMap (·.calls)

end EmulatorHost.Pump
