import EmulatorHost.Pump.Basic

/-! One step of the pump's thread. Each step reads or writes the shared state once, so
whatever the host does falls between two steps. Time is left open: whether a deadline
has come is an argument. -/

namespace EmulatorHost.Pump

variable {κ σ η ω : Type}

def broadcast (s : Surroundings κ σ η ω) (event : Notification) (p : Pump κ σ η) (w : ω) :
    Pump κ σ η × ω :=
  let (notifier, w) := p.notifier.broadcast s.toListeners event w
  ({ p with notifier }, w)

def enter (phase : Phase κ) (p : Pump κ σ η) : Pump κ σ η := { p with phase }

def announce (s : Surroundings κ σ η ω) (event : Notification) (next : Phase κ)
    (p : Pump κ σ η) (w : ω) : Pump κ σ η × ω :=
  (p.enter next).broadcast s event w

def romNotice : DeferredLoad → Notification
  | ⟨path, .ok _⟩ => .romLoaded path
  | ⟨path, .error e⟩ => .romLoadFailed path e

def resizeNotice : Except CoreError Size → Notification
  | .ok size => .outputResized size
  | .error e => .resizeFailed e

/-- One more, but never past the largest number. -/
def nextStreak (streak : UInt32) : UInt32 := if streak + 1 = 0 then streak else streak + 1

def afterFailure (config : Config) (streak : UInt32) : Phase κ :=
  match config.failureLimit with
  | none => .checkingStop
  | some limit => if limit ≤ streak then .tearingDown (.renderFailures streak) else .checkingStop

def step (s : Surroundings κ σ η ω) (due : Bool) (p : Pump κ σ η) (w : ω) : Pump κ σ η × ω :=
  match p.phase with
  | .creating =>
    match s.createCore w with
    | (.ok core, w) => (p.enter (.installing core), w)
    | (.error e, w) => (p.enter (.createFailed e), w)
  | .createFailed e => p.announce s (.coreCreateFailed e) (.tearingDown .createFailed) w
  | .installing core =>
    let (deferred, coordinator, w) := p.coordinator.install s.toCores core w
    ({ p with coordinator, phase := .announcingCore deferred }, w)
  | .announcingCore none => p.announce s .coreCreated .checkingStop w
  | .announcingCore (some load) => p.announce s .coreCreated (.announcingRom load) w
  | .announcingRom load => p.announce s (romNotice load) .checkingStop w
  | .checkingStop =>
    (p.enter (if p.stopRequested then .tearingDown .requested else .checkingPause), w)
  | .checkingPause =>
    if p.paused then (p.enter .checkingStop, w)
    else match p.config.pacing with
      | .unbounded => (p.enter .ready, w)
      | .every _ => (p.enter .awaitingDeadline, w)
  | .awaitingDeadline =>
    if p.stopRequested then (p.enter (.tearingDown .requested), w)
    else (p.enter (if due then .ready else .awaitingDeadline), w)
  | .ready =>
    match p.coordinator.pumpOnce s.toCores p.surface w with
    | (none, coordinator, w) => ({ p with coordinator, phase := .tearingDown .requested }, w)
    | (some report, coordinator, w) => ({ p with coordinator, phase := .rendering report }, w)
  | .rendering report => (p.enter (.reportingResize report), w)
  | .reportingResize report =>
    match report.resize with
    | none => (p.enter (.counting report.render), w)
    | some r => p.announce s (resizeNotice r) (.counting report.render) w
  | .counting (.ok _) => ({ p with frames := p.frames + 1, streak := 0, phase := .checkingStop }, w)
  | .counting (.error e) =>
    ({ p with
        failures := p.failures + 1
        streak := nextStreak p.streak
        phase := .reportingFailure p.frames e }, w)
  | .reportingFailure frame e =>
    p.announce s (.renderFailed frame e) (afterFailure p.config p.streak) w
  | .tearingDown reason =>
    let (core, coordinator) := p.coordinator.takeCore
    ({ p with coordinator, phase := .dropping core reason }, w)
  | .dropping none reason => (p.enter (.dropped reason), w)
  | .dropping (some core) reason => (p.enter (.dropped reason), s.drop core w)
  | .dropped reason => ({ p with running := false, phase := .announcingStop reason }, w)
  | .announcingStop reason => p.announce s (.pumpStopped reason) (.exited reason) w
  | .exited _ => (p, w)

end EmulatorHost.Pump
