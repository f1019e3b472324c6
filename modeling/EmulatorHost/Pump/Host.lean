import EmulatorHost.Pump.Step

/-! A load has two steps, the coordinator's critical section and the notification after it, and
other threads may come in between. A call that needs the coordinator waits while a frame is being
rendered. -/

namespace EmulatorHost.Pump

variable {κ σ η ω : Type}

/-- Answers whether the size differs from the one before. A core that is there is told a new size
before its next frame, but also one that is not new if it is still pending. -/
def setDrawableSize (size : Size) (p : Pump κ σ η) : Except RequestError Bool × Pump κ σ η :=
  if size.isVisible then
    let (changed, coordinator) := p.coordinator.setDrawableSize size
    (.ok changed, { p with coordinator })
  else (.error (.invalidSize size), p)

/-- What the subscriber is told about a load: nothing unless the core was asked. -/
def loadNotice (path : Path) : PickAnswer → List Notification
  | .ok .loaded => [.romLoaded path]
  | .error (.loadFailed _ e) => [.romLoadFailed path e]
  | _ => []

/-- The first half of a load; what is to be told waits in the outbox. -/
def requestLoad (s : Surroundings κ σ η ω) (path : Path) (p : Pump κ σ η) (w : ω) :
    PickAnswer × Pump κ σ η × ω :=
  if path.isEmpty then (.error .emptyPath, p, w)
  else
    let (answer, coordinator, w) := p.coordinator.requestLoad s.toCores path w
    (answer, { p with coordinator, outbox := p.outbox ++ loadNotice path answer }, w)

/-- The second half of the load that waits at place `i`. -/
def sendNotice (s : Surroundings κ σ η ω) (i : Nat) (p : Pump κ σ η) (w : ω) : Pump κ σ η × ω :=
  match p.outbox[i]? with
  | none => (p, w)
  | some event => { p with outbox := p.outbox.eraseIdx i }.broadcast s event w

def requestPick (s : Surroundings κ σ η ω) (result : PickResult) (p : Pump κ σ η) (w : ω) :
    PickAnswer × Pump κ σ η × ω :=
  match result with
  | .cancelled => (.ok .cancelled, p, w)
  | .picked path => p.requestLoad s path w

def setPaused (on : Bool) (p : Pump κ σ η) : Pump κ σ η := { p with paused := on }

def requestStop (p : Pump κ σ η) : Pump κ σ η := { p with stopRequested := true }

def subscribe (s : Surroundings κ σ η ω) (l : η) (p : Pump κ σ η) (w : ω) : Pump κ σ η × ω :=
  let (notifier, w) := p.notifier.subscribe s.toListeners l w
  ({ p with notifier }, w)

def unsubscribe (s : Surroundings κ σ η ω) (p : Pump κ σ η) (w : ω) : Pump κ σ η × ω :=
  let (notifier, w) := p.notifier.unsubscribe s.toListeners w
  ({ p with notifier }, w)

inductive Move (η : Type) where
  | advance (due : Bool)
  | resize (size : Size)
  | load (path : Path)
  | pick (result : PickResult)
  | notify (i : Nat)
  | pause (on : Bool)
  | stop
  | inspect
  | subscribe (listener : η)
  | unsubscribe
  deriving Repr

inductive Answer where
  | silent
  | resized (answer : Except RequestError Bool)
  | picked (answer : PickAnswer)
  | inspected (found : Bool)

/-- A request that is refused at once, and a dismissed picker, do not touch the coordinator. -/
def Move.needsCoordinator : Move η → Bool
  | .resize size => size.isVisible
  | .load path | .pick (.picked path) => !path.isEmpty
  | .inspect => true
  | _ => false

def allows (p : Pump κ σ η) (m : Move η) : Bool :=
  !(m.needsCoordinator && p.phase.isRendering)

def perform (s : Surroundings κ σ η ω) (m : Move η) (p : Pump κ σ η) (w : ω) :
    Answer × Pump κ σ η × ω :=
  match m with
  | .advance due => (.silent, p.step s due w)
  | .resize size =>
    let (answer, p) := p.setDrawableSize size
    (.resized answer, p, w)
  | .load path =>
    let (answer, r) := p.requestLoad s path w
    (.picked answer, r)
  | .pick result =>
    let (answer, r) := p.requestPick s result w
    (.picked answer, r)
  | .notify i => (.silent, p.sendNotice s i w)
  | .pause on => (.silent, p.setPaused on, w)
  | .stop => (.silent, p.requestStop, w)
  | .inspect => (.inspected p.coordinator.core.isSome, p, w)
  | .subscribe l => (.silent, p.subscribe s l w)
  | .unsubscribe => (.silent, p.unsubscribe s w)

def run? (s : Surroundings κ σ η ω) : List (Move η) → Pump κ σ η → ω →
    Option (List Answer × Pump κ σ η × ω)
  | [], p, w => some ([], p, w)
  | m :: rest, p, w =>
    if p.allows m then
      let (answer, p, w) := p.perform s m w
      (run? s rest p w).map fun (answers, r) => (answer :: answers, r)
    else none

/-- A host call that nothing comes between: what it loads is told at once. -/
def call (s : Surroundings κ σ η ω) (m : Move η) (p : Pump κ σ η) (w : ω) :
    Answer × Pump κ σ η × ω :=
  let (answer, q, w) := p.perform s m w
  (answer,
    if p.outbox.length < q.outbox.length then q.sendNotice s p.outbox.length w else (q, w))

end EmulatorHost.Pump
