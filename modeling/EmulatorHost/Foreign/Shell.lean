import EmulatorHost.Foreign.Core
import EmulatorHost.Pump.Host

/-! One slot holds at most one session, a pump over the core of a table. A session that has left the
slot goes on until its pump has exited, and handles to it may still be in use, so all sessions are
kept and numbered. -/

namespace EmulatorHost.Foreign

structure Session where
  table : Table
  pump : Pump Core UInt64 Empty

variable {ω : Type}

def surroundings (h : HostProgram ω) (t : Table) : Surroundings Core UInt64 Empty ω where
  toCores := Core.calls h
  toListeners := ⟨fun l _ w => (l.elim, w), fun l _ => l.elim⟩
  createCore := Core.create h t

structure Shell where
  sessions : List Session := []
  slot : Option Nat := none
  /-- The sessions that a stop has taken out of the slot and not yet told to stop. -/
  vacated : List Nat := []
  /-- The sessions whose exit a stop waits for. -/
  awaited : List Nat := []

namespace Shell

def session? (sh : Shell) (i : Nat) : Option Session := sh.sessions[i]?

def current? (sh : Shell) : Option Session := sh.slot.bind sh.session?

/-- A session that has exited on its own is joined before another takes its place;
while its thread is still on its way out, a start has to wait. -/
def canStart (sh : Shell) : Bool :=
  match sh.current? with
  | none => true
  | some s => s.pump.running || s.pump.phase.isExited

def openSession (table : Table) (surface : UInt64) (rate : UInt32) : Session :=
  ⟨table, Pump.start { pacing := .ofRate rate } surface none⟩

def start (table : Option Table) (surface : UInt64) (rate : UInt32) (sh : Shell) : Bool × Shell :=
  match table with
  | none => (false, sh)
  | some t =>
    if sh.current?.any fun s => s.pump.running then (false, sh)
    else (true,
      { sh with
        sessions := sh.sessions ++ [openSession t surface rate]
        slot := some sh.sessions.length })

def vacate (sh : Shell) : Option Nat × Shell :=
  (sh.slot, { sh with slot := none, vacated := sh.vacated ++ sh.slot.toList })

def act (h : HostProgram ω) (i : Nat) (m : Pump.Move Empty) (sh : Shell) (w : ω) :
    Pump.Answer × Shell × ω :=
  match sh.session? i with
  | none => (.silent, sh, w)
  | some s =>
    let (answer, pump, w) := s.pump.perform (surroundings h s.table) m w
    (answer, { sh with sessions := sh.sessions.set i { s with pump } }, w)

def dismiss (h : HostProgram ω) (i : Nat) (sh : Shell) (w : ω) : Shell × ω :=
  ({ sh with vacated := sh.vacated.erase i, awaited := sh.awaited ++ [i] }.act h i .stop w).2

def join (i : Nat) (sh : Shell) : Shell := { sh with awaited := sh.awaited.erase i }

/-- One step of a run of a whole host program, whose threads start and stop sessions and
call into them: the first four are starts and the steps of stops, the last is a step of
a pump or a call through a handle. -/
inductive Move where
  | start (table : Option Table) (surface : UInt64) (rate : UInt32)
  | vacate
  | dismiss (i : Nat)
  | join (i : Nat)
  | act (i : Nat) (m : Pump.Move Empty)

def isShared : Pump.Move Empty → Bool
  | .stop | .subscribe _ | .unsubscribe => false
  | _ => true

def allows (sh : Shell) : Move → Bool
  | .start table _ _ => table.isNone || sh.canStart
  | .vacate => true
  | .dismiss i => sh.vacated.contains i
  | .join i => sh.awaited.contains i && (sh.session? i).all fun s => s.pump.phase.isExited
  | .act i m => isShared m && (sh.session? i).any fun s => s.pump.allows m

def perform (h : HostProgram ω) (m : Move) (sh : Shell) (w : ω) : Shell × ω :=
  match m with
  | .start table surface rate => ((sh.start table surface rate).2, w)
  | .vacate => (sh.vacate.2, w)
  | .dismiss i => sh.dismiss h i w
  | .join i => (sh.join i, w)
  | .act i m => (sh.act h i m w).2

def run? (h : HostProgram ω) : List Move → Shell → ω → Option (Shell × ω)
  | [], sh, w => some (sh, w)
  | m :: rest, sh, w =>
    if sh.allows m then
      let (sh, w) := sh.perform h m w
      run? h rest sh w
    else none

def callCurrent (h : HostProgram ω) (m : Pump.Move Empty) (sh : Shell) (w : ω) :
    Pump.Answer × Shell × ω :=
  match sh.slot with
  | none => (.silent, sh, w)
  | some i => sh.act h i m w

def setDrawableSize (h : HostProgram ω) (size : Size) (sh : Shell) (w : ω) : Bool × Shell × ω :=
  match sh.callCurrent h (.resize size) w with
  | (.resized (.ok changed), r) => (changed, r)
  | (_, r) => (false, r)

def pickDocument (h : HostProgram ω) (path : Option CString) (sh : Shell) (w : ω) :
    Bool × Shell × ω :=
  match path with
  | none => (false, sh, w)
  | some text =>
    match Utf8.decode? text.contents with
    | none => (false, sh, w)
    | some _ =>
      match sh.callCurrent h (.pick (.picked ⟨text.contents⟩)) w with
      | (.picked (.ok .loaded), r) | (.picked (.ok .deferred), r) => (true, r)
      | (_, r) => (false, r)

def pickCancelled (h : HostProgram ω) (sh : Shell) (w : ω) : Shell × ω :=
  (sh.callCurrent h (.pick .cancelled) w).2

def setPaused (h : HostProgram ω) (on : Bool) (sh : Shell) (w : ω) : Shell × ω :=
  (sh.callCurrent h (.pause on) w).2

def hasRomLoaded (sh : Shell) : Bool := sh.current?.any fun s => s.pump.coordinator.romLoaded

def frameCount (sh : Shell) : UInt64 := (sh.current?.map fun s => s.pump.frames).getD 0

def isRunning (sh : Shell) : Bool := sh.current?.any fun s => s.pump.running

end Shell

end EmulatorHost.Foreign
