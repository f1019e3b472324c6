import EmulatorHost.Foreign.Shell
import EmulatorHost.Lockstep.HostScript

/-! A host program in lockstep with the session it started. A gate may hold the creation of a core
up until it is opened. -/

namespace EmulatorHost.Lockstep

open Foreign

structure ShellRehearsal where
  shell : Shell := {}
  record : HostRecord HostScript := ⟨{}, []⟩
  frames : Nat := 0
  gated : Bool := false

namespace ShellRehearsal

def program : HostProgram (HostRecord HostScript) := HostScript.program.recorded

def setScript (f : HostScript → HostScript) (r : ShellRehearsal) : ShellRehearsal :=
  { r with record := { r.record with world := f r.record.world } }

def setShell (x : Shell × HostRecord HostScript) (r : ShellRehearsal) : ShellRehearsal :=
  { r with shell := x.1, record := x.2 }

def act (i : Nat) (m : Pump.Move Empty) (r : ShellRehearsal) : ShellRehearsal :=
  r.setShell (r.shell.act program i m r.record).2

def phase (i : Nat) (r : ShellRehearsal) : Phase Core :=
  match r.shell.session? i with
  | none => .exited .requested
  | some s => s.pump.phase

def isIdle (i : Nat) (r : ShellRehearsal) : Bool :=
  match r.shell.session? i with
  | none => true
  | some s =>
    match s.pump.phase with
    | .creating => r.gated
    | .checkingPause => s.pump.paused && !s.pump.stopRequested
    | .exited _ => true
    | _ => false

def create (i : Nat) (r : ShellRehearsal) : ShellRehearsal :=
  let asked := (r.shell.session? i).any fun s =>
    s.table.firstMissing?.isNone && s.table.offers .create
  let r := if asked ∧ r.frames = 0 ∧ r.record.world.creates then r.act i (.pause true) else r
  r.act i (.advance true)

def interrupt (i : Nat) (r : ShellRehearsal) : ShellRehearsal :=
  if r.frames = r.record.world.framesDone then r.act i (.pause true) else r

def proceed (i : Nat) (r : ShellRehearsal) : ShellRehearsal :=
  match r.phase i with
  | .creating => r.create i
  | .rendering _ => (r.interrupt i).act i (.advance true)
  | _ => r.act i (.advance true)

def settle (i : Nat) : Nat → ShellRehearsal → ShellRehearsal
  | 0, r => r
  | n + 1, r => if r.isIdle i then r else settle i n (r.proceed i)

def rest (r : ShellRehearsal) : ShellRehearsal :=
  match r.shell.slot with
  | none => r
  | some i => r.settle i (16 * (r.frames + 4))

def begin (frames : Nat) (failing : Failing) (r : ShellRehearsal) : ShellRehearsal :=
  { r with frames }.setScript fun s => { s with failing, framesDone := 0 }

inductive Act where
  | start (table : Option Table) (surface : UInt64) (rate : UInt32) (frames : Nat)
    (creates gated : Bool)
  | openGate (creates : Bool)
  | step (frames : Nat) (failing : Failing)
  | stop
  | cancel
  | pause
  | resize (size : Size)
  | pick (path : Option CString)
  | rejectSizes (n : Nat)
  | rejectRom (on : Bool)

def entered (r : ShellRehearsal) : List HostCall :=
  match r.shell.current? with
  | none => []
  | some s =>
    if r.gated && s.table.firstMissing?.isNone && s.table.offers .create then
      [.create s.table.userData]
    else []

def release (creates : Bool) (r : ShellRehearsal) : ShellRehearsal :=
  if r.gated then { r with gated := false }.setScript fun s => { s with creates } else r

def begun (frames : Nat) (creates gated : Bool) (r : ShellRehearsal) : ShellRehearsal :=
  ({ r with gated }.begin frames .never).setScript fun s => { s with creates }

def stop (r : ShellRehearsal) : ShellRehearsal :=
  let r := r.release false
  let (i, shell) := r.shell.vacate
  let r := { r with shell }
  match i with
  | none => r
  | some i =>
    let r := (r.setShell (r.shell.dismiss program i r.record)).settle i 32
    { r with shell := r.shell.join i }

def perform (a : Act) (r : ShellRehearsal) : Option Bool × ShellRehearsal :=
  match a with
  | .start table surface rate frames creates gated =>
    let (started, shell) := r.shell.start table surface rate
    let r := { r with shell }
    (some started, if started then (r.begun frames creates gated).rest else r)
  | .openGate creates => (none, (r.release creates).rest)
  | .step frames failing =>
    let r := r.begin frames failing
    (none, (r.setShell (r.shell.setPaused program false r.record)).rest)
  | .stop => (none, r.stop)
  | .cancel => (none, r.setShell (r.shell.pickCancelled program r.record))
  | .pause => (none, r.setShell (r.shell.setPaused program true r.record))
  | .resize size =>
    let (answer, x) := r.shell.setDrawableSize program size r.record
    (some answer, r.setShell x)
  | .pick path =>
    let (answer, x) := r.shell.pickDocument program path r.record
    (some answer, r.setShell x)
  | .rejectSizes n => (none, r.setScript fun s => { s with rejectSizes := n })
  | .rejectRom on => (none, r.setScript fun s => { s with rejectRom := on })

/-- The answer of one step and the calls that the host saw during it: a call is seen
when it is entered, also if it waits at the gate then. -/
def observe (a : Act) (r : ShellRehearsal) : Option Bool × List HostCall × ShellRehearsal :=
  let seen := r.entered.length
  let (answer, r) := { r with record := { r.record with calls := [] } }.perform a
  (answer, (r.record.calls.map Prod.fst ++ r.entered).drop seen, r)

end ShellRehearsal

end EmulatorHost.Lockstep
