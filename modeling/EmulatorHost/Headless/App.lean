import EmulatorHost.Headless.Options
import EmulatorHost.Headless.ResizeSchedule
import EmulatorHost.Headless.Venue

/-! A headless run: a thread that plays the host's user interface, next to the pump of a core. As
for the pump, each step reads or writes the shared state once. -/

namespace EmulatorHost.Headless

structure Tally where
  romsLoaded : Nat := 0
  resizesPushed : Nat := 0
  stopReason : Option StopReason := none
  deriving DecidableEq, Repr

def Tally.count (t : Tally) : Notification → Tally
  | .romLoaded _ => { t with romsLoaded := t.romsLoaded + 1 }
  | .outputResized _ => { t with resizesPushed := t.resizesPushed + 1 }
  | .pumpStopped reason => { t with stopReason := some reason }
  | _ => t

structure Report where
  frames : UInt64
  renderFailures : UInt64
  resizesPushed : Nat
  romsLoaded : Nat
  stopReason : Option StopReason
  finalSize : Size
  checksum : UInt32
  deriving DecidableEq, Repr

inductive RunError where
  | invalidRequest (error : RequestError)
  | noCore
  deriving DecidableEq, Repr

def RunError.message : RunError → String
  | .invalidRequest error => error.message
  | .noCore => "emulator core could not be created"

inductive Scene where
  | opening
  | marking
  | dismissing
  | picking (roms : List Path)
  | telling (roms : List Path)
  | draining
  | checking
  | counting
  | deciding (frames : Nat)
  | stopping
  | joining
  | collecting
  | finished (result : Except RunError Report)

structure App (ω : Type) where
  options : Options
  pump : Pump Unit Unit Unit
  world : ω
  scene : Scene := .opening
  schedule : ResizeSchedule
  tally : Tally := {}

namespace App

variable {ω : Type}

def start (o : Options) (w : ω) : App ω where
  options := o
  pump := Pump.start o.config () (some ())
  world := w
  schedule := { target := o.frames, resizes := o.resizes, settledAt := 0 }

def advance (v : Venue ω) (due : Bool) (a : App ω) : App ω :=
  let (pump, world) := a.pump.step v.surroundings due a.world
  { a with pump, world }

def enter (scene : Scene) (a : App ω) : App ω := { a with scene }

def drain (v : Venue ω) (a : App ω) : App ω :=
  let (events, world) := v.collect a.world
  { a with tally := events.foldl Tally.count a.tally, world }

def resize (size : Size) (next : Scene) (a : App ω) : App ω :=
  match a.pump.setDrawableSize size with
  | (.ok _, pump) => { a with pump, scene := next }
  | (.error e, pump) => { a with pump, scene := .finished (.error (.invalidRequest e)) }

def report (v : Venue ω) (a : App ω) : Except RunError Report :=
  if a.tally.stopReason = some .createFailed then .error .noCore
  else .ok
    { frames := a.pump.frames
      renderFailures := a.pump.failures
      resizesPushed := a.tally.resizesPushed
      romsLoaded := a.tally.romsLoaded
      stopReason := a.tally.stopReason
      finalSize := a.pump.coordinator.drawable.size
      checksum := v.checksum a.world }

def isBlocked (a : App ω) : Bool :=
  match a.scene with
  | .opening => a.pump.phase.isRendering && a.options.size.isVisible
  | .picking (rom :: _) => a.pump.phase.isRendering && !rom.isEmpty
  | .deciding frames =>
    match a.schedule.decide frames with
    | .apply size => a.pump.phase.isRendering && size.isVisible
    | _ => false
  | .joining => !a.pump.phase.isExited
  | .finished _ => true
  | _ => false

def act (v : Venue ω) (a : App ω) : App ω :=
  match a.scene with
  | .opening => a.resize a.options.size .marking
  | .marking =>
    { a with
      schedule :=
        { a.schedule with settledAt := ResizeSchedule.settle a.pump.frames.toNat }.wrap
      scene := if a.options.cancelPick then .dismissing else .picking a.options.roms }
  | .dismissing => a.enter (.picking a.options.roms)
  | .picking [] => a.enter .draining
  | .picking (rom :: roms) =>
    let (_, pump, world) := a.pump.requestPick v.surroundings (.picked rom) a.world
    { a with pump, world, scene := .telling roms }
  | .telling roms =>
    let (pump, world) := a.pump.sendNotice v.surroundings 0 a.world
    { a with pump, world, scene := .picking roms }
  | .draining => (a.drain v).enter .checking
  | .checking => a.enter (if a.pump.running then .counting else .stopping)
  | .counting => a.enter (.deciding a.pump.frames.toNat)
  | .deciding frames =>
    match a.schedule.poll frames with
    | (.apply size, schedule) => { a with schedule := schedule.wrap }.resize size .draining
    | (.finish, _) => a.enter .stopping
    | (.wait, _) => a.enter .draining
  | .stopping => { a with pump := a.pump.requestStop, scene := .joining }
  | .joining => a.enter .collecting
  | .collecting =>
    let a := a.drain v
    a.enter (.finished (a.report v))
  | .finished _ => a

inductive Turn where
  | pump (due : Bool)
  | interface
  deriving DecidableEq, Repr

def take? (v : Venue ω) (a : App ω) : Turn → Option (App ω)
  | .pump due => some (a.advance v due)
  | .interface => if a.isBlocked then none else some (a.act v)

def run? (v : Venue ω) (turns : List Turn) (a : App ω) : Option (App ω) :=
  turns.foldlM (fun a t => a.take? v t) a

def result? (a : App ω) : Option (Except RunError Report) :=
  match a.scene with
  | .finished r => some r
  | _ => none

end App

end EmulatorHost.Headless
