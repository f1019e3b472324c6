import EmulatorHost.Lockstep.Script
import EmulatorHost.Pump.Host

/-! A pump in lockstep with its host. Each step gives the pump a number of frames: in the last one
the core pauses the pump. After each step the pump goes on until it has nothing to do but wait. -/

namespace EmulatorHost.Lockstep

open Pump (Move Answer)

/-- The frames of one step, and the host's calls while one of them is rendered. -/
structure Plan where
  frames : Nat := 0
  failing : Failing := .never
  reason : String := "frame failed"
  during : List (Nat × Move Subscriber) := []
  waitFor : Option Nat := none

structure Rehearsal where
  pump : Pump Nat UInt32 Subscriber
  record : Recorded Nat UInt32 Subscriber Script
  plan : Plan := {}
  released : Bool := false
  queued : List (Move Subscriber) := []
  answers : List Answer := []
  subscribers : Nat := 0

namespace Rehearsal

def surroundings : Surroundings Nat UInt32 Subscriber (Recorded Nat UInt32 Subscriber Script) :=
  Script.surroundings.recorded

def setScript (f : Script → Script) (r : Rehearsal) : Rehearsal :=
  { r with record := { r.record with world := f r.record.world } }

def setPump (p : Pump Nat UInt32 Subscriber × Recorded Nat UInt32 Subscriber Script)
    (r : Rehearsal) : Rehearsal :=
  { r with pump := p.1, record := p.2 }

def enroll (limit : Option Nat) (r : Rehearsal) : Subscriber × Rehearsal :=
  (⟨r.subscribers + 1, limit⟩, { r with subscribers := r.subscribers + 1 })

def start (config : Config) (surface : UInt32) (subscriber : Option (Option Nat)) : Rehearsal :=
  match subscriber with
  | none => { pump := Pump.start config surface none, record := ⟨{}, []⟩ }
  | some limit =>
    { pump := Pump.start config surface (some ⟨1, limit⟩), record := ⟨{}, []⟩, subscribers := 1 }

def isIdle (r : Rehearsal) : Bool :=
  match r.pump.phase with
  | .creating => !r.released
  | .checkingPause => r.pump.paused && !r.pump.stopRequested
  | .awaitingDeadline =>
    !r.pump.stopRequested && r.plan.waitFor.any fun n => n ≤ r.record.world.framesDone
  | .exited _ => true
  | _ => false

def advance (r : Rehearsal) : Rehearsal := r.setPump (r.pump.step surroundings true r.record)

def create (r : Rehearsal) : Rehearsal :=
  let idle := r.plan.frames = 0 ∧ r.record.world.creation.toBool
  advance { r with pump := if idle then r.pump.setPaused true else r.pump }

def isImmediate : Move Subscriber → Bool
  | .stop | .pause _ => true
  | _ => false

/-- The host's calls during the frame in flight: the flags are set at once, all else
waits for the coordinator. The last frame of the step pauses the pump. -/
def interrupt (r : Rehearsal) : Rehearsal :=
  let done := r.record.world.framesDone
  let calls := (r.plan.during.filter fun c => c.1 + 1 = done).map Prod.snd
  let flags := calls.filter isImmediate ++ if r.plan.frames = done then [.pause true] else []
  { r with
    pump := flags.foldl (fun p m => (p.perform surroundings m r.record).2.1) r.pump
    queued := r.queued ++ calls.filter fun m => !isImmediate m }

def call (m : Move Subscriber) (r : Rehearsal) : Answer × Rehearsal :=
  let (answer, p) := r.pump.call surroundings m r.record
  (answer, r.setPump p)

def serve (r : Rehearsal) : Rehearsal :=
  r.queued.foldl
    (fun r m =>
      let (answer, r) := r.call m
      { r with answers := r.answers ++ [answer] })
    { r with queued := [] }

def proceed (r : Rehearsal) : Rehearsal :=
  match r.pump.phase with
  | .creating => r.create
  | .rendering _ => r.interrupt.advance
  | .checkingStop | .tearingDown _ => r.serve.advance
  | _ => r.advance

def settle : Nat → Rehearsal → Rehearsal
  | 0, r => r
  | n + 1, r => if r.isIdle then r else settle n r.proceed

/-- A frame takes fewer than sixteen steps, and so does all that is not a frame. -/
def rest (r : Rehearsal) : Rehearsal := r.settle (16 * (r.plan.frames + 4))

def begin (plan : Plan) (r : Rehearsal) : Rehearsal :=
  { r with plan, answers := [] }.setScript fun s =>
    { s with failing := plan.failing, reason := plan.reason, framesDone := 0 }

inductive Act where
  | create (error : Option CoreError) (plan : Plan)
  | step (plan : Plan)
  | call (m : Move Subscriber)
  | subscribe (limit : Option Nat)
  | rejectSizes (n : Nat)
  | rejectRom (reason : Option String)
  /-- Stops the pump and waits for its thread. A factory that still waits fails. -/
  | stop

def gateClosed : CoreError := .createFailed "gate closed"

def release (error : Option CoreError) (r : Rehearsal) : Rehearsal :=
  { r with released := true }.setScript fun s =>
    { s with creation := match error with | none => .ok 1 | some e => .error e }

def perform (a : Act) (r : Rehearsal) : List Answer × Rehearsal :=
  match a with
  | .create error plan =>
    let r := ((r.begin plan).release error).rest
    (r.answers, r)
  | .step plan =>
    let r := r.begin plan
    let r := { r with pump := r.pump.setPaused false }.rest
    (r.answers, r)
  | .call m =>
    let (answer, r) := r.call m
    ([answer], r.rest)
  | .subscribe limit =>
    let (l, r) := r.enroll limit
    let (answer, r) := r.call (.subscribe l)
    ([answer], r)
  | .rejectSizes n => ([], r.setScript fun s => { s with rejectSizes := n })
  | .rejectRom reason => ([], r.setScript fun s => { s with rejectRom := reason })
  | .stop =>
    let r := if r.released then r else r.release (some gateClosed)
    ([], { r with pump := r.pump.requestStop }.rest)

end Rehearsal

end EmulatorHost.Lockstep
