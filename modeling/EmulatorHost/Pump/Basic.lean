import EmulatorHost.Coordinator
import EmulatorHost.Pacing
import EmulatorHost.Surroundings

/-! `Phase` is how far the pump's thread is; a phase names what it does next, so that anything may
happen in between. -/

namespace EmulatorHost

inductive Phase (κ : Type) where
  | creating
  | createFailed (error : CoreError)
  | installing (core : κ)
  | announcingCore (deferred : Option DeferredLoad)
  | announcingRom (load : DeferredLoad)
  | checkingStop
  | checkingPause
  /-- Waits for the deadline of the next frame, and watches for a stop meanwhile. -/
  | awaitingDeadline
  | ready
  /-- A frame is being rendered; the coordinator is locked until it is through. -/
  | rendering (report : FrameReport)
  | reportingResize (report : FrameReport)
  | counting (render : CoreOutcome)
  | reportingFailure (frame : UInt64) (error : CoreError)
  | tearingDown (reason : StopReason)
  | dropping (core : Option κ) (reason : StopReason)
  | dropped (reason : StopReason)
  | announcingStop (reason : StopReason)
  | exited (reason : StopReason)

namespace Phase

variable {κ : Type}

def isRendering : Phase κ → Bool
  | .rendering _ => true
  | _ => false

def isExited : Phase κ → Bool
  | .exited _ => true
  | _ => false

end Phase

structure Pump (κ σ η : Type) where
  config : Config
  surface : σ
  coordinator : Coordinator κ := {}
  notifier : Notifier η := {}
  phase : Phase κ := .creating
  stopRequested : Bool := false
  paused : Bool := false
  running : Bool := true
  frames : UInt64 := 0
  failures : UInt64 := 0
  streak : UInt32 := 0
  /-- What host threads have loaded and not yet told the subscriber. -/
  outbox : List Notification := []

namespace Pump

variable {κ σ η : Type}

def threadName : String := "framepump"

def start (config : Config) (surface : σ) (subscriber : Option η) : Pump κ σ η where
  config := config
  surface := surface
  notifier := ⟨subscriber⟩
  paused := config.startPaused

end Pump

end EmulatorHost
