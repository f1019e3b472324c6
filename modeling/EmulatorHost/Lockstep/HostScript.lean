import EmulatorHost.Foreign.Core
import EmulatorHost.Lockstep.Script

namespace EmulatorHost.Lockstep

structure HostScript where
  creates : Bool := true
  rejectSizes : Nat := 0
  rejectRom : Bool := false
  failing : Failing := .never
  framesDone : Nat := 0

namespace HostScript

def renderFrame (s : HostScript) : Bool × HostScript :=
  (!s.failing.at s.framesDone, { s with framesDone := s.framesDone + 1 })

def takeSize (s : HostScript) : Bool × HostScript :=
  match s.rejectSizes with
  | 0 => (true, s)
  | n + 1 => (false, { s with rejectSizes := n })

def program : Foreign.HostProgram HostScript where
  create _ s := (s.creates, s)
  destroy _ s := s
  runFrame _ _ s := s.renderFrame
  setOutputSize _ _ s := s.takeSize
  loadRom _ _ s := (!s.rejectRom, s)

end HostScript

end EmulatorHost.Lockstep
