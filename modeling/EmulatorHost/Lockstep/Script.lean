import EmulatorHost.Surroundings

/-! Cores and subscribers that follow a script, which belongs to no core: it survives their
replacement. -/

namespace EmulatorHost.Lockstep

inductive Failing where
  | never
  | always
  | listed (frames : List Nat)
  deriving DecidableEq, Repr

def Failing.at (frame : Nat) : Failing → Bool
  | .never => false
  | .always => true
  | .listed frames => frames.contains frame

structure Subscriber where
  number : Nat
  limit : Option Nat
  deriving DecidableEq, Repr

structure Script where
  creation : Except CoreError Nat := .ok 1
  rejectSizes : Nat := 0
  rejectRom : Option String := none
  failing : Failing := .never
  reason : String := "frame failed"
  framesDone : Nat := 0
  heard : List Nat := []

namespace Script

def renderFrame (s : Script) : CoreOutcome × Script :=
  (if s.failing.at s.framesDone then .error (.renderFailed s.reason) else .ok (),
    { s with framesDone := s.framesDone + 1 })

def takeSize (size : Size) (s : Script) : CoreOutcome × Script :=
  match s.rejectSizes with
  | 0 => (.ok (), s)
  | n + 1 => (.error (.resizeFailed size "size rejected"), { s with rejectSizes := n })

def takeRom (s : Script) : CoreOutcome × Script :=
  match s.rejectRom with
  | none => (.ok (), s)
  | some reason => (.error (.loadFailed reason), s)

def hear (l : Subscriber) (s : Script) : Bool × Script :=
  if l.limit.all fun limit => s.heard.count l.number < limit then
    (true, { s with heard := l.number :: s.heard })
  else (false, s)

def surroundings : Surroundings Nat UInt32 Subscriber Script where
  createCore s := (s.creation, s)
  runFrame _ _ s := s.renderFrame
  setOutputSize _ size s := s.takeSize size
  loadRom _ _ s := s.takeRom
  drop _ s := s
  deliver l _ s := s.hear l
  release _ s := s

end Script

end EmulatorHost.Lockstep
