namespace EmulatorHost

inductive Pacing where
  | unbounded
  | every (nanoseconds : UInt64)
  deriving DecidableEq, Repr

def Pacing.ofRate (framesPerSecond : UInt32) : Pacing :=
  if framesPerSecond = 0 then .unbounded else .every (1000000000 / framesPerSecond.toUInt64)

def defaultFailureLimit : UInt32 := 120

structure Config where
  pacing : Pacing := .unbounded
  /-- So many failed frames in a row stop the pump; without a limit it goes on forever. -/
  failureLimit : Option UInt32 := some defaultFailureLimit
  startPaused : Bool := false
  deriving DecidableEq, Repr

end EmulatorHost
