import EmulatorHost.Core.Error
import EmulatorHost.Path

namespace EmulatorHost

inductive StopReason where
  | requested
  | createFailed
  | renderFailures (count : UInt32)
  deriving DecidableEq, Repr

def StopReason.text : StopReason → String
  | .requested => "Requested"
  | .createFailed => "CoreCreateFailed"
  | .renderFailures count => "RenderFailures \x7b count: " ++ toString count.toNat ++ " \x7d"

inductive Notification where
  | coreCreated
  | coreCreateFailed (error : CoreError)
  | romLoaded (path : Path)
  | romLoadFailed (path : Path) (error : CoreError)
  | outputResized (size : Size)
  | resizeFailed (error : CoreError)
  /-- Frame number `frame` failed; so many had succeeded before. -/
  | renderFailed (frame : UInt64) (error : CoreError)
  | pumpStopped (reason : StopReason)
  deriving DecidableEq, Repr

end EmulatorHost
