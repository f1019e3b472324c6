import EmulatorHost.Core.Error
import EmulatorHost.Path

namespace EmulatorHost

inductive PickResult where
  | picked (path : Path)
  | cancelled
  deriving DecidableEq, Repr

namespace PickResult

def firstOf : List Path → PickResult
  | [] => .cancelled
  | path :: _ => .picked path

def ofOption : Option Path → PickResult
  | none => .cancelled
  | some path => .picked path

end PickResult

inductive PickOutcome where
  | loaded
  | deferred
  | cancelled
  deriving DecidableEq, Repr

inductive RequestError where
  | invalidSize (size : Size)
  | emptyPath
  | loadFailed (path : Path) (error : CoreError)
  | spawnFailed (reason : String)
  | stopped
  deriving DecidableEq, Repr

def RequestError.message : RequestError → String
  | .invalidSize size => "invalid drawable size " ++ size.text
  | .emptyPath => "picked document has an empty path"
  | .loadFailed path error => "failed to load ROM: " ++ path.display ++ ": " ++ error.message
  | .spawnFailed reason => "failed to spawn pump thread: " ++ reason
  | .stopped => "frame pump has stopped"

abbrev PickAnswer := Except RequestError PickOutcome

end EmulatorHost
