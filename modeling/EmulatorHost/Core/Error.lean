import EmulatorHost.Size

namespace EmulatorHost

inductive CoreError where
  | createFailed (reason : String)
  | loadFailed (reason : String)
  | renderFailed (reason : String)
  | resizeFailed (size : Size) (reason : String)
  | unsupported (operation : String)
  deriving DecidableEq, Repr

def CoreError.message : CoreError → String
  | .createFailed reason => "core creation failed: " ++ reason
  | .loadFailed reason => "ROM load failed: " ++ reason
  | .renderFailed reason => "frame render failed: " ++ reason
  | .resizeFailed size reason => "output resize to " ++ size.text ++ " failed: " ++ reason
  | .unsupported operation => "core does not implement `" ++ operation ++ "`"

abbrev CoreOutcome := Except CoreError Unit

def CoreOutcome.accepted : CoreOutcome → Bool
  | .ok _ => true
  | .error _ => false

instance : DecidableEq CoreOutcome
  | .ok _, .ok _ => isTrue rfl
  | .ok _, .error _ => isFalse nofun
  | .error _, .ok _ => isFalse nofun
  | .error e, .error f =>
    if h : e = f then isTrue (h ▸ rfl) else isFalse fun g => h (Except.error.inj g)

end EmulatorHost
