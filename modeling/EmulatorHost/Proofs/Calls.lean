import EmulatorHost.Surroundings

namespace EmulatorHost

theorem CoreOutcome.accepted_iff {outcome : CoreOutcome} :
    outcome.accepted = true ↔ outcome = .ok () := by
  cases outcome <;> simp [accepted]

namespace Activity

variable {κ σ η : Type}

def core? : Activity κ σ η → Option κ
  | .frame core .. | .resized core .. | .loaded core .. | .dropped core => some core
  | .created _ | .delivered .. | .released _ => none

def isToCore : Activity κ σ η → Bool
  | .delivered .. | .released _ => false
  | _ => true

def isRefused : Activity κ σ η → Bool
  | .delivered _ _ heard => !heard
  | _ => false

def loadedPath? : Activity κ σ η → Option Path
  | .loaded _ path _ => some path
  | _ => none

def rendered? : Activity κ σ η → Option CoreOutcome
  | .frame _ _ answer => some answer
  | _ => none

@[simp] theorem rendered?_dropped (core : Option κ) :
    ((core.map .dropped).toList : List (Activity κ σ η)).filterMap rendered? = [] := by
  cases core <;> rfl

@[simp] theorem rendered?_released (l : Option η) :
    ((l.map .released).toList : List (Activity κ σ η)).filterMap rendered? = [] := by
  cases l <;> rfl

@[simp] theorem loadedPath?_dropped (core : Option κ) :
    ((core.map .dropped).toList : List (Activity κ σ η)).filterMap loadedPath? = [] := by
  cases core <;> rfl

theorem eq_of_mem_dropped {core : Option κ} {call : Activity κ σ η} {k : κ}
    (h : call ∈ (core.map .dropped).toList) (hk : call.core? = some k) : core = some k := by
  cases core with
  | none => simp at h
  | some core =>
    obtain rfl : call = .dropped core := by simpa using h
    exact hk

end Activity

end EmulatorHost
