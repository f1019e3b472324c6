import EmulatorHost.Core.Calls
import EmulatorHost.Notifier

/-! Everything that a pump calls and does not own. `recorded` keeps a record of these calls with
their answers, so that a statement about what the pump did speaks of one list. -/

namespace EmulatorHost

structure Surroundings (κ σ η ω : Type) extends Cores κ σ ω, Listeners η ω where
  createCore : ω → Except CoreError κ × ω

inductive Activity (κ σ η : Type) where
  | created (answer : Except CoreError κ)
  | frame (core : κ) (surface : σ) (answer : CoreOutcome)
  | resized (core : κ) (size : Size) (answer : CoreOutcome)
  | loaded (core : κ) (path : Path) (answer : CoreOutcome)
  | dropped (core : κ)
  | delivered (listener : η) (event : Notification) (heard : Bool)
  | released (listener : η)

structure Recorded (κ σ η ω : Type) where
  world : ω
  activity : List (Activity κ σ η) := []

namespace Recorded

variable {κ σ η ω α : Type}

def call (f : ω → α × ω) (entry : α → Activity κ σ η) (r : Recorded κ σ η ω) :
    α × Recorded κ σ η ω :=
  ((f r.world).1, ⟨(f r.world).2, r.activity ++ [entry (f r.world).1]⟩)

def note (f : ω → ω) (entry : Activity κ σ η) (r : Recorded κ σ η ω) : Recorded κ σ η ω :=
  ⟨f r.world, r.activity ++ [entry]⟩

end Recorded

def Surroundings.recorded {κ σ η ω : Type} (s : Surroundings κ σ η ω) :
    Surroundings κ σ η (Recorded κ σ η ω) where
  createCore := Recorded.call s.createCore .created
  runFrame core surface := Recorded.call (s.runFrame core surface) (.frame core surface)
  setOutputSize core size := Recorded.call (s.setOutputSize core size) (.resized core size)
  loadRom core path := Recorded.call (s.loadRom core path) (.loaded core path)
  drop core := Recorded.note (s.drop core) (.dropped core)
  deliver l event := Recorded.call (s.deliver l event) (.delivered l event)
  release l := Recorded.note (s.release l) (.released l)

end EmulatorHost
