import EmulatorHost.Core.Error
import EmulatorHost.Path

/-! A core is known by a handle `κ` and draws into a surface `σ`. All cores share one world `ω`:
what a core drew outlives it. -/

namespace EmulatorHost

structure Cores (κ σ ω : Type) where
  runFrame : κ → σ → ω → CoreOutcome × ω
  setOutputSize : κ → Size → ω → CoreOutcome × ω
  loadRom : κ → Path → ω → CoreOutcome × ω
  drop : κ → ω → ω

end EmulatorHost
