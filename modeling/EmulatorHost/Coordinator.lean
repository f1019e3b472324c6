import EmulatorHost.Core.Calls
import EmulatorHost.Drawable
import EmulatorHost.Pick

/-! Each operation here is one critical section of the coordinator, so a ROM is never swapped and a
size never pushed during a frame. -/

namespace EmulatorHost

structure FrameReport where
  resize : Option (Except CoreError Size)
  render : CoreOutcome

structure DeferredLoad where
  path : Path
  outcome : CoreOutcome

structure Coordinator (κ : Type) where
  drawable : Drawable := {}
  core : Option κ := none
  parkedRom : Option Path := none
  romLoaded : Bool := false
  /-- Set at teardown; there is no core again. -/
  stopped : Bool := false
  deriving DecidableEq, Repr

namespace Coordinator

variable {κ σ ω : Type}

def setDrawableSize (size : Size) (c : Coordinator κ) : Bool × Coordinator κ :=
  ((c.drawable.set size).1, { c with drawable := (c.drawable.set size).2 })

/-- Loads the ROM, or parks it until there is a core. A newer parked ROM replaces an
older one, and after teardown all are refused. -/
def requestLoad (cores : Cores κ σ ω) (path : Path) (c : Coordinator κ) (w : ω) :
    PickAnswer × Coordinator κ × ω :=
  if c.stopped then (.error .stopped, c, w)
  else match c.core with
    | none => (.ok .deferred, { c with parkedRom := some path }, w)
    | some core =>
      match cores.loadRom core path w with
      | (.ok _, w) => (.ok .loaded, { c with romLoaded := true }, w)
      | (.error e, w) => (.error (.loadFailed path e), { c with romLoaded := false }, w)

def discardCore (cores : Cores κ σ ω) (c : Coordinator κ) (w : ω) : ω :=
  match c.core with
  | none => w
  | some core => cores.drop core w

def install (cores : Cores κ σ ω) (core : κ) (c : Coordinator κ) (w : ω) :
    Option DeferredLoad × Coordinator κ × ω :=
  let w := c.discardCore cores w
  match c.parkedRom with
  | none => (none, { c with core := some core }, w)
  | some path =>
    let (outcome, w) := cores.loadRom core path w
    (some ⟨path, outcome⟩,
      { c with core := some core, parkedRom := none, romLoaded := outcome.accepted }, w)

def pushSize (cores : Cores κ σ ω) (core : κ) (d : Drawable) (w : ω) :
    Option (Except CoreError Size) × Drawable × ω :=
  match d.consume with
  | (none, d) => (none, d, w)
  | (some size, d) =>
    match cores.setOutputSize core size w with
    | (.ok _, w) => (some (.ok size), d, w)
    | (.error e, w) => (some (.error e), d.restore size, w)

def pumpOnce (cores : Cores κ σ ω) (surface : σ) (c : Coordinator κ) (w : ω) :
    Option FrameReport × Coordinator κ × ω :=
  match c.core with
  | none => (none, c, w)
  | some core =>
    let (resize, drawable, w) := pushSize cores core c.drawable w
    let (render, w) := cores.runFrame core surface w
    (some ⟨resize, render⟩, { c with drawable }, w)

/-- Removes the core for teardown, also when there never was one. A ROM that is still
parked is forgotten. -/
def takeCore (c : Coordinator κ) : Option κ × Coordinator κ :=
  (c.core, { c with core := none, parkedRom := none, romLoaded := false, stopped := true })

end Coordinator

end EmulatorHost
