import EmulatorHost.Coordinator

namespace EmulatorHost.Coordinator

variable {κ σ ω : Type}

inductive Operation (κ σ : Type) where
  | setDrawableSize (size : Size)
  | requestLoad (path : Path)
  | install (core : κ)
  | pumpOnce (surface : σ)
  | takeCore
  | inspect
  deriving DecidableEq, Repr

inductive Result (κ : Type) where
  | changed (answer : Bool)
  | picked (answer : PickAnswer)
  | installed (load : Option DeferredLoad)
  | pumped (report : Option FrameReport)
  | taken (core : Option κ)
  | seen (core : Option κ)

def perform (cores : Cores κ σ ω) (op : Operation κ σ) (c : Coordinator κ) (w : ω) :
    Result κ × Coordinator κ × ω :=
  match op with
  | .setDrawableSize size =>
    let (answer, c) := c.setDrawableSize size
    (.changed answer, c, w)
  | .requestLoad path =>
    let (answer, r) := c.requestLoad cores path w
    (.picked answer, r)
  | .install core =>
    let (load, r) := c.install cores core w
    (.installed load, r)
  | .pumpOnce surface =>
    let (report, r) := c.pumpOnce cores surface w
    (.pumped report, r)
  | .takeCore => (.taken c.takeCore.1, c.takeCore.2, c.discardCore cores w)
  | .inspect => (.seen c.core, c, w)

def run (cores : Cores κ σ ω) : List (Operation κ σ) → Coordinator κ → ω →
    List (Result κ) × Coordinator κ × ω
  | [], c, w => ([], c, w)
  | op :: rest, c, w =>
    let (result, c, w) := c.perform cores op w
    let (results, r) := run cores rest c w
    (result :: results, r)

end EmulatorHost.Coordinator
