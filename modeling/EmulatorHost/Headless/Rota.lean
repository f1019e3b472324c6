import EmulatorHost.Headless.App

/-! One fair order of turns: the interface sets the run up, and then one frame of the pump and one
poll of the interface take turns. -/

namespace EmulatorHost.Headless.App

variable {ω : Type} (v : Venue ω)

def pumpFrame : Nat → App ω → App ω
  | 0, a => a
  | n + 1, a =>
    let a := a.advance v true
    match a.pump.phase with
    | .checkingStop | .exited _ => a
    | _ => pumpFrame n a

def pollOnce : Nat → App ω → App ω
  | 0, a => a
  | n + 1, a =>
    if a.isBlocked then a
    else
      let a := a.act v
      match a.scene with
      | .draining | .finished _ => a
      | _ => pollOnce n a

/-- No frame, exit or poll takes as many steps as this. -/
def ample : Nat := 24

def alternate : Nat → App ω → Option (Except RunError Report)
  | 0, a => a.result?
  | n + 1, a =>
    match a.result? with
    | some r => some r
    | none => alternate n ((a.pumpFrame v ample).pollOnce v ample)

/-- Enough rounds for every run that ends: half of the frames succeed at least, or none
does and the failure limit ends the run. -/
def rounds (o : Options) : Nat :=
  2 * o.frames.toNat + o.failureLimit.toNat + 4 * o.resizes.length + 16

def run (read : Path → Except String ByteArray) (o : Options) :
    Option (Except RunError Report) :=
  let v := Stage.venue read o.failEvery
  alternate v (rounds o) ((start o {}).pollOnce v (2 * o.roms.length + ample))

end EmulatorHost.Headless.App
