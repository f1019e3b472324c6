import EmulatorHost.Core.Calls
import EmulatorHost.Software.Framebuffer
import EmulatorHost.Software.Sha1

/-! A core that draws a test pattern. The pattern moves with the frames, and the ROM's digest seeds
its colors. -/

namespace EmulatorHost

structure SoftwareCore where
  size : Size := ⟨400, 240⟩
  seed : UInt32 := 0
  /-- Frames since the last ROM came in, failed ones included. -/
  frame : UInt64 := 0
  failEvery : Option UInt64 := none
  deriving DecidableEq, Repr, Inhabited

namespace SoftwareCore

def create (failEvery : Option UInt64) : Except CoreError SoftwareCore :=
  if failEvery = some 0 then .error (.createFailed "fail-render-every must be at least 1")
  else .ok { failEvery }

def fails (failEvery : Option UInt64) (frame : UInt64) : Bool :=
  failEvery.any fun n => frame % n = 0

def color (seed tick : UInt32) (x y : UInt32) : UInt32 := ((x ^^^ y) + tick) ^^^ seed

inductive Drawn where
  | done
  | failed (error : CoreError)
  /-- A picture without columns has no rows to draw; the program ends here. -/
  | noColumns
  deriving DecidableEq, Repr

def drawFrame (c : SoftwareCore) (fb : Framebuffer) : Drawn × SoftwareCore × Framebuffer :=
  let frame := c.frame + 1
  let next := { c with frame }
  if fails c.failEvery frame then
    (.failed (.renderFailed ("injected failure at frame " ++ toString frame.toNat)), next, fb)
  else
    (if c.size.width = 0 then .noColumns else .done, next,
      fb.paint c.size (color c.seed frame.toUInt32))

def setSize (size : Size) (c : SoftwareCore) : SoftwareCore := { c with size }

def emptyImage : CoreError := .loadFailed "ROM image is empty"

def load (image : Except String ByteArray) (c : SoftwareCore) : CoreOutcome × SoftwareCore :=
  match image with
  | .error reason => (.error (.loadFailed reason), c)
  | .ok bytes =>
    if bytes.size = 0 then (.error emptyImage, c)
    else (.ok (), { c with seed := (Sha1.digest bytes).firstWord, frame := 0 })

theorem size_drawFrame (c : SoftwareCore) (fb : Framebuffer) :
    (c.drawFrame fb).2.1.size = c.size := by
  simp only [drawFrame]
  split <;> rfl

theorem size_load (image : Except String ByteArray) (c : SoftwareCore) :
    (c.load image).2.size = c.size := by
  unfold load
  split
  · rfl
  · split <;> rfl

end SoftwareCore

structure Screen where
  core : SoftwareCore := {}
  framebuffer : Framebuffer := {}
  crashed : Bool := false
  deriving Repr, Inhabited

namespace Screen

def create (failEvery : Option UInt64) (s : Screen) : Except CoreError Unit × Screen :=
  match SoftwareCore.create failEvery with
  | .ok core => (.ok (), { s with core })
  | .error e => (.error e, s)

def runFrame (s : Screen) : CoreOutcome × Screen :=
  match s.core.drawFrame s.framebuffer with
  | (.done, core, framebuffer) => (.ok (), { s with core, framebuffer })
  | (.failed e, core, framebuffer) => (.error e, { s with core, framebuffer })
  | (.noColumns, core, framebuffer) => (.ok (), { core, framebuffer, crashed := true })

def setOutputSize (size : Size) (s : Screen) : CoreOutcome × Screen :=
  (.ok (), { s with core := s.core.setSize size })

def loadRom (read : Path → Except String ByteArray) (path : Path) (s : Screen) :
    CoreOutcome × Screen :=
  let (outcome, core) := s.core.load (read path)
  (outcome, { s with core })

def calls (read : Path → Except String ByteArray) : Cores Unit Unit Screen where
  runFrame _ _ := runFrame
  setOutputSize _ := setOutputSize
  loadRom _ := loadRom read
  drop _ s := s

theorem size_runFrame (s : Screen) : s.runFrame.2.core.size = s.core.size := by
  have same := s.core.size_drawFrame s.framebuffer
  unfold runFrame
  split <;> rename_i drawn <;> rwa [drawn] at same

end Screen

end EmulatorHost
