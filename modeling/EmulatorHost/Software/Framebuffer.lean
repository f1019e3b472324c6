import EmulatorHost.Size

namespace EmulatorHost

structure Framebuffer where
  size : Size := Size.zero
  pixels : Array UInt32 := #[]
  deriving DecidableEq, Repr, Inhabited

namespace Framebuffer

def mix (acc pixel : UInt32) : UInt32 := (acc ^^^ pixel) * 0x01000193

def seed : UInt32 := 0x811C9DC5

def checksum (fb : Framebuffer) : UInt32 := fb.pixels.foldl mix seed

def fit (n : Nat) (pixels : Array UInt32) : Array UInt32 :=
  if n ≤ pixels.size then pixels.take n
  else pixels ++ Array.replicate (n - pixels.size) 0

def paint (size : Size) (color : UInt32 → UInt32 → UInt32) (fb : Framebuffer) : Framebuffer where
  size := size
  pixels := (fit size.area fb.pixels).mapIdx fun i _ =>
    color (i % size.width.toNat).toUInt32 (i / size.width.toNat).toUInt32

end Framebuffer

end EmulatorHost
