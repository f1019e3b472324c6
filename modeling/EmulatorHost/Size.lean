namespace EmulatorHost

structure Size where
  width : UInt32
  height : UInt32
  deriving DecidableEq, Repr, Inhabited

namespace Size

def zero : Size := ⟨0, 0⟩

def isVisible (s : Size) : Bool := s.width ≠ 0 && s.height ≠ 0

def area (s : Size) : Nat := s.width.toNat * s.height.toNat

def text (s : Size) : String := toString s.width.toNat ++ "x" ++ toString s.height.toNat

end Size

end EmulatorHost
