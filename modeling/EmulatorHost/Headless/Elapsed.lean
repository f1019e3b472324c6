import EmulatorHost.Text.Decimal

namespace EmulatorHost.Headless

structure Elapsed where
  seconds : UInt64
  nanoseconds : UInt32
  deriving DecidableEq, Repr

namespace Elapsed

def toFloat (t : Elapsed) : Float :=
  t.seconds.toFloat + t.nanoseconds.toFloat / 1000000000.0

def twoDecimals (num den : Nat) : String :=
  let hundredths := Decimal.roundHalfEven (100 * num) den
  let fraction := toString (hundredths % 100)
  toString (hundredths / 100) ++ "." ++ (if fraction.length = 1 then "0" else "") ++ fraction

def text (t : Elapsed) : String :=
  let nanoseconds := t.nanoseconds.toNat
  if t.seconds ≠ 0 then
    twoDecimals (t.seconds.toNat * 1000000000 + nanoseconds) 1000000000 ++ "s"
  else if 1000000 ≤ nanoseconds then twoDecimals nanoseconds 1000000 ++ "ms"
  else if 1000 ≤ nanoseconds then twoDecimals nanoseconds 1000 ++ "µs"
  else twoDecimals nanoseconds 1 ++ "ns"

end Elapsed

def framesPerSecond (frames : UInt64) (t : Elapsed) : Float :=
  if t.toFloat > 0.0 then frames.toFloat / t.toFloat else 0.0

end EmulatorHost.Headless
