/-! Binary floating-point numbers in fixed notation with one decimal, rounded half to even. -/

namespace EmulatorHost.Decimal

/-- The nearest natural number to `num / den`; a tie goes to the even one. -/
def roundHalfEven (num den : Nat) : Nat :=
  let q := num / den
  let r := num % den
  if 2 * r < den then q
  else if den < 2 * r then q + 1
  else q + q % 2

/-- A finite number is `mantissa * 2 ^ (exponent - 1075)`. -/
structure Parts where
  negative : Bool
  exponent : Nat
  mantissa : Nat
  deriving DecidableEq, Repr

inductive Value where
  | finite (parts : Parts)
  | infinite (negative : Bool)
  | notANumber
  deriving DecidableEq, Repr

/-- The leading bit of a number with an exponent above the least is not stored. -/
def implicitBit : Nat := 1 <<< 52

def Value.ofBits (bits : UInt64) : Value :=
  let negative := bits >>> 63 = 1
  let exponent := (bits >>> 52).toNat % 2048
  let fraction := bits.toNat % implicitBit
  if exponent = 2047 then
    if fraction = 0 then .infinite negative else .notANumber
  else if exponent = 0 then .finite ⟨negative, 1, fraction⟩
  else .finite ⟨negative, exponent, fraction + implicitBit⟩

def Parts.tenths (p : Parts) : Nat :=
  if 1075 ≤ p.exponent then (10 * p.mantissa) <<< (p.exponent - 1075)
  else roundHalfEven (10 * p.mantissa) (1 <<< (1075 - p.exponent))

def sign (negative : Bool) : String := if negative then "-" else ""

def Value.text : Value → String
  | .finite p => sign p.negative ++ toString (p.tenths / 10) ++ "." ++ toString (p.tenths % 10)
  | .infinite negative => sign negative ++ "inf"
  | .notANumber => "NaN"

def oneDecimal (x : Float) : String := (Value.ofBits x.toBits).text

end EmulatorHost.Decimal
