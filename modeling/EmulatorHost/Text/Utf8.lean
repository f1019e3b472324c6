/-! `Reading.pieces` cuts a byte string into scalar values and maximal ill-formed sequences. -/

namespace EmulatorHost.Utf8

inductive Piece where
  | scalar (c : Char)
  | illFormed
  deriving DecidableEq, Repr

/-- Between two bytes: either a scalar value starts next, or one is open. An open
one has its value so far, the bounds of its next byte and how many bytes follow that one. -/
inductive Reading where
  | fresh
  | opened (value : Nat) (low high : UInt8) (more : Nat)
  deriving DecidableEq, Repr

/-- The bounds of the second byte leave out overlong forms, surrogates and values
above U+10FFFF. -/
def Reading.ofLead? (b : UInt8) : Option Reading :=
  if 0xC2 ≤ b ∧ b ≤ 0xDF then some (.opened (b.toNat % 32) 0x80 0xBF 0)
  else if b = 0xE0 then some (.opened 0 0xA0 0xBF 1)
  else if b = 0xED then some (.opened 13 0x80 0x9F 1)
  else if 0xE1 ≤ b ∧ b ≤ 0xEF then some (.opened (b.toNat % 16) 0x80 0xBF 1)
  else if b = 0xF0 then some (.opened 0 0x90 0xBF 2)
  else if 0xF1 ≤ b ∧ b ≤ 0xF3 then some (.opened (b.toNat % 8) 0x80 0xBF 2)
  else if b = 0xF4 then some (.opened 4 0x80 0x8F 2)
  else none

def begin (b : UInt8) : List Piece × Reading :=
  if b < 0x80 then ([.scalar (Char.ofNat b.toNat)], .fresh)
  else match Reading.ofLead? b with
    | some r => ([], r)
    | none => ([.illFormed], .fresh)

def Reading.feed (b : UInt8) : Reading → List Piece × Reading
  | .fresh => begin b
  | .opened value low high more =>
    if low ≤ b ∧ b ≤ high then
      let value := value * 64 + b.toNat % 64
      match more with
      | 0 => ([.scalar (Char.ofNat value)], .fresh)
      | more + 1 => ([], .opened value 0x80 0xBF more)
    else
      let (pieces, next) := begin b
      (.illFormed :: pieces, next)

def Reading.pieces : Reading → List UInt8 → List Piece
  | .fresh, [] => []
  | .opened .., [] => [.illFormed]
  | r, b :: rest => (r.feed b).1 ++ (r.feed b).2.pieces rest

def Piece.scalar? : Piece → Option Char
  | .scalar c => some c
  | .illFormed => none

def Piece.shown : Piece → Char
  | .scalar c => c
  | .illFormed => '\uFFFD'

def encode (cs : List Char) : List UInt8 := cs.flatMap String.utf8EncodeChar

def decode? (bytes : List UInt8) : Option (List Char) :=
  (Reading.fresh.pieces bytes).mapM Piece.scalar?

def display (bytes : List UInt8) : String :=
  String.ofList ((Reading.fresh.pieces bytes).map Piece.shown)

end EmulatorHost.Utf8
