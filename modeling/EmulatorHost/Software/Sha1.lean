/-! The SHA-1 digest. -/

namespace EmulatorHost.Sha1

structure State where
  a : UInt32
  b : UInt32
  c : UInt32
  d : UInt32
  e : UInt32
  deriving DecidableEq, Repr

def initial : State := ⟨0x67452301, 0xEFCDAB89, 0x98BADCFE, 0x10325476, 0xC3D2E1F0⟩

def State.add (s t : State) : State := ⟨s.a + t.a, s.b + t.b, s.c + t.c, s.d + t.d, s.e + t.e⟩

def rotate (n x : UInt32) : UInt32 := x <<< n ||| x >>> (32 - n)

def lengthBytes (size : Nat) : List UInt8 :=
  [56, 48, 40, 32, 24, 16, 8, 0].map fun shift => ((size * 8) >>> shift).toUInt8

/-- A one bit, zeros up to eight bytes before the end of a block, and the length. -/
def padding (size : Nat) : List UInt8 :=
  0x80 :: List.replicate ((119 - size % 64) % 64) 0 ++ lengthBytes size

def pad (message : ByteArray) : ByteArray :=
  (padding message.size).foldl ByteArray.push message

def byteAt (bytes : ByteArray) (i : Nat) : UInt32 :=
  if h : i < bytes.size then bytes[i].toUInt32 else 0

def wordAt (bytes : ByteArray) (i : Nat) : UInt32 :=
  byteAt bytes i <<< 24 ||| byteAt bytes (i + 1) <<< 16 ||| byteAt bytes (i + 2) <<< 8 |||
    byteAt bytes (i + 3)

def expandBy (words : Array UInt32) (t : Nat) : Array UInt32 :=
  words.push (rotate 1 (words.getD (t - 3) 0 ^^^ words.getD (t - 8) 0 ^^^
    words.getD (t - 14) 0 ^^^ words.getD (t - 16) 0))

def expand (bytes : ByteArray) (start : Nat) : Array UInt32 :=
  (List.range' 16 64).foldl expandBy
    ((List.range 16).map fun i => wordAt bytes (start + 4 * i)).toArray

def mixer (t : Nat) (s : State) : UInt32 × UInt32 :=
  if t < 20 then ((s.b &&& s.c) ||| (~~~s.b &&& s.d), 0x5A827999)
  else if t < 40 then (s.b ^^^ s.c ^^^ s.d, 0x6ED9EBA1)
  else if t < 60 then ((s.b &&& s.c) ||| (s.b &&& s.d) ||| (s.c &&& s.d), 0x8F1BBCDC)
  else (s.b ^^^ s.c ^^^ s.d, 0xCA62C1D6)

def round (words : Array UInt32) (s : State) (t : Nat) : State :=
  let (f, k) := mixer t s
  ⟨rotate 5 s.a + f + s.e + k + words.getD t 0, s.a, rotate 30 s.b, s.c, s.d⟩

def block (bytes : ByteArray) (s : State) (i : Nat) : State :=
  s.add ((List.range 80).foldl (round (expand bytes (64 * i))) s)

def digest (message : ByteArray) : State :=
  let bytes := pad message
  (List.range (bytes.size / 64)).foldl (block bytes) initial

def swapBytes (x : UInt32) : UInt32 :=
  let low : UInt32 := 0x00FF00FF
  rotate 16 ((x >>> 8 &&& low) ||| (x &&& low) <<< 8)

def State.firstWord (s : State) : UInt32 := swapBytes s.a

end EmulatorHost.Sha1
