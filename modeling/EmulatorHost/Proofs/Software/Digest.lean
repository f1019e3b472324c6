import EmulatorHost.Software.Sha1
import Mathlib.Data.Nat.Bitwise
import Mathlib.Data.Nat.Digits.Defs
import Mathlib.Tactic.IntervalCases

namespace EmulatorHost.Sha1

def bytesOf (word : UInt32) : List UInt8 :=
  [24, 16, 8, 0].map fun shift : UInt32 => (word >>> shift).toUInt8

def State.bytes (s : State) : List UInt8 := [s.a, s.b, s.c, s.d, s.e].flatMap bytesOf

example : (digest "abc".toUTF8).bytes.take 4 = [0xA9, 0x99, 0x3E, 0x36] := by decide +kernel

def littleEndian (bytes : List UInt8) : Nat := Nat.ofDigits 256 (bytes.map UInt8.toNat)

theorem testBit_byte (b q i : Nat) :
    (b % 256 + 256 * q).testBit i = if i < 8 then b.testBit i else q.testBit (i - 8) := by
  rw [Nat.add_comm]
  refine (Nat.testBit_two_pow_mul_add q (i := 8) (Nat.mod_lt b (by decide)) i).trans ?_
  refine if_ctx_congr Iff.rfl (fun low => ?_) (fun _ => rfl)
  refine (Nat.testBit_mod_two_pow b 8 i).trans ?_
  rw [decide_eq_true low, Bool.true_and]

theorem testBit_mask (i : Nat) :
    Nat.testBit 0x00FF00FF i = (decide (i < 8) || decide (16 ≤ i) && decide (i < 24)) := by
  have ones (i : Nat) : Nat.testBit 255 i = decide (i < 8) := Nat.testBit_two_pow_sub_one 8 i
  have bytes : 0x00FF00FF = 255 % 256 + 256 * (0 % 256 + 256 * (255 % 256 + 256 * 0)) := rfl
  rw [bytes, testBit_byte, testBit_byte, testBit_byte, ones, ones, Nat.zero_testBit,
    Nat.zero_testBit]
  grind

theorem toNat_swapBytes (x : UInt32) : (swapBytes x).toNat = littleEndian (bytesOf x) := by
  have value : littleEndian (bytesOf x) = (x.toNat >>> 24) % 256 + 256 * ((x.toNat >>> 16) % 256 +
      256 * ((x.toNat >>> 8) % 256 + 256 * (x.toNat % 256 + 256 * 0))) := rfl
  rw [value]
  refine Nat.eq_of_testBit_eq fun i => ?_
  rcases Nat.lt_or_ge i 32 with inside | past
  · have mask : UInt32.toNat 0x00FF00FF = 0x00FF00FF := rfl
    simp only [swapBytes, rotate, UInt32.toNat_or, UInt32.toNat_and, UInt32.toNat_shiftLeft,
      UInt32.toNat_shiftRight, Nat.testBit_or, Nat.testBit_and, Nat.testBit_mod_two_pow,
      Nat.testBit_shiftLeft, Nat.testBit_shiftRight, mask, testBit_mask, testBit_byte]
    -- which bit of `x` comes to stand at place `i`, one place after the other
    interval_cases i <;> simp
  · have none {n : Nat} (small : n < UInt32.size) : n.testBit i = false :=
      Nat.testBit_lt_two_pow (Nat.lt_of_lt_of_le small (Nat.pow_le_pow_right Nat.two_pos past))
    rw [none (swapBytes x).toNat_lt_size, none (by simp only [UInt32.size]; omega)]

theorem State.toNat_firstWord (s : State) :
    s.firstWord.toNat = littleEndian (s.bytes.take 4) :=
  toNat_swapBytes s.a

end EmulatorHost.Sha1
