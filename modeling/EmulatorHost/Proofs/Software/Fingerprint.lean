import EmulatorHost.Software.Framebuffer
import Mathlib.Logic.Function.Basic

namespace EmulatorHost.Framebuffer

/-- Takes a pixel out again, since the two factors are inverse to each other. -/
def unmix (acc pixel : UInt32) : UInt32 := (acc * 0x359C449B) ^^^ pixel

theorem unmix_mix (acc pixel : UInt32) : unmix (mix acc pixel) pixel = acc := by
  have inverse : (0x01000193 : UInt32) * 0x359C449B = 1 := by decide
  rw [unmix, mix, UInt32.mul_assoc, inverse, UInt32.mul_one, UInt32.xor_assoc, UInt32.xor_self,
    UInt32.xor_zero]

theorem mix_unmix (acc pixel : UInt32) : mix (unmix acc pixel) pixel = acc := by
  have inverse : (0x359C449B : UInt32) * 0x01000193 = 1 := by decide
  rw [mix, unmix, UInt32.xor_assoc, UInt32.xor_self, UInt32.xor_zero, UInt32.mul_assoc, inverse,
    UInt32.mul_one]

theorem mix_comm (acc pixel : UInt32) : mix acc pixel = mix pixel acc := by
  rw [mix, mix, UInt32.xor_comm]

theorem mix_bijective (pixel : UInt32) : Function.Bijective fun acc => mix acc pixel :=
  Function.bijective_iff_has_inverse.2
    ⟨fun acc => unmix acc pixel, fun acc => unmix_mix acc pixel, fun acc => mix_unmix acc pixel⟩

theorem foldl_mix_bijective (pixels : List UInt32) :
    Function.Bijective fun acc => pixels.foldl mix acc := by
  induction pixels with
  | nil => exact Function.bijective_id
  | cons pixel pixels ih => exact ih.comp (mix_bijective pixel)

/-- A pixel in the middle is mixed into what came before it, and the rest is mixed into that. -/
theorem foldl_mix_pixel_bijective (before after : List UInt32) (acc : UInt32) :
    Function.Bijective fun pixel => (before ++ pixel :: after).foldl mix acc := by
  simp only [List.foldl_append, List.foldl_cons, mix_comm (before.foldl mix acc)]
  exact (foldl_mix_bijective after).comp (mix_bijective _)

theorem checksum_eq_foldl (fb : Framebuffer) : fb.checksum = fb.pixels.toList.foldl mix seed :=
  (Array.foldl_toList mix).symm

section Lists

variable {α : Type} {l l' : List α}

theorem eq_split_of_differ_once (same : l.length = l'.length)
    (once : ∃! i : Nat, l[i]? ≠ l'[i]?) :
    ∃ before x x' after, l = before ++ x :: after ∧ l' = before ++ x' :: after ∧ x ≠ x' := by
  obtain ⟨i, differ, only⟩ := once
  have agree {j : Nat} (elsewhere : j ≠ i) : l[j]? = l'[j]? :=
    Classical.not_not.1 fun apart => elsewhere (only j apart)
  have inside : i < l.length := by
    refine Nat.lt_of_not_le fun outside => differ ?_
    rw [List.getElem?_eq_none outside, List.getElem?_eq_none (same ▸ outside)]
  have inside' : i < l'.length := same ▸ inside
  have before : l.take i = l'.take i := List.ext_getElem? fun j => by
    rw [List.getElem?_take, List.getElem?_take]
    exact if_ctx_congr Iff.rfl (fun early => agree (Nat.ne_of_lt early)) fun _ => rfl
  have after : l.drop (i + 1) = l'.drop (i + 1) := List.ext_getElem? fun j => by
    rw [List.getElem?_drop, List.getElem?_drop]
    exact agree (by omega)
  refine ⟨l.take i, l[i], l'[i], l.drop (i + 1), ?_, ?_, fun equal => differ ?_⟩
  · simp
  · rw [before, after]
    simp
  · rw [List.getElem?_eq_getElem inside, List.getElem?_eq_getElem inside', equal]

end Lists

/-- Two pictures with equally many pixels of which exactly one is not the same have two
fingerprints. Whatever the pixels are, what comes out tells what the fingerprint was started
from. -/
theorem checksum_changes_with_any_pixel :
    (∀ fb fb' : Framebuffer, fb.pixels.size = fb'.pixels.size →
      (∃! i : Nat, fb.pixels[i]? ≠ fb'.pixels[i]?) → fb.checksum ≠ fb'.checksum) ∧
    ∀ pixels : Array UInt32, Function.Bijective fun acc => pixels.foldl mix acc := by
  refine ⟨fun fb fb' same once => ?_, fun pixels => ?_⟩
  · have aligned : fb.pixels.toList.length = fb'.pixels.toList.length := same
    obtain ⟨before, pixel, pixel', after, split, split', differ⟩ :=
      eq_split_of_differ_once aligned (by simpa only [Array.getElem?_toList] using once)
    rw [checksum_eq_foldl, checksum_eq_foldl, split, split']
    exact fun equal => differ ((foldl_mix_pixel_bijective before after seed).injective equal)
  · simpa only [Array.foldl_toList] using foldl_mix_bijective pixels.toList

theorem highest_bit_of_a_pixel_told :
    ∃ fb fb' : Framebuffer,
      fb = ⟨⟨3, 1⟩, #[7, 0, 7]⟩ ∧ fb' = ⟨⟨1, 3⟩, #[7, 0x80000000, 7]⟩ ∧
      fb.pixels.size = fb'.pixels.size ∧ (∃! i : Nat, fb.pixels[i]? ≠ fb'.pixels[i]?) ∧
      fb.checksum ≠ fb'.checksum := by
  have once : ∃! i : Nat,
      (#[7, 0, 7] : Array UInt32)[i]? ≠ (#[7, 0x80000000, 7] : Array UInt32)[i]? := by
    refine ⟨1, by decide, fun i differ => ?_⟩
    match i with
    | 0 => exact absurd rfl differ
    | 1 => rfl
    | 2 => exact absurd rfl differ
    | i + 3 => exact absurd rfl differ
  exact ⟨_, _, rfl, rfl, rfl, once, checksum_changes_with_any_pixel.1 _ _ rfl once⟩

end EmulatorHost.Framebuffer
