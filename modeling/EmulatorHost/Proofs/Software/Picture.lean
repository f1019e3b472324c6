import EmulatorHost.Proofs.Calls
import EmulatorHost.Proofs.Software.History

namespace EmulatorHost

namespace Framebuffer

variable {fb fb' : Framebuffer} {size : Size} {color : UInt32 → UInt32 → UInt32}
  {x y seed frames : Nat}

theorem size_fit (n : Nat) (pixels : Array UInt32) : (fit n pixels).size = n := by
  unfold fit
  split
  · rename_i enough
    simpa using enough
  · rw [Array.size_append, Array.size_replicate]
    omega

theorem size_paint : (fb.paint size color).pixels.size = size.width.toNat * size.height.toNat := by
  rw [paint, Array.size_mapIdx, size_fit]
  rfl

theorem place_lt (inside : x < size.width.toNat) (above : y < size.height.toNat) :
    y * size.width.toNat + x < size.width.toNat * size.height.toNat := by
  calc y * size.width.toNat + x
    _ < y * size.width.toNat + size.width.toNat := Nat.add_lt_add_left inside _
    _ = (y + 1) * size.width.toNat := (Nat.succ_mul ..).symm
    _ ≤ size.height.toNat * size.width.toNat := Nat.mul_le_mul_right _ above
    _ = size.width.toNat * size.height.toNat := Nat.mul_comm ..

theorem pixel_paint (inside : x < size.width.toNat) (above : y < size.height.toNat) :
    (fb.paint size color).pixels[y * size.width.toNat + x]? =
      some (color x.toUInt32 y.toUInt32) := by
  have wide : 0 < size.width.toNat := Nat.lt_of_le_of_lt (Nat.zero_le x) inside
  have column : (y * size.width.toNat + x) % size.width.toNat = x := by
    rw [Nat.mul_comm, Nat.mul_add_mod, Nat.mod_eq_of_lt inside]
  have row : (y * size.width.toNat + x) / size.width.toNat = y := by
    rw [Nat.mul_comm, Nat.mul_add_div wide, Nat.div_eq_of_lt inside, Nat.add_zero]
  have present : y * size.width.toNat + x < (fit size.area fb.pixels).size := by
    rw [size_fit]
    exact place_lt inside above
  rw [paint, Array.getElem?_mapIdx, Array.getElem?_eq_getElem present, Option.map_some, column, row]

structure Shows (fb : Framebuffer) (size : Size) (seed frames : Nat) : Prop where
  sized : fb.size = size
  count : fb.pixels.size = size.width.toNat * size.height.toNat
  pixel : ∀ x y, x < size.width.toNat → y < size.height.toNat →
    ∃ pixel, fb.pixels[y * size.width.toNat + x]? = some pixel ∧
      pixel.toNat = ((x ^^^ y) + frames) % UInt32.size ^^^ seed

theorem Shows.unique (h : fb.Shows size seed frames) (h' : fb'.Shows size seed frames) :
    fb = fb' := by
  have pixels : fb.pixels = fb'.pixels := by
    refine Array.ext_getElem? fun i => ?_
    rcases Nat.lt_or_ge i (size.width.toNat * size.height.toNat) with inside | outside
    · have wide : 0 < size.width.toNat := Nat.pos_of_mul_pos_right (Nat.zero_lt_of_lt inside)
      obtain ⟨p, at_p, value⟩ := h.pixel _ _ (Nat.mod_lt i wide) (Nat.div_lt_of_lt_mul inside)
      obtain ⟨p', at_p', value'⟩ := h'.pixel _ _ (Nat.mod_lt i wide) (Nat.div_lt_of_lt_mul inside)
      rw [Nat.mul_comm, Nat.div_add_mod] at at_p at_p'
      rw [at_p, at_p', UInt32.toNat_inj.1 (value.trans value'.symm)]
    · rw [Array.getElem?_eq_none (h.count ▸ outside), Array.getElem?_eq_none (h'.count ▸ outside)]
  rcases fb with ⟨s, p⟩
  rcases fb' with ⟨s', p'⟩
  exact congrArg₂ Framebuffer.mk (h.sized.trans h'.sized.symm) pixels

theorem toNat_color {x y : Nat} {seed tick : UInt32} (hx : x < UInt32.size) (hy : y < UInt32.size) :
    (SoftwareCore.color seed tick x.toUInt32 y.toUInt32).toNat =
      ((x ^^^ y) + tick.toNat) % UInt32.size ^^^ seed.toNat := by
  have same {n : Nat} (h : n < UInt32.size) : n.toUInt32.toNat = n := Nat.mod_eq_of_lt h
  rw [SoftwareCore.color, UInt32.toNat_xor, UInt32.toNat_add, UInt32.toNat_xor, same hx, same hy]

end Framebuffer

namespace Screen

variable {failEvery : Option UInt64} {t : List Entry} {s : Screen}

theorem Remembers.toNat_tick (h : Remembers failEvery t s.core) :
    (s.core.frame + 1).toUInt32.toNat = (framesSince t + 1) % UInt32.size := by
  rw [h.frame_add_one, UInt64.toUInt32_ofNat']
  exact UInt32.toNat_ofNat'

theorem Remembers.shows (h : Remembers failEvery t s.core) :
    (s.framebuffer.paint s.core.size (SoftwareCore.color s.core.seed
      (s.core.frame + 1).toUInt32)).Shows (lastSize t) (lastSeed t)
        ((framesSince t + 1) % UInt32.size) := by
  rw [← h.size, ← h.seed]
  refine ⟨rfl, Framebuffer.size_paint, fun x y inside above => ?_⟩
  refine ⟨_, Framebuffer.pixel_paint inside above, ?_⟩
  rw [Framebuffer.toNat_color (Nat.lt_trans inside s.core.size.width.toNat_lt_size)
    (Nat.lt_trans above s.core.size.height.toNat_lt_size), h.toNat_tick]

/-- Each frame that is drawn shows the pattern of its size, its seed and its number since the last
ROM, and nothing else; a frame that fails leaves the picture as it was. -/
theorem picture_decided_by_size_seed_and_number {s₀ : Screen} (period : failEvery ≠ some 0)
    (run : machine.Run (s₀.create failEvery).2 t s) :
    ∀ before e after, t = before ++ e :: after → e.move = .frame →
      (e.answer = .ok () → 1 ≤ (lastSize before).width →
        ∀ fb : Framebuffer, fb = e.after.framebuffer ↔
          fb.Shows (lastSize before) (lastSeed before)
            (framesSince (before ++ [e]) % UInt32.size)) ∧
      (e.answer ≠ .ok () → e.after.framebuffer = e.before.framebuffer) := by
  rintro before e after rfl frame
  obtain ⟨kept, answer, left⟩ := Remembers.at_frame (core_create period s₀) run frame
  rw [left, framebuffer_runFrame, answer]
  constructor
  · intro taken _ fb
    rw [if_pos (CoreOutcome.accepted_iff.2 taken), framesSince_concat_frame frame]
    constructor
    · rintro rfl
      exact kept.shows
    · exact fun shows => shows.unique kept.shows
  · intro failed
    exact if_neg fun taken => failed (CoreOutcome.accepted_iff.1 taken)

theorem picture_of_a_rom_outlives_a_failure :
    ∃ t s, machine.Run (({ framebuffer := ⟨⟨1, 3⟩, #[9, 9, 9]⟩ } : Screen).create (some 2)).2 t s ∧
      t.map (·.move.isFrame) = [false, true, false, false, true, true] ∧
      s.framebuffer.Shows ⟨2, 1⟩ (Sha1.littleEndian ((Sha1.digest ⟨#[1]⟩).bytes.take 4)) 1 := by
  obtain ⟨t, s, drawn, failed, ran, moves, cut, asked, taken, size, seed, number, cut', asked',
      refused, same, last⟩ :
      ∃ t s drawn failed,
        machine.run? [.resize ⟨2, 2⟩, .frame, .load (fun _ => .ok ⟨#[1]⟩) ⟨[]⟩, .resize ⟨2, 1⟩,
          .frame, .frame] (({ framebuffer := ⟨⟨1, 3⟩, #[9, 9, 9]⟩ } : Screen).create (some 2)).2 =
            some (t, s) ∧
        t.map (·.move.isFrame) = [false, true, false, false, true, true] ∧
        t = t.take 4 ++ drawn :: [failed] ∧ drawn.move = .frame ∧ drawn.answer = .ok () ∧
        lastSize (t.take 4) = ⟨2, 1⟩ ∧
        lastSeed (t.take 4) = Sha1.littleEndian ((Sha1.digest ⟨#[1]⟩).bytes.take 4) ∧
        framesSince (t.take 4 ++ [drawn]) = 1 ∧
        t = t.take 5 ++ failed :: [] ∧ failed.move = .frame ∧ failed.answer.accepted = false ∧
        failed.before = drawn.after ∧ s = failed.after :=
    ⟨_, _, _, _, rfl, rfl, rfl, rfl, rfl, rfl, rfl, rfl, rfl, rfl, rfl, rfl, rfl⟩
  have run := Machine.Run.of_run? ran
  have decided := picture_decided_by_size_seed_and_number (by decide) run
  obtain ⟨shows, -⟩ := decided _ drawn _ cut asked
  obtain ⟨-, left⟩ := decided _ failed _ cut' asked'
  refine ⟨t, s, run, moves, ?_⟩
  rw [size, seed, number] at shows
  rw [last, left (fun ok => by rw [ok] at refused; cases refused), same]
  exact (shows taken (by decide) _).1 rfl

end Screen

end EmulatorHost
