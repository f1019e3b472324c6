import EmulatorHost.Software.Core

namespace EmulatorHost

namespace SoftwareCore

theorem fails_some {n frame : UInt64} : fails (some n) frame = true ↔ n.toNat ∣ frame.toNat := by
  rw [Nat.dvd_iff_mod_eq_zero, ← UInt64.toNat_mod]
  simp [fails, ← UInt64.toNat_inj]

def IsRom (image : Except String ByteArray) (bytes : ByteArray) : Prop :=
  image = .ok bytes ∧ bytes.size ≠ 0

inductive Loads (c : SoftwareCore) (image : Except String ByteArray) :
    CoreOutcome × SoftwareCore → Prop
  | taken {bytes : ByteArray} (rom : IsRom image bytes) :
    Loads c image (.ok (), { c with seed := (Sha1.digest bytes).firstWord, frame := 0 })
  | refused {e : CoreError} (useless : ¬ ∃ bytes, IsRom image bytes) : Loads c image (.error e, c)

variable (image : Except String ByteArray) (c : SoftwareCore)

theorem loads : c.Loads image (c.load image) := by
  unfold load
  cases image with
  | error reason => exact .refused fun ⟨_, rom, _⟩ => nomatch rom
  | ok bytes =>
    by_cases empty : bytes.size = 0
    · simp only [empty, if_true]
      refine .refused ?_
      rintro ⟨_, ⟨⟩, given⟩
      exact given empty
    · simp only [empty, if_false]
      exact .taken ⟨rfl, empty⟩

theorem accepted_load :
    (c.load image).1.accepted = true ↔ ∃ bytes, image = .ok bytes ∧ bytes.size ≠ 0 := by
  have loads := c.loads image
  generalize c.load image = loaded at loads
  cases loads with
  | taken rom => exact iff_of_true rfl ⟨_, rom⟩
  | refused useless => exact iff_of_false nofun useless

theorem failEvery_load : (c.load image).2.failEvery = c.failEvery := by
  have loads := c.loads image
  generalize c.load image = loaded at loads
  cases loads <;> rfl

theorem frame_load : (c.load image).2.frame = c.frame ∨ (c.load image).2.frame = 0 := by
  have loads := c.loads image
  generalize c.load image = loaded at loads
  cases loads with
  | taken => exact .inr rfl
  | refused => exact .inl rfl

end SoftwareCore

namespace Screen

theorem create_eq (failEvery : Option UInt64) (screen : Screen) :
    screen.create failEvery = if failEvery = some 0 then
      (.error (.createFailed "fail-render-every must be at least 1"), screen)
    else (.ok (), { screen with core := { failEvery } }) := by
  by_cases none : failEvery = some 0 <;> simp [create, SoftwareCore.create, none]

theorem core_create {failEvery : Option UInt64} (period : failEvery ≠ some 0) (screen : Screen) :
    (screen.create failEvery).2.core = { failEvery } := by
  rw [create_eq, if_neg period]

theorem core_runFrame (s : Screen) :
    s.runFrame.2.core = { s.core with frame := s.core.frame + 1 } := by
  unfold runFrame SoftwareCore.drawFrame
  by_cases fails : SoftwareCore.fails s.core.failEvery (s.core.frame + 1) = true
  · simp [fails]
  · by_cases none : s.core.size.width = 0 <;> simp [fails, none]

theorem accepted_runFrame (s : Screen) :
    s.runFrame.1.accepted = !SoftwareCore.fails s.core.failEvery (s.core.frame + 1) := by
  unfold runFrame SoftwareCore.drawFrame
  by_cases fails : SoftwareCore.fails s.core.failEvery (s.core.frame + 1) = true
  · simp [fails, CoreOutcome.accepted]
  · by_cases none : s.core.size.width = 0 <;> simp [fails, none, CoreOutcome.accepted]

theorem framebuffer_runFrame (s : Screen) : s.runFrame.2.framebuffer =
    if s.runFrame.1.accepted then
      s.framebuffer.paint s.core.size
        (SoftwareCore.color s.core.seed (s.core.frame + 1).toUInt32)
    else s.framebuffer := by
  unfold runFrame SoftwareCore.drawFrame
  by_cases fails : SoftwareCore.fails s.core.failEvery (s.core.frame + 1) = true
  · simp [fails, CoreOutcome.accepted]
  · by_cases none : s.core.size.width = 0 <;> simp [fails, none, CoreOutcome.accepted]

theorem crashed_runFrame (s : Screen) (columns : s.core.size.width ≠ 0) :
    s.runFrame.2.crashed = s.crashed := by
  unfold runFrame SoftwareCore.drawFrame
  by_cases fails : SoftwareCore.fails s.core.failEvery (s.core.frame + 1) = true
  · simp [fails]
  · simp [fails, columns]

end Screen

end EmulatorHost
