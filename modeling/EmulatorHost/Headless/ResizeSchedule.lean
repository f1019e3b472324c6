import EmulatorHost.Size

/-! The resizes are spread evenly over a headless run, and each is meant to be rendered before the
next one is applied. -/

namespace EmulatorHost.Headless

structure ResizeSchedule where
  target : UInt64
  resizes : List Size
  applied : Nat := 0
  /-- The last size has been rendered once the frame count has got here. -/
  settledAt : Nat
  deriving DecidableEq, Repr

inductive Decision where
  | apply (size : Size)
  | finish
  | wait
  deriving DecidableEq, Repr

namespace ResizeSchedule

/-- The next resize's part of the target, times the number of parts, as a word. -/
def share (s : ResizeSchedule) : UInt64 := s.target * (s.applied.toUInt64 + 1)

def threshold (s : ResizeSchedule) : UInt64 := s.share / (s.resizes.length.toUInt64 + 1)

/-- A size reaches the core before the frame after the one in flight. -/
def settle (frames : Nat) : Nat := frames + 2

def decide (frames : Nat) (s : ResizeSchedule) : Decision :=
  match s.resizes[s.applied]? with
  | some size =>
    if s.settledAt ≤ frames ∧ s.threshold.toNat ≤ frames then .apply size else .wait
  | none => if s.target.toNat ≤ frames ∧ s.settledAt ≤ frames then .finish else .wait

def poll (frames : Nat) (s : ResizeSchedule) : Decision × ResizeSchedule :=
  match s.decide frames with
  | .apply size => (.apply size, { s with applied := s.applied + 1, settledAt := settle frames })
  | d => (d, s)

/-- A run keeps its counts as words. -/
def wrap (s : ResizeSchedule) : ResizeSchedule :=
  { s with settledAt := s.settledAt % UInt64.size }

section Wrap

variable (s : ResizeSchedule)

@[simp] theorem target_wrap : s.wrap.target = s.target := rfl

@[simp] theorem resizes_wrap : s.wrap.resizes = s.resizes := rfl

@[simp] theorem applied_wrap : s.wrap.applied = s.applied := rfl

@[simp] theorem settledAt_wrap : s.wrap.settledAt = s.settledAt % UInt64.size := rfl

theorem wrap_eq (small : s.settledAt < UInt64.size) : s.wrap = s := by
  rw [wrap, Nat.mod_eq_of_lt small]

end Wrap

end ResizeSchedule

end EmulatorHost.Headless
