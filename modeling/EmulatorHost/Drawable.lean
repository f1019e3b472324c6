import EmulatorHost.Size

/-! The latest drawable size of the host view. Sizes that arrive between two frames coalesce. -/

namespace EmulatorHost

structure Drawable where
  size : Size := Size.zero
  pending : Bool := false
  deriving DecidableEq, Repr, Inhabited

namespace Drawable

def set (size : Size) (d : Drawable) : Bool × Drawable :=
  if d.size = size then (false, d) else (true, ⟨size, true⟩)

def consume (d : Drawable) : Option Size × Drawable :=
  if d.pending then (some d.size, { d with pending := false }) else (none, d)

/-- Makes a size pending again that the core refused, unless a newer one came since. -/
def restore (size : Size) (d : Drawable) : Drawable :=
  if d.size = size then { d with pending := true } else d

@[simp] theorem size_set (size : Size) (d : Drawable) : (d.set size).2.size = size := by
  unfold set; split <;> simp_all

@[simp] theorem size_consume (d : Drawable) : d.consume.2.size = d.size := by
  unfold consume; split <;> rfl

@[simp] theorem pending_consume (d : Drawable) : d.consume.2.pending = false := by
  unfold consume; split <;> simp_all

@[simp] theorem size_restore (size : Size) (d : Drawable) : (d.restore size).size = d.size := by
  unfold restore; split <;> rfl

end Drawable

end EmulatorHost
