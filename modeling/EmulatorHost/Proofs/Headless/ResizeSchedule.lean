import EmulatorHost.Headless.Options
import EmulatorHost.Headless.ResizeSchedule
import EmulatorHost.Proofs.Machine
import Mathlib.Data.List.TakeDrop
import Mathlib.Data.Nat.Find
import Mathlib.Order.Monotone.Defs

namespace EmulatorHost.Headless

def Decision.size? : Decision → Option Size
  | .apply size => some size
  | _ => none

def Decision.isFinish : Decision → Bool
  | .finish => true
  | _ => false

namespace ResizeSchedule

variable {s : ResizeSchedule} {n first : Nat} {z : Size} {o : Options}

theorem decide_eq_apply : s.decide n = .apply z ↔
    s.resizes[s.applied]? = some z ∧ s.settledAt ≤ n ∧ s.threshold.toNat ≤ n := by
  unfold decide
  cases s.resizes[s.applied]? with
  | none => dsimp only; split <;> simp
  | some size => dsimp only; split <;> simp [*]

theorem decide_eq_finish : s.decide n = .finish ↔
    s.resizes.length ≤ s.applied ∧ s.target.toNat ≤ n ∧ s.settledAt ≤ n := by
  unfold decide
  rw [← List.getElem?_eq_none_iff]
  cases s.resizes[s.applied]? with
  | none => dsimp only; split <;> simp [*]
  | some size => dsimp only; split <;> simp

theorem share_le (more : s.applied < s.resizes.length) :
    s.target.toNat * (s.applied + 1) ≤ s.target.toNat * s.resizes.length :=
  Nat.mul_le_mul_left _ more

theorem length_le_of_pos (wanted : 0 < s.target.toNat) :
    s.resizes.length ≤ s.target.toNat * s.resizes.length :=
  Nat.le_mul_of_pos_left _ wanted

theorem toNat_share (s : ResizeSchedule) :
    s.share.toNat = s.target.toNat * (s.applied + 1) % UInt64.size := by
  simp [share, UInt64.size]

theorem share_toNat (fits : s.target.toNat * s.resizes.length < UInt64.size)
    (more : s.applied < s.resizes.length) :
    s.share.toNat = s.target.toNat * (s.applied + 1) := by
  rw [toNat_share]
  exact Nat.mod_eq_of_lt (Nat.lt_of_le_of_lt (share_le more) fits)

theorem toNat_threshold (parts : s.resizes.length + 1 < UInt64.size) :
    s.threshold.toNat = s.share.toNat / (s.resizes.length + 1) := by
  have count : (s.resizes.length.toUInt64 + 1).toNat = s.resizes.length + 1 := by
    simp only [UInt64.toNat_add, UInt64.toNat_one, Nat.toUInt64_eq, UInt64.toNat_ofNat',
      Nat.mod_add_mod]
    exact Nat.mod_eq_of_lt parts
  rw [threshold, UInt64.toNat_div, count]

/-- The number of parts may be one too many for a word. Then the threshold is zero, as it is meant
to be, since the target is smaller than that. -/
theorem threshold_toNat (fits : s.target.toNat * s.resizes.length < UInt64.size)
    (more : s.applied < s.resizes.length) :
    s.threshold.toNat = s.target.toNat * (s.applied + 1) / (s.resizes.length + 1) := by
  rcases Nat.eq_zero_or_pos s.target.toNat with none | wanted
  · simp [threshold, UInt64.toNat_div, share_toNat fits more, none]
  · have least := share_le more
    have count := length_le_of_pos wanted
    rcases Nat.lt_or_ge (s.resizes.length + 1) UInt64.size with parts | parts
    · rw [toNat_threshold parts, share_toNat fits more]
    · simp only [UInt64.size] at fits parts
      have all : s.resizes.length + 1 = 18446744073709551616 := by omega
      have zero : (s.resizes.length.toUInt64 + 1).toNat = 0 := by
        simp [all, Nat.toUInt64_eq]
      rw [threshold, UInt64.toNat_div, zero, Nat.div_zero, Nat.div_eq_of_lt (by omega)]

theorem answer_poll (s : ResizeSchedule) (n : Nat) : (s.poll n).1 = s.decide n := by
  unfold poll
  split <;> simp [*]

structure Loop where
  schedule : ResizeSchedule
  finished : Bool := false

def loop : Machine Loop Nat Decision Empty where
  allows x _ := !x.finished
  perform frames x :=
    ((x.schedule.poll frames).1, [],
      ⟨(x.schedule.poll frames).2, (x.schedule.decide frames).isFinish⟩)

abbrev Poll := Episode Loop Nat Decision Empty

def opened (o : Options) (first : Nat) : Loop where
  schedule :=
    { target := o.frames, resizes := o.resizes, settledAt := settle first }

section Episodes

variable (s)

theorem episode_of_apply (h : s.decide n = .apply z) : loop.episode n ⟨s, false⟩ =
    ⟨⟨s, false⟩, n, .apply z, [],
      ⟨{ s with applied := s.applied + 1, settledAt := settle n }, false⟩⟩ := by
  simp [Machine.episode, loop, poll, h, Decision.isFinish]

theorem episode_of_finish (h : s.decide n = .finish) :
    loop.episode n ⟨s, false⟩ = ⟨⟨s, false⟩, n, .finish, [], ⟨s, true⟩⟩ := by
  simp [Machine.episode, loop, poll, h, Decision.isFinish]

theorem episode_of_wait (h : s.decide n = .wait) :
    loop.episode n ⟨s, false⟩ = ⟨⟨s, false⟩, n, .wait, [], ⟨s, false⟩⟩ := by
  simp [Machine.episode, loop, poll, h, Decision.isFinish]

end Episodes

def sizes (t : List Poll) : List Size := t.filterMap (·.answer.size?)

theorem sizes_concat (t : List Poll) (e : Poll) :
    sizes (t ++ [e]) = sizes t ++ e.answer.size?.toList := by
  cases h : e.answer.size? <;> simp [sizes, h]

/-- The count at which a size was applied last. At first it is the one read in the opening. -/
def lastChange (first : Nat) (t : List Poll) : Nat :=
  (t.filterMap fun e => e.answer.size?.map fun _ => e.move).getLast?.getD first

structure Follows (o : Options) (first : Nat) (t : List Poll) (s : ResizeSchedule) : Prop where
  target : s.target = o.frames
  resizes : s.resizes = o.resizes
  applied : s.applied = (sizes t).length
  settledAt : s.settledAt = settle (lastChange first t)
  inOrder : sizes t = o.resizes.take s.applied

namespace Follows

variable {t : List Poll} {e : Poll} {x : Loop}

theorem quiet (h : Follows o first t s) (unchanged : e.answer.size? = none) :
    Follows o first (t ++ [e]) s := by
  have same : sizes (t ++ [e]) = sizes t := by simp [sizes_concat, unchanged]
  refine ⟨h.target, h.resizes, h.applied.trans (by rw [same]), ?_, same.trans h.inOrder⟩
  rw [h.settledAt, lastChange, lastChange, List.filterMap_append]
  simp [unchanged]

theorem apply (h : Follows o first t s) (hd : s.decide n = .apply z) (changes : e.answer = .apply z)
    (polled : e.move = n) :
    Follows o first (t ++ [e]) { s with applied := s.applied + 1, settledAt := settle n } := by
  have more : sizes (t ++ [e]) = sizes t ++ [z] := by
    simp [sizes_concat, changes, Decision.size?]
  obtain ⟨next, -⟩ := decide_eq_apply.1 hd
  rw [h.resizes] at next
  refine ⟨h.target, h.resizes, ?_, ?_, ?_⟩
  · simp [more, h.applied]
  · simp [lastChange, changes, Decision.size?, polled]
  · rw [more, List.take_add_one, next, h.inOrder]
    rfl

theorem of_run (run : loop.Run (opened o first) t x) : Follows o first t x.schedule := by
  induction run with
  | start => exact ⟨rfl, rfl, rfl, rfl, rfl⟩
  | @next t x n _ allowed ih =>
    obtain ⟨s, finished⟩ := x
    obtain rfl : finished = false := by simpa [loop] using allowed
    cases hd : s.decide n with
    | apply z =>
      rw [episode_of_apply s hd]
      exact ih.apply hd rfl rfl
    | finish =>
      rw [episode_of_finish s hd]
      exact ih.quiet rfl
    | wait =>
      rw [episode_of_wait s hd]
      exact ih.quiet rfl

theorem applies_iff (h : Follows o first t s)
    (fits : o.frames.toNat * o.resizes.length < UInt64.size) : s.decide n = .apply z ↔
      o.resizes[(sizes t).length]? = some z ∧ lastChange first t + 2 ≤ n ∧
        o.frames.toNat * ((sizes t).length + 1) / (o.resizes.length + 1) ≤ n := by
  rw [decide_eq_apply, h.settledAt, settle, h.resizes, ← h.applied]
  refine and_congr_right fun next => and_congr_right fun _ => ?_
  have more := (List.getElem?_eq_some_iff.1 next).1
  rw [← h.resizes, ← h.target] at fits
  rw [← h.resizes] at more
  rw [threshold_toNat fits more, h.resizes, h.target]

theorem finishes_iff (h : Follows o first t s) : s.decide n = .finish ↔
    sizes t = o.resizes ∧ o.frames.toNat ≤ n ∧ lastChange first t + 2 ≤ n := by
  rw [decide_eq_finish, h.settledAt, settle, h.target, h.resizes, h.inOrder, List.take_eq_self_iff]

end Follows

section Ending

variable {counts : Nat → Nat}

theorem run_of_waits {k : Nat} (waits : ∀ i < k, s.decide (counts i) = .wait) :
    ∃ t, loop.Run ⟨s, false⟩ t ⟨s, false⟩ ∧ t.map (·.move) = (List.range k).map counts := by
  induction k with
  | zero => exact ⟨[], .start, rfl⟩
  | succ k ih =>
    obtain ⟨t, run, polled⟩ := ih fun i hi => waits i (Nat.lt_succ_of_lt hi)
    have last := run.next (counts k) rfl
    rw [episode_of_wait s (waits k (Nat.lt_succ_self k))] at last
    exact ⟨_, last, by simp [polled, List.range_succ]⟩

theorem exists_ne_wait (unbounded : ∀ bound, ∃ i, bound ≤ counts i) (s : ResizeSchedule) :
    ∃ i, s.decide (counts i) ≠ .wait := by
  obtain ⟨i, large⟩ := unbounded (s.settledAt + s.threshold.toNat + s.target.toNat)
  refine ⟨i, fun waits => ?_⟩
  cases next : s.resizes[s.applied]? with
  | some z =>
    rw [decide_eq_apply.2 ⟨next, by omega, by omega⟩] at waits
    cases waits
  | none =>
    rw [decide_eq_finish.2 ⟨List.getElem?_eq_none_iff.1 next, by omega, by omega⟩] at waits
    cases waits

/-- Each time the schedule goes on, there is one resize less to be applied. -/
theorem ends (grows : Monotone counts) (unbounded : ∀ bound, ∃ i, bound ≤ counts i)
    (s : ResizeSchedule) :
    ∃ k t s', loop.Run ⟨s, false⟩ t ⟨s', true⟩ ∧ t.map (·.move) = (List.range k).map counts := by
  generalize left : s.resizes.length - s.applied = n
  induction n using Nat.strongRecOn generalizing s counts with
  | ind n ih =>
    have go := exists_ne_wait unbounded s
    generalize hi : Nat.find go = i
    obtain ⟨t, run, polled⟩ := run_of_waits (k := i) fun j hj =>
      Classical.not_not.1 (Nat.find_min go (hi ▸ hj))
    have goes : s.decide (counts i) ≠ .wait := hi ▸ Nat.find_spec go
    have next := run.next (counts i) rfl
    cases hd : s.decide (counts i) with
    | wait => exact absurd hd goes
    | finish =>
      rw [episode_of_finish s hd] at next
      exact ⟨i + 1, _, s, next, by simp [polled, List.range_succ]⟩
    | apply z =>
      rw [episode_of_apply s hd] at next
      obtain ⟨more, -⟩ := List.getElem?_eq_some_iff.1 (decide_eq_apply.1 hd).1
      have grows' : Monotone fun j => counts (i + 1 + j) := fun j k le =>
        grows (Nat.add_le_add_left le _)
      have unbounded' (bound : Nat) : ∃ j, bound ≤ counts (i + 1 + j) := by
        obtain ⟨j, large⟩ := unbounded bound
        exact ⟨j, Nat.le_trans large (grows (Nat.le_add_left j (i + 1)))⟩
      have less : s.resizes.length - (s.applied + 1) < n := by omega
      obtain ⟨k, u, s', later, polled'⟩ := ih _ less grows' unbounded'
        { s with applied := s.applied + 1, settledAt := settle (counts i) } rfl
      refine ⟨i + 1 + k, _, s', next.trans later, ?_⟩
      simp [polled, polled', List.range_add, List.range_succ]

end Ending

end ResizeSchedule

end EmulatorHost.Headless
