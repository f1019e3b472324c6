import EmulatorHost.Proofs.Headless.Readings
import Mathlib.Order.Monotone.Basic

/-! The schedule works out the shares of its target as words. One that does not fit is cut, and then
its resize may come before its time. -/

namespace EmulatorHost.Headless

namespace ResizeSchedule

variable {s : ResizeSchedule} {o : Options} {first n k : Nat} {t : List Poll} {x : Loop} {z : Size}

def IsExact (s : ResizeSchedule) : Prop := s.share.toNat = s.target.toNat * (s.applied + 1)

theorem isExact_iff : s.IsExact ↔ s.target.toNat * (s.applied + 1) < UInt64.size := by
  rw [IsExact, toNat_share]
  exact ⟨fun same => same ▸ Nat.mod_lt _ (by decide), Nat.mod_eq_of_lt⟩

def Weighs (n : Nat) (s : ResizeSchedule) : Prop := s.applied < s.resizes.length ∧ s.settledAt ≤ n

instance : Decidable (s.Weighs n) := inferInstanceAs (Decidable (_ ∧ _))

instance : Decidable s.IsExact := inferInstanceAs (Decidable (_ = _))

theorem weighs_of_apply (h : s.decide n = .apply z) : s.Weighs n := by
  obtain ⟨next, settled, -⟩ := decide_eq_apply.1 h
  exact ⟨(List.getElem?_eq_some_iff.1 next).1, settled⟩

structure Meets (o : Options) (first : Nat) (counts : List Nat) (n : Nat) (s : ResizeSchedule) :
    Prop where
  run : ∃ t, loop.Run (opened o first) t ⟨s, false⟩ ∧ t.map (·.move) = counts
  steady : Steady (first :: (counts ++ [n]))

/-- Either the last share fits, or the counts are used up before there is one that does not. -/
def Fits (o : Options) : Prop :=
  o.frames.toNat * o.resizes.length < UInt64.size ∨ o.frames.toNat ≤ 2

theorem two_each (run : loop.Run (opened o first) t x) :
    first + 2 * (x.schedule.applied + 1) ≤ x.schedule.settledAt := by
  induction run with
  | start => exact Nat.le_refl _
  | @next t x n _ allowed ih =>
    obtain ⟨s, finished⟩ := x
    obtain rfl : finished = false := by simpa [loop] using allowed
    cases hd : s.decide n with
    | apply z =>
      obtain ⟨-, settled, -⟩ := decide_eq_apply.1 hd
      rw [episode_of_apply s hd]
      simp only [settle] at ih ⊢
      omega
    | finish => rwa [episode_of_finish s hd]
    | wait => rwa [episode_of_wait s hd]

section Fitting

variable (fits : Fits o)

include fits

theorem isExact_of_fits (run : loop.Run (opened o first) t x) (small : n + 2 < UInt64.size)
    (weighs : x.schedule.Weighs n) : x.schedule.IsExact := by
  obtain ⟨more, settled⟩ := weighs
  have follows := Follows.of_run run
  rw [isExact_iff, follows.target]
  rcases fits with last | few
  · rw [follows.resizes] at more
    exact Nat.lt_of_le_of_lt (Nat.mul_le_mul_left _ more) last
  · have moved := two_each run
    calc o.frames.toNat * (x.schedule.applied + 1)
      _ ≤ 2 * (x.schedule.applied + 1) := Nat.mul_le_mul_right _ few
      _ < UInt64.size := by omega

theorem share_le_of_apply (run : loop.Run (opened o first) t x)
    (h : x.schedule.decide n = .apply z) :
    o.frames.toNat * (x.schedule.applied + 1) / (o.resizes.length + 1) ≤ n := by
  have follows := Follows.of_run run
  rcases fits with last | few
  · rw [follows.applied]
    exact ((follows.applies_iff last).1 h).2.2
  · obtain ⟨more, settled⟩ := weighs_of_apply h
    have moved := two_each run
    rw [follows.resizes] at more
    calc o.frames.toNat * (x.schedule.applied + 1) / (o.resizes.length + 1)
      _ ≤ o.frames.toNat * (o.resizes.length + 1) / (o.resizes.length + 1) :=
        Nat.div_le_div_right (Nat.mul_le_mul_left _ (Nat.succ_le_succ (Nat.le_of_lt more)))
      _ = o.frames.toNat := Nat.mul_div_cancel _ (Nat.succ_pos _)
      _ ≤ n := by omega

end Fitting

section Overflow

variable {counts : Nat → Nat}

def applying (o : Options) (counts : Nat → Nat) (k : Nat) : ResizeSchedule where
  target := o.frames
  resizes := o.resizes
  applied := k
  settledAt := settle (counts k)

theorem run_applying (apart : ∀ i, counts i + 2 ≤ counts (i + 1))
    (due : ∀ i < k, (applying o counts i).threshold.toNat ≤ counts (i + 1))
    (present : k ≤ o.resizes.length) :
    ∃ t, loop.Run (opened o (counts 0)) t ⟨applying o counts k, false⟩ ∧
      t.map (·.move) = (List.range k).map fun i => counts (i + 1) := by
  induction k with
  | zero => exact ⟨[], .start, rfl⟩
  | succ k ih =>
    obtain ⟨t, run, polled⟩ :=
      ih (fun i hi => due i (Nat.lt_succ_of_lt hi)) (Nat.le_of_succ_le present)
    have next : o.resizes[k]? = some o.resizes[k] := List.getElem?_eq_getElem present
    have hd : (applying o counts k).decide (counts (k + 1)) = .apply o.resizes[k] :=
      decide_eq_apply.2 ⟨next, apart k, due k (Nat.lt_succ_self k)⟩
    have last := run.next (counts (k + 1)) rfl
    rw [episode_of_apply _ hd] at last
    exact ⟨_, last, by simp [polled, List.range_succ]⟩

theorem steady_of_apart (apart : ∀ i, counts i + 2 ≤ counts (i + 1))
    (small : counts k + 4 < UInt64.size) :
    Steady (counts 0 :: (((List.range k).map fun i => counts (i + 1)) ++ [counts k + 2])) := by
  have grows : Monotone counts :=
    monotone_nat_of_le_succ fun i => Nat.le_trans (Nat.le_add_right _ 2) (apart i)
  have all : counts 0 :: ((List.range k).map fun i => counts (i + 1)) =
      (List.range (k + 1)).map counts := by
    rw [List.range_succ_eq_map, List.map_cons, List.map_map]
    rfl
  have below {n : Nat} (hn : n ∈ (List.range (k + 1)).map counts) : n ≤ counts k := by
    obtain ⟨i, hi, rfl⟩ := List.mem_map.1 hn
    exact grows (Nat.le_of_lt_succ (List.mem_range.1 hi))
  have earlier : Steady ((List.range (k + 1)).map counts) :=
    ⟨List.pairwise_map.2 (List.pairwise_lt_range.imp fun lt => grows (Nat.le_of_lt lt)),
      fun n hn => by have le := below hn; omega⟩
  rw [← List.cons_append, all]
  exact Steady.concat_iff.2 ⟨earlier, fun n hn => Nat.le_add_right_of_le (below hn), small⟩

structure Overflows (o : Options) (k : Nat) : Prop where
  present : k < o.resizes.length
  before : o.frames.toNat * k < UInt64.size
  exceeds : UInt64.size ≤ o.frames.toNat * (k + 1)

theorem exists_overflows (vast : ¬ Fits o) : ∃ k, Overflows o k := by
  obtain ⟨large, many⟩ := not_or.1 vast
  have wanted : 0 < o.frames.toNat := by omega
  let k := (UInt64.size - 1) / o.frames.toNat
  have before : o.frames.toNat * k ≤ UInt64.size - 1 := Nat.mul_div_le _ _
  have exceeds : UInt64.size - 1 < o.frames.toNat * (k + 1) := Nat.lt_mul_div_succ _ wanted
  have size : 0 < UInt64.size := by decide
  refine ⟨k, ?_, by omega, by omega⟩
  exact Nat.lt_of_mul_lt_mul_left (a := o.frames.toNat) (by omega)

namespace Overflows

variable (h : Overflows o k)

include h

theorem meets (parts : o.resizes.length + 1 < UInt64.size)
    (apart : ∀ i, counts i + 2 ≤ counts (i + 1))
    (due : ∀ i < k, o.frames.toNat * (i + 1) / (o.resizes.length + 1) ≤ counts (i + 1))
    (small : counts k + 4 < UInt64.size) :
    Meets o (counts 0) ((List.range k).map fun i => counts (i + 1)) (counts k + 2)
      (applying o counts k) := by
  refine ⟨run_applying apart (fun i hi => ?_) (Nat.le_of_lt h.present), steady_of_apart apart small⟩
  have exact : (applying o counts i).IsExact :=
    isExact_iff.2 (Nat.lt_of_le_of_lt (Nat.mul_le_mul_left _ hi) h.before)
  rw [toNat_threshold parts, exact]
  exact due i hi

theorem pos : 0 < k := by
  refine Nat.pos_of_ne_zero fun none => ?_
  have exceeds := h.exceeds
  rw [none, Nat.zero_add, Nat.mul_one] at exceeds
  exact Nat.not_lt_of_le exceeds o.frames.toNat_lt_size

theorem weighs : (applying o counts k).Weighs (counts k + 2) := ⟨h.present, Nat.le_refl _⟩

theorem not_isExact : ¬ (applying o counts k).IsExact := fun exact =>
  Nat.not_lt_of_le h.exceeds (isExact_iff.1 exact)

theorem share_le : (applying o counts k).share.toNat ≤ o.frames.toNat * k := by
  have word := o.frames.toNat_lt_size
  rw [toNat_share]
  calc o.frames.toNat * (k + 1) % UInt64.size
    _ = (o.frames.toNat * (k + 1) - UInt64.size) % UInt64.size := Nat.mod_eq_sub_mod h.exceeds
    _ ≤ o.frames.toNat * (k + 1) - UInt64.size := Nat.mod_le _ _
    _ ≤ o.frames.toNat * k := by
      rw [Nat.mul_succ]
      omega

theorem small (many : 2 < o.frames.toNat) :
    o.frames.toNat * k / (o.resizes.length + 1) + 2 * k + 4 < UInt64.size := by
  have second := h.pos
  have more := h.present
  have before := h.before
  simp only [UInt64.size] at before ⊢
  generalize hb : o.frames.toNat * k / (o.resizes.length + 1) = b
  have most : b * (o.resizes.length + 1) ≤ o.frames.toNat * k := hb ▸ Nat.div_mul_le_self _ _
  have thrice : 3 * k ≤ o.frames.toNat * k := Nat.mul_le_mul_right k many
  rcases Nat.lt_or_ge 3 o.frames.toNat with four | three
  · have fourfold : 4 * k ≤ o.frames.toNat * k := Nat.mul_le_mul_right k four
    have third : b * 3 ≤ b * (o.resizes.length + 1) := Nat.mul_le_mul_left b (by omega)
    omega
  · -- nearly all counts are used up, but the shares are small then
    have exactly : o.frames.toNat = 3 := Nat.le_antisymm three many
    rw [exactly] at most before
    have few : b < 3 := Nat.lt_of_mul_lt_mul_right (a := o.resizes.length + 1) (by omega)
    omega

end Overflows

theorem exists_inexact (vast : ¬ Fits o) (parts : o.resizes.length + 1 < UInt64.size) :
    ∃ first counts n s, Meets o first counts n s ∧ s.Weighs n ∧ ¬ s.IsExact := by
  obtain ⟨k, h⟩ := exists_overflows vast
  obtain ⟨-, many⟩ := not_or.1 vast
  let counts (i : Nat) : Nat := o.frames.toNat * k / (o.resizes.length + 1) + 2 * i
  have due : ∀ i < k, o.frames.toNat * (i + 1) / (o.resizes.length + 1) ≤ counts (i + 1) :=
    fun i hi => Nat.le_trans (Nat.div_le_div_right (Nat.mul_le_mul_left _ hi))
      (Nat.le_add_right _ _)
  have meets := h.meets parts (fun i => Nat.le_refl (counts (i + 1))) due
    (h.small (Nat.lt_of_not_le many))
  exact ⟨_, _, _, _, meets, h.weighs, h.not_isExact⟩

theorem exists_early (vast : ¬ Fits o)
    (spread : 3 * (o.resizes.length + 1) ≤ o.frames.toNat) :
    ∃ first counts n s z, Meets o first counts n s ∧ s.decide n = .apply z ∧
      n < o.frames.toNat * (s.applied + 1) / (o.resizes.length + 1) := by
  obtain ⟨k, h⟩ := exists_overflows vast
  have word := o.frames.toNat_lt_size
  have parts : o.resizes.length + 1 < UInt64.size := by omega
  let counts (i : Nat) : Nat := o.frames.toNat * i / (o.resizes.length + 1)
  have step (i : Nat) : counts i + 3 ≤ counts (i + 1) := by
    calc counts i + 3
      _ = (o.frames.toNat * i + 3 * (o.resizes.length + 1)) / (o.resizes.length + 1) :=
        (Nat.add_mul_div_right _ _ (Nat.succ_pos _)).symm
      _ ≤ counts (i + 1) := Nat.div_le_div_right (Nat.add_le_add_left spread _)
  have small : counts k + 4 < UInt64.size := by
    have room := h.small (by omega)
    simp only [counts]
    omega
  have present := h.present
  refine ⟨_, _, _, _, o.resizes[k],
    h.meets parts (fun i => by have := step i; omega) (fun i _ => Nat.le_refl _) small,
    decide_eq_apply.2 ⟨List.getElem?_eq_getElem h.present, Nat.le_refl _, ?_⟩, ?_⟩
  · rw [toNat_threshold parts]
    exact Nat.le_trans (Nat.div_le_div_right h.share_le) (Nat.le_add_right _ 2)
  · exact step k

end Overflow

end ResizeSchedule

namespace App

open ResizeSchedule (Fits Meets opened loop)

variable {ω : Type} {v : Venue ω} {a : App ω} {t : List (Entry ω)} {o : Options} {w : ω} {n : Nat}

theorem meets_of_run (run : (machine v).Run (start o w) t a) (hs : a.scene = .deciding n) :
    ∃ first, (∃ m ∈ t, Marks first m) ∧
      (Steady (first :: ((polled t).map Prod.fst ++ [n])) →
        Meets o first ((polled t).map Prod.fst) n a.schedule) := by
  rcases scheduled_of_run run with h | ⟨first, h⟩
  · rcases h.scene with ⟨early | early, -⟩ | ⟨r, ended⟩
    · cases hs.symm.trans early.1
    · cases hs.symm.trans early.1
    · cases hs.symm.trans ended
  · refine ⟨first, h.marked, fun steady => ?_⟩
    have small : ∀ k ∈ readings t, k + 2 < UInt64.size := fun k hk =>
      steady.fits k (by
        rw [h.readings] at hk
        rw [← List.cons_append]
        exact List.mem_append_left _ hk)
    obtain ⟨u, polled, -, x, run, same⟩ := h.loops small
    obtain rfl := same (by rw [hs]; rfl)
    have counts : (App.polled t).map Prod.fst = u.map (·.move) := by
      rw [polled, List.map_map]
      rfl
    exact ⟨⟨u, run, counts.symm⟩, steady⟩

theorem run_of_meets (read : Path → Except String ByteArray) {first : Nat} {counts : List Nat}
    {s : ResizeSchedule} (visible : o.Visible) (never : o.failEvery = none)
    (meets : Meets o first counts n s) :
    ∃ t a, (machine (Stage.venue read o.failEvery)).Run (start o {}) t a ∧
      a.scene = .deciding n ∧ a.schedule = s ∧ (∃ m ∈ t, Marks first m) ∧
        (polled t).map Prod.fst = counts := by
  obtain ⟨⟨u, run, rfl⟩, steady⟩ := meets
  obtain ⟨t, a, run, hs, schedule, marked, polled⟩ :=
    exists_deciding read visible never run rfl steady
  refine ⟨t, a, run, hs, schedule, marked, ?_⟩
  rw [polled, List.map_map]
  rfl

/-- The shares are exact in all that a run can come to, whatever counts it reads, if the last one
fits a word. Then no resize comes before its time. If the last one does not fit, then the interface
can come to decide by one that was cut, unless so few frames are wanted that the counts do not
suffice; and if the resizes are three frames apart at least, then one of them comes before its time.
A headless run meets just such schedules: what it reads is what the schedule is polled with, and
with a core that never fails it can come to read any counts. -/
theorem shares_exact_iff_fitting {o : Options} :
    (Fits o → ∀ first counts n s, Meets o first counts n s →
      (s.Weighs n → s.IsExact) ∧ ∀ z, s.decide n = .apply z →
        o.frames.toNat * (s.applied + 1) / (o.resizes.length + 1) ≤ n) ∧
    (¬ Fits o → o.resizes.length + 1 < UInt64.size →
      (∃ first counts n s, Meets o first counts n s ∧ s.Weighs n ∧ ¬ s.IsExact) ∧
      (3 * (o.resizes.length + 1) ≤ o.frames.toNat →
        ∃ first counts n s z, Meets o first counts n s ∧ s.decide n = .apply z ∧
          n < o.frames.toNat * (s.applied + 1) / (o.resizes.length + 1))) ∧
    (∀ (ω : Type) (v : Venue ω) (w : ω) (t : List (Entry ω)) (a : App ω) (n : Nat),
      (machine v).Run (start o w) t a → a.scene = .deciding n →
        ∃ first, (∃ m ∈ t, Marks first m) ∧
          (Steady (first :: ((polled t).map Prod.fst ++ [n])) →
            Meets o first ((polled t).map Prod.fst) n a.schedule)) ∧
    (o.Visible → o.failEvery = none →
      ∀ (read : Path → Except String ByteArray) (first : Nat) (counts : List Nat) (n : Nat)
        (s : ResizeSchedule), Meets o first counts n s →
        ∃ t a, (machine (Stage.venue read o.failEvery)).Run (start o {}) t a ∧
          a.scene = .deciding n ∧ a.schedule = s ∧ (∃ m ∈ t, Marks first m) ∧
            (polled t).map Prod.fst = counts) := by
  refine ⟨fun fits first counts n s meets => ?_, fun vast parts => ⟨?_, fun spread => ?_⟩,
    fun ω v w t a n run hs => meets_of_run run hs,
    fun visible never read first counts n s meets => run_of_meets read visible never meets⟩
  · obtain ⟨⟨t, run, -⟩, steady⟩ := meets
    have small := steady.fits n (by simp)
    exact ⟨ResizeSchedule.isExact_of_fits fits run small,
      fun z hd => ResizeSchedule.share_le_of_apply fits run hd⟩
  · exact ResizeSchedule.exists_inexact vast parts
  · exact ResizeSchedule.exists_early vast spread

theorem largest_target_shared : ∃ (o : Options) (t : List (Entry Stage)) (a : App Stage),
    Fits o ∧ o.frames.toNat * o.resizes.length + 2 = UInt64.size ∧
      (machine (Stage.venue (fun _ => .error "") o.failEvery)).Run (start o {}) t a ∧
      a.scene = .deciding 6148914691236517204 ∧
      (polled t).map Prod.fst = [3074457345618258602] ∧
      a.schedule.decide 6148914691236517204 = .apply ⟨9, 6⟩ ∧ a.schedule.IsExact ∧
      o.frames.toNat * (a.schedule.applied + 1) / (o.resizes.length + 1) ≤ 6148914691236517204 := by
  let o : Options := { frames := 9223372036854775807, resizes := [⟨8, 6⟩, ⟨9, 6⟩] }
  obtain ⟨u, ⟨s, finished⟩, run, polls, rfl, hd⟩ : ∃ u x, loop.Run (opened o 0) u x ∧
      u.map (·.move) = [3074457345618258602] ∧ x.finished = false ∧
        x.schedule.decide 6148914691236517204 = .apply ⟨9, 6⟩ :=
    Machine.Run.of_decided [3074457345618258602] (by decide +kernel)
  have fits : Fits o := .inl (by decide)
  have visible : o.Visible := ⟨by decide, by decide⟩
  have meets : Meets o 0 [3074457345618258602] 6148914691236517204 s :=
    ⟨⟨u, run, polls⟩, ⟨by decide, by decide⟩⟩
  obtain ⟨exact, -, -, reached⟩ := shares_exact_iff_fitting (o := o)
  obtain ⟨t, a, runs, hs, rfl, -, counts⟩ :=
    reached visible rfl (fun _ => .error "") _ _ _ _ meets
  obtain ⟨whole, due⟩ := exact fits _ _ _ _ meets
  exact ⟨o, t, a, fits, by decide, runs, hs, counts, hd, whole (ResizeSchedule.weighs_of_apply hd),
    due _ hd⟩

/-- One frame more is wanted, and of the second share nothing is left. -/
theorem second_share_cut_to_nothing : ∃ (o : Options) (t : List (Entry Stage)) (a : App Stage),
    CommandLine.parse (["--frames=9223372036854775808", "--resize=8x6", "--resize=9x6"].map
      CommandLine.bytes) = .ok o ∧
      (machine (Stage.venue (fun _ => .error "") o.failEvery)).Run (start o {}) t a ∧
      a.scene = .deciding 3074457345618258604 ∧ (∃ m ∈ t, Marks 0 m) ∧
      Steady (0 :: ((polled t).map Prod.fst ++ [3074457345618258604])) ∧
      a.schedule.Weighs 3074457345618258604 ∧ ¬ a.schedule.IsExact ∧
      a.schedule.decide 3074457345618258604 = .apply ⟨9, 6⟩ ∧
      3074457345618258604 < o.frames.toNat * (a.schedule.applied + 1) / (o.resizes.length + 1) := by
  let o : Options := { frames := 9223372036854775808, resizes := [⟨8, 6⟩, ⟨9, 6⟩] }
  obtain ⟨u, ⟨s, finished⟩, run, polls, rfl, cut, hd, early⟩ : ∃ u x, loop.Run (opened o 0) u x ∧
      u.map (·.move) = [3074457345618258602] ∧ x.finished = false ∧ ¬ x.schedule.IsExact ∧
        x.schedule.decide 3074457345618258604 = .apply ⟨9, 6⟩ ∧
          3074457345618258604 <
            o.frames.toNat * (x.schedule.applied + 1) / (o.resizes.length + 1) :=
    Machine.Run.of_decided [3074457345618258602] (by decide +kernel)
  have visible : o.Visible := ⟨by decide, by decide⟩
  have steady : Steady (0 :: ([3074457345618258602] ++ [3074457345618258604])) :=
    ⟨by decide, by decide⟩
  obtain ⟨t, a, runs, hs, rfl, marked, counts⟩ :=
    run_of_meets (fun _ => .error "") visible rfl ⟨⟨u, run, polls⟩, steady⟩
  rw [← counts] at steady
  exact ⟨o, t, a, rfl, runs, hs, marked, steady, ResizeSchedule.weighs_of_apply hd, cut, hd, early⟩

end App

end EmulatorHost.Headless
