import EmulatorHost.Proofs.Headless.Arguments
import Mathlib.Data.List.Induction

namespace EmulatorHost.Headless

def given (xs : List Setting) (k : OptionName) : List Setting := xs.filter (·.name = k)

def Compatible (xs : List Setting) : Prop := ∀ k, k.repeats = false → (given xs k).length ≤ 1

section Given

variable {xs ys : List Setting} {x : Setting} {k : OptionName}

@[simp] theorem given_append : given (xs ++ ys) k = given xs k ++ given ys k :=
  List.filter_append ..

@[simp] theorem given_singleton : given [x] k = if x.name = k then [x] else [] := by
  by_cases same : x.name = k <;> simp [given, same]

theorem mem_given : x ∈ given xs k ↔ x ∈ xs ∧ x.name = k := by simp [given]

theorem Compatible.left (h : Compatible (xs ++ ys)) : Compatible xs := fun k single => by
  have most := h k single
  rw [given_append, List.length_append] at most
  exact Nat.le_trans (Nat.le_add_right ..) most

theorem compatible_concat : Compatible (xs ++ [x]) ↔
    Compatible xs ∧ (x.name.repeats = false → given xs x.name = []) := by
  constructor
  · intro h
    refine ⟨h.left, fun single => List.length_eq_zero_iff.1 ?_⟩
    simpa using h x.name single
  · rintro ⟨h, fresh⟩ k single
    rw [given_append, given_singleton]
    split
    · rename_i same
      subst same
      simp [fresh single]
    · simpa using h k single

end Given

namespace Options

variable {o o' : Options} {xs : List Setting} {x : Setting} {k : OptionName}

def occurrences (o : Options) : OptionName → List Setting
  | .rom => o.roms.map .rom
  | .frames => [.frames o.frames]
  | .rate => o.rate.toList.map .rate
  | .size => [.size o.size]
  | .resize => o.resizes.map .resize
  | .cancelPick => if o.cancelPick then [.cancelPick] else []
  | .failEvery => o.failEvery.toList.map .failEvery
  | .failureLimit => [.failureLimit o.failureLimit]
  | .log => [.log o.log]
  | .logFile => o.logFile.toList.map .logFile
  | .help | .version => []

theorem eq_of_occurrences (same : ∀ k, o.occurrences k = o'.occurrences k) : o = o' := by
  have optional {α : Type} {f : α → Setting} (inj : ∀ a b, f a = f b → a = b) {a b : Option α}
      (listed : a.toList.map f = b.toList.map f) : a = b := by
    simpa using congrArg List.head? ((List.map_inj_right inj).1 listed)
  have roms : o.roms = o'.roms :=
    (List.map_inj_right fun _ _ => Setting.rom.inj).1 (same .rom)
  have resizes : o.resizes = o'.resizes :=
    (List.map_inj_right fun _ _ => Setting.resize.inj).1 (same .resize)
  have frames : o.frames = o'.frames := by simpa [occurrences] using same .frames
  have rate : o.rate = o'.rate := optional (fun _ _ => Setting.rate.inj) (same .rate)
  have size : o.size = o'.size := by simpa [occurrences] using same .size
  have cancelPick : o.cancelPick = o'.cancelPick := by
    have same := same .cancelPick
    cases picks : o.cancelPick <;> cases picks' : o'.cancelPick <;>
      simp [occurrences, picks, picks'] at same ⊢
  have failEvery : o.failEvery = o'.failEvery :=
    optional (fun _ _ => Setting.failEvery.inj) (same .failEvery)
  have failureLimit : o.failureLimit = o'.failureLimit := by
    simpa [occurrences] using same .failureLimit
  have log : o.log = o'.log := by simpa [occurrences] using same .log
  have logFile : o.logFile = o'.logFile := optional (fun _ _ => Setting.logFile.inj) (same .logFile)
  cases o
  cases o'
  rw [Options.mk.injEq]
  exact ⟨roms, frames, rate, size, resizes, cancelPick, failEvery, failureLimit, log, logFile⟩

theorem length_occurrences (single : k.repeats = false) : (o.occurrences k).length ≤ 1 := by
  cases k with
  | rom | resize => cases single
  | rate | failEvery | logFile => simp [occurrences, Option.length_toList_le]
  | cancelPick =>
    simp only [occurrences]
    split <;> simp
  | frames | size | failureLimit | log | help | version => simp [occurrences]

theorem occurrences_apply_same : (o.apply x).occurrences x.name =
    if x.name.repeats then o.occurrences x.name ++ [x] else [x] := by
  cases x <;> simp [apply, occurrences, Setting.name, OptionName.repeats]

theorem occurrences_apply_other (other : x.name ≠ k) :
    (o.apply x).occurrences k = o.occurrences k := by
  cases x <;> cases k <;> first | rfl | exact absurd rfl other

theorem occurrences_foldl (xs : List Setting) (o : Options) (k : OptionName) :
    (xs.foldl apply o).occurrences k =
      if k.repeats then o.occurrences k ++ given xs k
      else ((given xs k).getLast?.map fun x => [x]).getD (o.occurrences k) := by
  induction xs using List.reverseRecOn with
  | nil => simp [given]
  | append_singleton xs x ih =>
    rw [List.foldl_append, List.foldl_cons, List.foldl_nil, given_append, given_singleton]
    by_cases same : x.name = k
    · subst same
      rw [if_pos rfl, occurrences_apply_same]
      cases repeats : x.name.repeats with
      | true => simp [ih, repeats]
      | false => simp
    · rw [if_neg same, occurrences_apply_other same, ih, List.append_nil]

theorem occurrences_default_of_repeats (repeats : k.repeats = true) :
    ({} : Options).occurrences k = [] := by
  cases k <;> first | rfl | cases repeats

theorem occurrences_default_of_nil (unset : o.occurrences k = []) :
    ({} : Options).occurrences k = [] := by
  cases k with
  | frames | size | failureLimit | log => cases unset
  | rom | rate | resize | cancelPick | failEvery | logFile | help | version => rfl

/-- The settings list the options. For each option they hold its occurrences in order, or nothing if
these are the default's. -/
def Lists (o : Options) (xs : List Setting) : Prop :=
  ∀ k, given xs k = o.occurrences k ∨
    given xs k = [] ∧ o.occurrences k = ({} : Options).occurrences k

namespace Lists

theorem compatible (h : o.Lists xs) : Compatible xs := fun k single => by
  rcases h k with same | ⟨none, -⟩
  · rw [same]
    exact length_occurrences single
  · simp [none]

theorem ofSettings_eq (h : o.Lists xs) : ofSettings xs = o := by
  refine eq_of_occurrences fun k => ?_
  rw [ofSettings, occurrences_foldl]
  cases repeats : k.repeats with
  | true =>
    rw [if_pos rfl, occurrences_default_of_repeats repeats, List.nil_append]
    rcases h k with same | ⟨none, default⟩
    · exact same
    · rw [none, default, occurrences_default_of_repeats repeats]
  | false =>
    rw [if_neg Bool.false_ne_true]
    rcases h k with same | ⟨none, default⟩
    · rw [same]
      cases set : o.occurrences k with
      | nil => exact occurrences_default_of_nil set
      | cons x rest =>
        have most := length_occurrences (o := o) repeats
        rw [set] at most
        obtain rfl : rest = [] := by simpa using most
        rfl
    · rw [none, default]
      rfl

theorem mem_occurrences (h : o.Lists xs) (hx : x ∈ xs) : x ∈ o.occurrences x.name := by
  have listed : x ∈ given xs x.name := mem_given.2 ⟨hx, rfl⟩
  rcases h x.name with same | ⟨none, -⟩
  · exact same ▸ listed
  · simp [none] at listed

end Lists

end Options

end EmulatorHost.Headless
