import EmulatorHost.Drawable
import EmulatorHost.Proofs.Machine

namespace EmulatorHost.Drawable

variable {d d' : Drawable} {size : Size} {sizes sizes' : List Size}

theorem changed_set (size : Size) (d : Drawable) : (d.set size).1 = decide (d.size ≠ size) := by
  by_cases same : d.size = size <;> simp [set, same]

theorem after_set (size : Size) (d : Drawable) :
    (d.set size).2 = ⟨size, d.pending || decide (d.size ≠ size)⟩ := by
  rcases d with ⟨stored, pending⟩
  by_cases same : stored = size <;> simp [set, same]

theorem told_consume (d : Drawable) :
    d.consume.1 = if d.pending then some d.size else none := by
  cases pending : d.pending <;> simp [consume, pending]

def setAll (sizes : List Size) (d : Drawable) : Drawable :=
  sizes.foldl (fun d size => (d.set size).2) d

theorem setAll_of_ne_nil (given : sizes ≠ []) (d : Drawable) :
    d.setAll sizes = ⟨sizes.getLast given, d.pending || sizes.any (d.size ≠ ·)⟩ := by
  induction sizes generalizing d with
  | nil => exact absurd rfl given
  | cons size rest ih =>
    have first : d.setAll (size :: rest) = (d.set size).2.setAll rest := rfl
    rw [first, after_set]
    cases rest with
    | nil => simp [setAll]
    | cons next rest =>
      rw [ih (List.cons_ne_nil next rest)]
      -- where the first size is new, it does not matter that the others are compared with it
      by_cases same : d.size = size <;> simp [same]

inductive Operation where
  | set (size : Size)
  | consume
  | restore (size : Size)
  deriving DecidableEq

inductive Answer where
  | changed (yes : Bool)
  | told (size : Option Size)
  | restored
  deriving DecidableEq

def machine : Machine Drawable Operation Answer Empty where
  allows _ _ := true
  perform
    | .set size, d => (.changed (d.set size).1, [], (d.set size).2)
    | .consume, d => (.told d.consume.1, [], d.consume.2)
    | .restore size, d => (.restored, [], d.restore size)

abbrev Entry := Episode Drawable Operation Answer Empty

def answers : List Operation → Drawable → List Answer
  | [], _ => []
  | op :: rest, d => (machine.episode op d).answer :: answers rest (machine.episode op d).after

theorem answers_eq_iff : (∀ later, answers later d = answers later d') ↔ d = d' := by
  constructor
  · intro alike
    have told : [Answer.told d.consume.1] = [.told d'.consume.1] := alike [.consume]
    have unchanged : [Answer.changed (d.set d.size).1] = [.changed (d'.set d.size).1] :=
      alike [.set d.size]
    rcases d with ⟨stored, pending⟩
    rcases d' with ⟨stored', pending'⟩
    obtain rfl : stored' = stored := by simpa [changed_set] using unchanged
    cases pending <;> cases pending' <;> simp_all [told_consume]
  · rintro rfl later
    rfl

theorem setAll_eq_iff (given : sizes ≠ []) (given' : sizes' ≠ []) :
    d.setAll sizes = d.setAll sizes' ↔ sizes.getLast given = sizes'.getLast given' ∧
      (d.pending = false → sizes.any (d.size ≠ ·) = sizes'.any (d.size ≠ ·)) := by
  rw [setAll_of_ne_nil given, setAll_of_ne_nil given', Drawable.mk.injEq]
  cases d.pending <;> simp

def latest (t : List Entry) : Size :=
  (t.filterMap fun e => match e.move with
    | .set size => some size
    | _ => none).getLast?.getD Size.zero

def Arms (e : Entry) : Prop :=
  (∃ size, e.move = .set size ∧ e.answer = .changed true) ∨ e.move = .restore e.before.size

def Consumes (e : Entry) : Prop := e.move = .consume

structure Told (t : List Entry) (d : Drawable) : Prop where
  latest : d.size = latest t
  pending_iff : d.pending = true ↔ Since Arms Consumes t

namespace Told

variable {t : List Entry}

theorem start : Told [] {} where
  latest := rfl
  pending_iff := by simp

theorem next (h : Told t d) (op : Operation) :
    Told (t ++ [machine.episode op d]) (machine.episode op d).after := by
  cases op with
  | set size =>
    refine ⟨by simp [Drawable.latest, machine, Machine.episode], ?_⟩
    rw [Since.concat_iff, ← h.pending_iff]
    simp [Arms, Consumes, machine, Machine.episode, after_set, changed_set, or_comm]
  | consume =>
    refine ⟨?_, ?_⟩
    · simpa [Drawable.latest, machine, Machine.episode] using h.latest
    · rw [Since.concat_iff]
      simp [Arms, Consumes, machine, Machine.episode]
  | restore size =>
    refine ⟨?_, ?_⟩
    · simpa [Drawable.latest, machine, Machine.episode] using h.latest
    · rw [Since.concat_iff, ← h.pending_iff]
      by_cases same : d.size = size
      · simp [Arms, Consumes, machine, Machine.episode, restore, same]
      · simp [Arms, Consumes, machine, Machine.episode, restore, same, Ne.symm same]

theorem of_run (run : machine.Run {} t d) : Told t d := by
  induction run with
  | start => exact start
  | next op _ _ ih => exact ih.next op

theorem consume (h : Told t d) :
    Since Arms Consumes t ∧ d.consume.1 = some (Drawable.latest t) ∨
      ¬ Since Arms Consumes t ∧ d.consume.1 = none := by
  rw [told_consume, ← h.pending_iff, ← h.latest]
  cases d.pending <;> simp

end Told

/-- What a batch of sizes leaves behind is the last one, pending if any size was before or is new,
and two batches are told apart by nothing else. From a new holder on, asking tells the latest size
if one changed or the stored one was restored since it was last asked, and nothing otherwise:
nothing is told twice without a change or a restore in between, and to restore another size has no
effect. -/
theorem sizes_coalesce :
    (∀ (d : Drawable) (sizes : List Size) (given : sizes ≠ []),
      d.setAll sizes = ⟨sizes.getLast given, d.pending || sizes.any (d.size ≠ ·)⟩) ∧
    (∀ (d : Drawable) (sizes sizes' : List Size) (given : sizes ≠ []) (given' : sizes' ≠ []),
      (∀ later, answers later (d.setAll sizes) = answers later (d.setAll sizes')) ↔
        sizes.getLast given = sizes'.getLast given' ∧
          (d.pending = false → sizes.any (d.size ≠ ·) = sizes'.any (d.size ≠ ·))) ∧
    ∀ t d, machine.Run {} t d →
      (∀ before e after, t = before ++ e :: after → e.move = .consume →
        Since Arms Consumes before ∧ e.answer = .told (some (latest before)) ∨
          ¬ Since Arms Consumes before ∧ e.answer = .told none) ∧
      (∀ before first between e after size, t = before ++ first :: between ++ e :: after →
        first.move = .consume → e.move = .consume → e.answer = .told (some size) →
          ∃ f ∈ between, Arms f) ∧
      ∀ before e after size, t = before ++ e :: after → e.move = .restore size →
        size ≠ latest before → e.after = e.before := by
  refine ⟨fun d sizes given => setAll_of_ne_nil given d, fun d sizes sizes' given given' => ?_,
    fun t d run => ?_⟩
  · rw [answers_eq_iff, setAll_eq_iff given given']
  have asked : ∀ before e after, t = before ++ e :: after → e.move = .consume →
      Since Arms Consumes before ∧ e.answer = .told (some (latest before)) ∨
        ¬ Since Arms Consumes before ∧ e.answer = .told none := by
    rintro before e after rfl consumes
    obtain ⟨earlier, -, same, -⟩ := run.split
    rw [same, consumes]
    exact (Told.of_run earlier).consume.imp (And.imp_right (congrArg Answer.told))
      (And.imp_right (congrArg Answer.told))
  refine ⟨asked, fun before first between e after size cut once again told => ?_, ?_⟩
  · rcases asked _ e after cut again with ⟨since, -⟩ | ⟨-, nothing⟩
    · refine since.mem_behind once ?_
      rintro (⟨size, sets, -⟩ | restores)
      · cases once.symm.trans sets
      · cases once.symm.trans restores
    · cases told.symm.trans nothing
  · rintro before e after size rfl restores outdated
    obtain ⟨earlier, -, same, -⟩ := run.split
    rw [← (Told.of_run earlier).latest] at outdated
    rw [same, restores]
    exact if_neg outdated.symm

theorem bounced_size_told_again :
    ∃ t d, machine.Run {} t d ∧
      t.map (·.move) = [.set ⟨8, 6⟩, .consume, .set ⟨9, 6⟩, .set ⟨8, 6⟩, .consume,
        .restore ⟨9, 6⟩, .consume] ∧
      setAll [⟨9, 6⟩, ⟨8, 6⟩] ⟨⟨8, 6⟩, false⟩ = ⟨⟨8, 6⟩, true⟩ ∧
      Since Arms Consumes (t.take 4) ∧ ¬ Since Arms Consumes (t.take 6) := by
  obtain ⟨t, d, again, late, rest, ran, moves, cut, asks, told, cut', asks', untold⟩ :
      ∃ t d again late rest,
        machine.run? [.set ⟨8, 6⟩, .consume, .set ⟨9, 6⟩, .set ⟨8, 6⟩, .consume,
          .restore ⟨9, 6⟩, .consume] {} = some (t, d) ∧
        t.map (·.move) = [.set ⟨8, 6⟩, .consume, .set ⟨9, 6⟩, .set ⟨8, 6⟩, .consume,
          .restore ⟨9, 6⟩, .consume] ∧
        t = t.take 4 ++ again :: rest ∧ again.move = .consume ∧
          again.answer = .told (some ⟨8, 6⟩) ∧
        t = t.take 6 ++ late :: [] ∧ late.move = .consume ∧ late.answer = .told none :=
    ⟨_, _, _, _, _, rfl, rfl, rfl, rfl, rfl, rfl, rfl, rfl⟩
  have run := Machine.Run.of_run? ran
  obtain ⟨batch, -, runs⟩ := sizes_coalesce
  obtain ⟨asked, -, -⟩ := runs t d run
  refine ⟨t, d, run, moves, batch _ _ (List.cons_ne_nil _ _), ?_, ?_⟩
  · rcases asked _ again _ cut asks with ⟨since, -⟩ | ⟨-, nothing⟩
    · exact since
    · cases told.symm.trans nothing
  · rcases asked _ late _ cut' asks' with ⟨-, something⟩ | ⟨unarmed, -⟩
    · cases untold.symm.trans something
    · exact unarmed

end EmulatorHost.Drawable
