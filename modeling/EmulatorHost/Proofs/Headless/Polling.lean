import EmulatorHost.Proofs.Headless.Course
import EmulatorHost.Proofs.Headless.ResizeSchedule

namespace EmulatorHost.Headless.App

open ResizeSchedule (opened loop Poll sizes lastChange Follows)

variable {ω : Type} {v : Venue ω} {a a' : App ω} {t : List (Entry ω)} {e : Entry ω}
  {calls : List (Activity Unit Unit Unit)} {o : Options} {w : ω} {first : Nat} {u : List Poll}
  {n : Nat}

def polled? (e : Entry ω) : Option (Nat × Decision) :=
  match e.move, e.before.scene with
  | .interface, .deciding n => some (n, e.before.schedule.decide n)
  | _, _ => none

def polled (t : List (Entry ω)) : List (Nat × Decision) := t.filterMap polled?

theorem polled_append (t u : List (Entry ω)) : polled (t ++ u) = polled t ++ polled u :=
  List.filterMap_append

theorem polled_concat (t : List (Entry ω)) (e : Entry ω) :
    polled (t ++ [e]) = polled t ++ (polled? e).toList := by
  cases h : polled? e <;> simp [polled, h]

theorem polled?_of_undecided (h : e.before.scene.isDeciding = false) : polled? e = none := by
  unfold polled?
  split
  · rename_i hs
    rw [hs] at h
    cases h
  · rfl

theorem polled?_of_deciding (hs : a.scene = .deciding n) :
    polled? ⟨a, .interface, (), calls, a'⟩ = some (n, a.schedule.decide n) := by
  simp [polled?, hs]

theorem reported?_of_polled? {d : Decision} (h : polled? e = some (n, d)) :
    reported? e = d.size? := by
  unfold polled? at h
  split at h
  · rename_i k turn hs
    cases h
    cases hd : e.before.schedule.decide n <;>
      simp [reported?, turn, move?, hs, hd, Decision.size?, Pump.Move.size?]
  · cases h

theorem reported_of_decision (hs : a.scene = .deciding n) :
    reported (t ++ [⟨a, .interface, (), calls, a'⟩]) =
      reported t ++ (a.schedule.decide n).size?.toList := by
  have same : reported? (⟨a, .interface, (), calls, a'⟩ : Entry ω) = (a.schedule.decide n).size? :=
    reported?_of_polled? (polled?_of_deciding hs)
  cases hd : (a.schedule.decide n).size? <;> simp [reported, same, hd]

theorem read?_of_begun (begun : e.before.scene.isEarly = false) :
    read? e = (polled? e).map Prod.fst := by
  obtain ⟨before, move, answer, calls, after⟩ := e
  cases move with
  | pump due => rfl
  | interface =>
    cases hs : before.scene with
    | opening | marking => simp [hs, Scene.isEarly] at begun
    | _ => simp [read?, polled?, hs]

theorem Acts.stops_iff (h : Acts v a calls a') (hs : a.scene = .deciding n) :
    a'.scene = .stopping ↔ a.schedule.decide n = .finish := by
  rcases h.of_deciding hs with ⟨z, hd, -, rfl⟩ | ⟨z, schedule, hd, rfl⟩ | ⟨hd, rfl⟩ | ⟨hd, rfl⟩ <;>
    simp [hd, enter]

theorem polled?_spec {d : Decision} (allowed : (machine v).allows e.before e.move)
    (same : e = (machine v).episode e.move e.before) (h : polled? e = some (n, d)) :
    e.before.scene = .deciding n ∧ (e.after.scene = .stopping ↔ d = .finish) := by
  unfold polled? at h
  split at h
  · rename_i k turn hs
    cases h
    rw [turn] at allowed same
    have acts := acts v e.before (unblocked_of_allows allowed)
    rw [← same] at acts
    exact ⟨hs, acts.stops_iff hs⟩
  · cases h

def Marks (first : Nat) (e : Entry ω) : Prop :=
  e.move = .interface ∧ e.before.scene = .marking ∧ e.before.pump.frames.toNat = first

structure Unpolled (o : Options) (t : List (Entry ω)) (a : App ω) : Prop where
  options : a.options = o
  polled : polled t = []
  readings : readings t = []
  scene : (a.scene = .opening ∧ reported t = [] ∨ a.scene = .marking ∧ reported t = [o.size]) ∧
      a.schedule = { target := o.frames, resizes := o.resizes, settledAt := 0 } ∨
    ∃ r, a.scene = .finished r

structure Loops (o : Options) (first : Nat) (t : List (Entry ω)) (a : App ω) (u : List Poll) :
    Prop where
  polled : polled t = u.map fun e => (e.move, e.answer)
  reported : reported t = o.size :: ResizeSchedule.sizes u
  run : ∃ x, loop.Run (opened o first) u x ∧ (a.scene.closing = 0 → x = ⟨a.schedule, false⟩)

/-- The interface polls its schedule, and as long as its counts fit a word, the loop does the
same. -/
structure Scheduled (o : Options) (first : Nat) (t : List (Entry ω)) (a : App ω) : Prop where
  marked : ∃ e ∈ t, Marks first e
  readings : readings t = first :: (polled t).map Prod.fst
  begun : a.scene.isEarly = false
  loops : (∀ n ∈ App.readings t, n + 2 < UInt64.size) → ∃ u, Loops o first t a u

namespace Scheduled

theorem next (h : Scheduled o first t e.before) (begun : e.after.scene.isEarly = false)
    (loops : (∀ n ∈ App.readings (t ++ [e]), n + 2 < UInt64.size) →
      (∃ u, Loops o first t e.before u) → ∃ u, Loops o first (t ++ [e]) e.after u) :
    Scheduled o first (t ++ [e]) e.after where
  marked := by
    obtain ⟨m, hm, marks⟩ := h.marked
    exact ⟨m, List.mem_append_left _ hm, marks⟩
  readings := by
    rw [readings_concat, h.readings, read?_of_begun h.begun, polled_concat]
    cases polled? e <;> simp
  begun := begun
  loops small := by
    refine loops small (h.loops fun n hn => small n ?_)
    rw [readings_concat]
    exact List.mem_append_left _ hn

theorem quiet (h : Scheduled o first t e.before) (unpolled : polled? e = none)
    (unreported : reported? e = none) (begun : e.after.scene.isEarly = false)
    (looping : e.after.scene.closing = 0 → e.before.scene.closing = 0)
    (schedule : e.after.schedule = e.before.schedule) :
    Scheduled o first (t ++ [e]) e.after := by
  refine h.next begun fun _ ⟨u, polled, reported, x, run, same⟩ =>
    ⟨u, ?_, ?_, x, run, fun loops => ?_⟩
  · simpa [polled_concat, unpolled] using polled
  · simpa [reported_quiet unreported] using reported
  · exact schedule ▸ same (looping loops)

theorem poll (h : Scheduled o first t a) (hs : a.scene = .deciding n)
    (begun : a'.scene.isEarly = false)
    (goes : n + 2 < UInt64.size → a'.scene.closing = 0 →
      (loop.episode n ⟨a.schedule, false⟩).after = ⟨a'.schedule, false⟩) :
    Scheduled o first (t ++ [⟨a, .interface, (), calls, a'⟩]) a' := by
  refine h.next (e := ⟨a, .interface, (), calls, a'⟩) begun ?_
  rintro small ⟨u, polled, reported, x, run, same⟩
  obtain rfl := same (by rw [hs]; rfl)
  have fits := small n
    (mem_readings_of_deciding (List.mem_append_right t (List.mem_singleton_self _)) rfl hs)
  refine ⟨_, ?_, ?_, _, run.next n rfl, goes fits⟩
  · rw [polled_concat, polled, polled?_of_deciding hs, ← ResizeSchedule.answer_poll,
      List.map_append]
    rfl
  · rw [reported_of_decision hs, reported, ← ResizeSchedule.answer_poll,
      ResizeSchedule.sizes_concat]
    rfl

theorem isEarly_scene (h : Scheduled o first t a) {scene : Scene} (hs : a.scene = scene) :
    scene.isEarly = false :=
  hs ▸ h.begun

theorem act (h : Scheduled o first t a) (act : Acts v a calls a') :
    Scheduled o first (t ++ [⟨a, .interface, (), calls, a'⟩]) a' := by
  cases act with
  | opened hs | marked hs => cases h.isEarly_scene hs
  | refused asked =>
    rcases resize_of_move? asked with hs | ⟨n, hs, -⟩
    · cases h.isEarly_scene hs
    · exact h.poll hs rfl fun _ loops => by cases loops
  | @applied n z hs hd =>
    refine h.poll hs rfl fun fits _ => ?_
    rw [ResizeSchedule.episode_of_apply _ hd, ResizeSchedule.wrap_eq _ fits]
  | ended hs hd => exact h.poll hs rfl fun _ loops => by cases loops
  | waited hs hd =>
    refine h.poll hs rfl fun _ _ => ?_
    rw [ResizeSchedule.episode_of_wait _ hd]
    rfl
  | checked hs =>
    refine h.quiet (by simp [polled?, hs]) (by simp [reported?, move?, hs]) ?_
      (fun _ => by rw [hs]; rfl) rfl
    dsimp only [enter]
    split <;> rfl
  | picked hs | told hs =>
    exact h.quiet (by simp [polled?, hs]) (by simp [reported?, move?, hs, Pump.Move.size?])
      rfl (fun _ => by rw [hs]; rfl) rfl
  | stopped hs =>
    exact h.quiet (by simp [polled?, hs]) (by simp [reported?, move?, hs, Pump.Move.size?])
      rfl (fun loops => by cases loops) rfl
  | dismissed hs | settled hs | drained hs | read hs =>
    exact h.quiet (by simp [polled?, hs]) (by simp [reported?, move?, hs]) rfl
      (fun _ => by rw [hs]; rfl) rfl
  | joined hs | collected hs =>
    exact h.quiet (by simp [polled?, hs]) (by simp [reported?, move?, hs]) rfl
      (fun loops => by cases loops) rfl

end Scheduled

namespace Unpolled

theorem start : Unpolled o [] (start o w) :=
  ⟨rfl, rfl, rfl, .inl ⟨.inl ⟨rfl, rfl⟩, rfl⟩⟩

theorem act (h : Unpolled o t a) (unblocked : a.isBlocked = false) (act : Acts v a calls a') :
    Unpolled o (t ++ [⟨a, .interface, (), calls, a'⟩]) a' ∨
      ∃ first, Scheduled o first (t ++ [⟨a, .interface, (), calls, a'⟩]) a' := by
  obtain ⟨options, none, unread, ⟨⟨hs, unreported⟩ | ⟨hs, reported⟩, schedule⟩ | ⟨r, hs⟩⟩ := h
  · have unpolled : App.polled (t ++ [⟨a, .interface, (), calls, a'⟩]) = [] := by
      simp [polled_concat, none, polled?, hs]
    have unread : App.readings (t ++ [⟨a, .interface, (), calls, a'⟩]) = [] := by
      simp [readings_concat, unread, read?, hs]
    refine .inl ?_
    rcases act.of_opening hs with ⟨-, rfl⟩ | ⟨_, rfl⟩
    · refine ⟨options, unpolled, unread, .inl ⟨.inr ⟨rfl, ?_⟩, schedule⟩⟩
      rw [reported_concat (z := o.size) (by simp [move?, hs, options]), unreported, List.nil_append]
    · exact ⟨options, unpolled, unread, .inr ⟨_, rfl⟩⟩
  · have unpolled : App.polled (t ++ [⟨a, .interface, (), calls, a'⟩]) = [] := by
      simp [polled_concat, none, polled?, hs]
    have first : App.readings (t ++ [⟨a, .interface, (), calls, a'⟩]) = [a.pump.frames.toNat] := by
      simp [readings_concat, unread, read?, hs]
    obtain rfl := act.of_marking hs
    refine .inr ⟨a.pump.frames.toNat,
      ⟨_, List.mem_append_right t (List.mem_singleton_self _), rfl, hs, rfl⟩,
      by rw [first, unpolled]; rfl, ?_, fun small => ⟨[], unpolled, ?_, _, .start, fun _ => ?_⟩⟩
    · dsimp only
      split <;> rfl
    · rw [reported_quiet (by simp [reported?, move?, hs]), reported]
      rfl
    · have fits := small a.pump.frames.toNat (by simp [first])
      rw [ResizeSchedule.wrap_eq _ fits]
      simp [opened, schedule]
  · simp [isBlocked, hs] at unblocked

end Unpolled

theorem scheduled_of_run (run : (machine v).Run (start o w) t a) :
    Unpolled o t a ∨ ∃ first, Scheduled o first t a := by
  refine turn_induction (Q := fun t a => Unpolled o t a ∨ ∃ first, Scheduled o first t a)
    (.inl .start) ?_ ?_ run
  · rintro t a due calls p w - (h | ⟨first, h⟩) -
    · exact .inl ⟨h.options, by simpa [polled_concat, polled?] using h.polled,
        by simpa [readings_concat, read?] using h.readings,
        by rw [reported_quiet rfl]; exact h.scene⟩
    · exact .inr ⟨first, h.quiet rfl rfl h.begun id rfl⟩
  · rintro t a calls a' - (h | ⟨first, h⟩) unblocked act
    · exact h.act unblocked act
    · exact .inr ⟨first, h.act act⟩

/-- The sizes are applied in their order, one for each poll at most. The next one is applied at the
first poll whose count has reached its part of the target and is two more than at the change before.
The schedule finishes when all have been applied, the last of them two counts ago, and the target
has been reached. Counts that grow without bound bring it to its end. The loop of a headless run
polls it with the counts that it reads, sets what it applies and nothing else, and stops when it
finishes. -/
theorem resizes_in_order_to_the_end {o : Options}
    (fits : o.frames.toNat * o.resizes.length < UInt64.size) :
    (∀ first t x, loop.Run (opened o first) t x →
      sizes t <+: o.resizes ∧
      ∀ before e after, t = before ++ e :: after →
        (∀ z, e.answer = .apply z ↔ o.resizes[(sizes before).length]? = some z ∧
          lastChange first before + 2 ≤ e.move ∧
            o.frames.toNat * ((sizes before).length + 1) / (o.resizes.length + 1) ≤ e.move) ∧
        (e.answer = .finish ↔ sizes before = o.resizes ∧ o.frames.toNat ≤ e.move ∧
          lastChange first before + 2 ≤ e.move)) ∧
    (∀ first counts, Monotone counts → (∀ bound, ∃ i, bound ≤ counts i) →
      ∃ k t x, loop.Run (opened o first) t x ∧ t.map (·.move) = (List.range k).map counts ∧
        x.finished = true) ∧
    ∀ (ω : Type) (v : Venue ω) (w : ω) (t : List (Entry ω)) (a : App ω),
      (machine v).Run (start o w) t a →
      (∀ (before : List (Entry ω)) (e : Entry ω) (after : List (Entry ω)) (n : Nat) (d : Decision),
        t = before ++ e :: after → polled? e = some (n, d) →
        (∃ (earlier : List (Entry ω)) (r : Entry ω) (missed : List (Entry ω)),
          before = earlier ++ r :: missed ∧ r.move = .interface ∧
          r.before.scene = .counting ∧ n = r.before.pump.frames.toNat ∧
            ∀ m ∈ missed, m.move ≠ .interface) ∧
        (e.after.scene = .stopping ↔ d = .finish) ∧ reported? e = d.size?) ∧
      (∀ e ∈ t, ∀ z, reported? e = some z →
        (o.Visible → z.isVisible = true) ∧
        (z.isVisible = true →
          ∃ changed, e.before.pump.setDrawableSize z = (.ok changed, e.after.pump)) ∧
        (z.isVisible = false →
          ∃ error, e.before.pump.setDrawableSize z = (.error error, e.after.pump) ∧
            e.after.scene = .finished (.error (.invalidRequest error)))) ∧
      (∀ e ∈ t, reported? e = none →
        e.after.pump.coordinator.drawable.size = e.before.pump.coordinator.drawable.size) ∧
      ((∀ n ∈ readings t, n + 2 < UInt64.size) →
        polled t = [] ∨ ∃ first u x, (∃ m ∈ t, Marks first m) ∧
          loop.Run (opened o first) u x ∧ polled t = (u.map fun e => (e.move, e.answer)) ∧
          reported t = o.size :: sizes u ∧
            (a.scene.closing = 0 → x.schedule = a.schedule ∧ x.finished = false)) := by
  refine ⟨fun first t x run => ⟨?_, ?_⟩, fun first counts grows unbounded => ?_,
    fun ω v w t a run => ⟨?_, fun e he z hz => ⟨fun visible => ?_, ?_⟩, fun e he none => ?_,
      fun small => ?_⟩⟩
  · rw [(Follows.of_run run).inOrder]
    exact List.take_prefix ..
  · rintro before e after rfl
    obtain ⟨earlier, allowed, same, -⟩ := run.split
    have follows := Follows.of_run earlier
    have answer : e.answer = e.before.schedule.decide e.move := by
      rw [same]
      exact ResizeSchedule.answer_poll ..
    rw [answer]
    exact ⟨fun z => follows.applies_iff fits, follows.finishes_iff⟩
  · obtain ⟨k, t, s, run, polled⟩ := ResizeSchedule.ends grows unbounded (opened o first).schedule
    exact ⟨k, t, _, run, polled, rfl⟩
  · rintro before e after n d rfl polls
    obtain ⟨earlier, allowed, same, -⟩ := run.split
    obtain ⟨hs, stops⟩ := polled?_spec allowed same polls
    exact ⟨reading_of_run earlier rfl hs, stops, reported?_of_polled? polls⟩
  · exact (Sized.of_run visible run).isVisible_of_reported visible he hz
  · obtain ⟨before, after, rfl⟩ := List.append_of_mem he
    exact ⟨setDrawableSize_of_reported run hz, refused_of_reported run hz⟩
  · obtain ⟨before, after, rfl⟩ := List.append_of_mem he
    exact drawable_size_of_unreported run none
  · rcases scheduled_of_run run with h | ⟨first, h⟩
    · exact .inl h.polled
    · obtain ⟨u, polled, reported, x, runs, same⟩ := h.loops small
      exact .inr ⟨first, u, x, h.marked, runs, polled, reported,
        fun loops => by rw [same loops]; exact ⟨rfl, rfl⟩⟩

theorem two_thresholds_jumped_at_once :
    ∃ (o : Options) (t : List (Entry Stage)) (a : App Stage) (first : Nat) (before : List Poll)
      (e : Poll) (after : List Poll) (x : ResizeSchedule.Loop),
      o.frames.toNat * o.resizes.length < UInt64.size ∧ o.Visible ∧
      (machine (Stage.venue (fun _ => .error "") o.failEvery)).Run (start o {}) t a ∧
      (∀ n ∈ readings t, n + 2 < UInt64.size) ∧
      polled t = [(2, .apply ⟨2, 1⟩), (3, .wait), (4, .apply ⟨3, 1⟩), (5, .wait), (6, .finish)] ∧
      (∀ e ∈ t, ∀ z, reported? e = some z →
        ∃ changed, e.before.pump.setDrawableSize z = (.ok changed, e.after.pump)) ∧
      reported t = [⟨1, 1⟩, ⟨2, 1⟩, ⟨3, 1⟩] ∧ a.pump.coordinator.drawable.size = ⟨3, 1⟩ ∧
      loop.Run (opened o first) (before ++ e :: after) x ∧
      (before ++ e :: after).map (fun p => (p.move, p.answer)) = polled t ∧
      e.move = 4 ∧ lastChange first before + 2 ≤ e.move ∧
      sizes (before ++ e :: after) <+: o.resizes ∧
      ∃ k u x, loop.Run (opened o first) u x ∧ u.map (·.move) = (List.range k).map id ∧
        x.finished = true := by
  let o : Options := { frames := 2, size := ⟨1, 1⟩, resizes := [⟨2, 1⟩, ⟨3, 1⟩] }
  obtain ⟨t, a, run, small, answers, told, last⟩ : ∃ t a,
      (machine (Stage.venue (fun _ => .error "") o.failEvery)).Run (start o {}) t a ∧
        (∀ n ∈ readings t, n + 2 < UInt64.size) ∧
        polled t = [(2, .apply ⟨2, 1⟩), (3, .wait), (4, .apply ⟨3, 1⟩), (5, .wait), (6, .finish)] ∧
        reported t = [⟨1, 1⟩, ⟨2, 1⟩, ⟨3, 1⟩] ∧ a.pump.coordinator.drawable.size = ⟨3, 1⟩ :=
    Machine.Run.of_decided
      (.replicate 3 .interface ++ .replicate 15 (.pump true) ++
        (List.replicate 4 (.replicate 4 .interface ++ .replicate 6 (.pump true))).flatten ++
        .replicate 4 .interface)
      (by decide +kernel)
  have fits : o.frames.toNat * o.resizes.length < UInt64.size := by decide
  have visible : o.Visible := ⟨by decide, by decide⟩
  obtain ⟨loops, ends, runs⟩ := resizes_in_order_to_the_end fits
  obtain ⟨-, sets, -, follows⟩ := runs _ _ _ t a run
  rcases follows small with none | ⟨first, u, x, -, polls, same, -⟩
  · cases answers.symm.trans none
  · have length : u.length = 5 := by
      simpa [answers] using (congrArg List.length same).symm
    have he : u[2]? = some u[2] := List.getElem?_eq_getElem (by omega)
    have third := congrArg (·[2]?) (answers.symm.trans same)
    rw [List.getElem?_map, he] at third
    obtain ⟨polled, applied⟩ := Prod.mk.inj (Option.some.inj third)
    have cut := eq_split_of_getElem? he
    obtain ⟨inOrder, spaced⟩ := loops first u x polls
    obtain ⟨-, far, -⟩ := ((spaced _ _ _ cut).1 ⟨3, 1⟩).1 applied.symm
    rw [cut] at polls same inOrder
    exact ⟨o, t, a, first, _, u[2], _, x, fits, visible, run, small, answers,
      fun e he z hz => (sets e he z hz).2.1 ((sets e he z hz).1 visible), told, last, polls,
      same.symm, polled.symm, far, inOrder,
      ends first id monotone_id fun bound => ⟨bound, Nat.le_refl bound⟩⟩

end EmulatorHost.Headless.App
