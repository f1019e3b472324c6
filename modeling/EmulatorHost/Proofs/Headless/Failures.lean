import EmulatorHost.Proofs.Headless.Reports
import EmulatorHost.Proofs.Headless.Settling
import EmulatorHost.Proofs.Software.Core
import Mathlib.Data.List.Chain

namespace EmulatorHost

def Apart (results : List CoreOutcome) : Prop :=
  results.IsChain fun r next => r.accepted ∨ next.accepted

theorem Apart.concat {results : List CoreOutcome} {r : CoreOutcome} (h : Apart results)
    (kept : ∀ last ∈ results.getLast?, last.accepted ∨ r.accepted) : Apart (results ++ [r]) :=
  List.IsChain.append h (List.isChain_singleton r) (by simpa using kept)

theorem Apart.trailingFailures_le_one {results : List CoreOutcome} (h : Apart results) :
    trailingFailures results ≤ 1 := by
  by_contra many
  obtain ⟨before, last, rfl, two, failed⟩ :=
    endsInFailures_iff.2 (show 2 ≤ trailingFailures results by omega)
  obtain ⟨r, next, rfl⟩ := List.length_eq_two.1 two
  rcases (List.IsChain.right_of_append h).rel with taken | taken
  · simp [failed r] at taken
  · simp [failed next] at taken

theorem trailingFailures_of_failed {results : List CoreOutcome}
    (failed : ∀ r ∈ results, r.accepted = false) : trailingFailures results = results.length := by
  refine Nat.le_antisymm ?_ (endsInFailures_iff.1 ⟨[], results, rfl, rfl, failed⟩)
  exact Nat.le_trans (List.takeWhile_sublist _).length_le (Nat.le_of_eq List.length_reverse)

structure Lasting (Q : List CoreOutcome → SoftwareCore → Prop) : Prop where
  runFrame : ∀ {results} {s : Screen}, Q results s.core →
    Q (results ++ [s.runFrame.1]) s.runFrame.2.core
  setSize : ∀ {results core} (size : Size), Q results core → Q results (core.setSize size)
  load : ∀ {results core} (image : Except String ByteArray), Q results core →
    Q results (core.load image).2

structure AlwaysFails (results : List CoreOutcome) (core : SoftwareCore) : Prop where
  period : core.failEvery = some 1
  failed : ∀ r ∈ results, r.accepted = false

theorem lasting_alwaysFails : Lasting AlwaysFails where
  runFrame {results s} h := by
    refine ⟨by rw [Screen.core_runFrame, h.period], fun r hr => ?_⟩
    rcases List.mem_append.1 hr with earlier | last
    · exact h.failed r earlier
    · rw [List.mem_singleton.1 last, Screen.accepted_runFrame, h.period,
        SoftwareCore.fails_some.2 (Nat.one_dvd _)]
      rfl
  setSize _ h := ⟨h.period, h.failed⟩
  load image h := ⟨(SoftwareCore.failEvery_load image _).trans h.period, h.failed⟩

/-- Right after a failure the count of frames is a multiple of the period. -/
structure Paced (n : UInt64) (results : List CoreOutcome) (core : SoftwareCore) : Prop where
  period : core.failEvery = some n
  count : core.frame.toNat ≤ results.length
  apart : Apart results
  last : ∀ r ∈ results.getLast?, r.accepted = false → n.toNat ∣ core.frame.toNat

theorem Paced.runFrame {n : UInt64} {results : List CoreOutcome} {s : Screen}
    (h : Paced n results s.core) (spaced : 2 ≤ n) (few : results.length + 1 < UInt64.size) :
    Paced n (results ++ [s.runFrame.1]) s.runFrame.2.core := by
  have count := h.count
  have next : (s.core.frame + 1).toNat = s.core.frame.toNat + 1 := by
    rw [UInt64.toNat_add]
    exact Nat.mod_eq_of_lt (by simp only [UInt64.size] at few; simp; omega)
  have fails (failed : s.runFrame.1.accepted = false) : n.toNat ∣ s.core.frame.toNat + 1 := by
    rw [Screen.accepted_runFrame, h.period, Bool.not_eq_false', SoftwareCore.fails_some,
      next] at failed
    exact failed
  refine ⟨by rw [Screen.core_runFrame, h.period], ?_, h.apart.concat fun r hr => ?_,
    fun r hr failed => ?_⟩
  · rw [Screen.core_runFrame, next, List.length_append]
    exact Nat.succ_le_succ count
  · -- no period but one divides two numbers in a row
    by_contra both
    simp only [not_or, Bool.not_eq_true] at both
    have one := (Nat.dvd_add_right (h.last r hr both.1)).1 (fails both.2)
    have two := UInt64.le_iff_toNat_le.1 spaced
    have := Nat.le_of_dvd Nat.one_pos one
    exact absurd two (by simp; omega)
  · rw [Screen.core_runFrame, next]
    obtain rfl : r = s.runFrame.1 := by simpa using hr.symm
    exact fails failed

theorem lasting_paced {n : UInt64} (spaced : 2 ≤ n) :
    Lasting fun results core => results.length < UInt64.size → Paced n results core where
  runFrame {results s} h few := by
    rw [List.length_append] at few
    exact (h (Nat.lt_of_succ_lt few)).runFrame spaced few
  setSize _ h few := ⟨(h few).period, (h few).count, (h few).apart, (h few).last⟩
  load {results core} image h few := by
    obtain ⟨period, count, apart, last⟩ := h few
    rcases SoftwareCore.frame_load image core with same | anew
    · exact ⟨(SoftwareCore.failEvery_load image _).trans period, same ▸ count, apart, same ▸ last⟩
    · refine ⟨(SoftwareCore.failEvery_load image _).trans period, ?_, apart, fun _ _ _ => ?_⟩
      · rw [anew]
        exact Nat.zero_le _
      · rw [anew]
        exact Nat.dvd_zero _

section Draws

variable {κ σ η ω : Type} {files : ω → Path → Except String ByteArray} {failEvery : Option UInt64}
  {s : Surroundings κ σ η ω} {screen : ω → Screen} {Q : List CoreOutcome → SoftwareCore → Prop}
  {results : List CoreOutcome} {calls : List (Activity κ σ η)} {w w' : ω}

theorem Lasting.replays (lasting : Lasting Q) (draws : s.Draws files failEvery screen)
    (made : ∀ answer, .created answer ∉ calls) (replays : s.Replays calls w w')
    (h : Q results (screen w).core) :
    Q (results ++ calls.filterMap Activity.rendered?) (screen w').core := by
  induction calls generalizing results w with
  | nil =>
    obtain rfl : w = w' := replays
    simpa using h
  | cons call rest ih =>
    obtain ⟨w₁, first, later⟩ := replays
    have shown := draws.answers first
    have unmade : ∀ answer, .created answer ∉ rest := fun answer hr =>
      made answer (List.mem_cons_of_mem _ hr)
    have go (now : List CoreOutcome) (h : Q (results ++ now) (screen w₁).core) := by
      have := ih unmade later h
      rwa [List.append_assoc] at this
    cases call with
    | created answer => exact absurd List.mem_cons_self (made answer)
    | frame core surface answer =>
      have drawn := draws.runFrame core surface w
      rw [show s.runFrame core surface w = (answer, w₁) from first] at drawn
      refine go [answer] ?_
      rw [shown, show answer = (screen w).runFrame.1 from congrArg Prod.fst drawn]
      exact lasting.runFrame h
    | resized core size answer =>
      refine go [] ?_
      rw [shown, List.append_nil]
      exact lasting.setSize size h
    | loaded core path answer =>
      refine go [] ?_
      rw [shown, List.append_nil]
      exact lasting.load (files w path) h
    | dropped | delivered | released =>
      refine go [] ?_
      rw [shown, List.append_nil]
      exact h

theorem Activity.toCore_of_rendered {call : Activity κ σ η} {r : CoreOutcome}
    (h : call.rendered? = some r) : call.isToCore = true := by
  cases call <;> first | rfl | cases h

theorem unrendered_of_refused
    (refused : ∀ call ∈ calls, call.isToCore = true → ∃ e, call = .created (.error e)) :
    calls.filterMap Activity.rendered? = [] := by
  refine List.filterMap_eq_nil_iff.2 fun call hc => Option.eq_none_iff_forall_ne_some.2 ?_
  intro r drawn
  obtain ⟨e, rfl⟩ := refused call hc (Activity.toCore_of_rendered drawn)
  cases drawn

theorem Lasting.of_covers {custody : Custody κ} (lasting : Lasting Q) (fresh : Q [] { failEvery })
    (draws : s.Draws files failEvery screen) (covers : custody.Covers (Pump.toCore calls))
    (replays : s.Replays calls w w') : ∃ core, Q (calls.filterMap Activity.rendered?) core := by
  rcases covers.split with refused | ⟨before, core, after, rfl, away, unmade⟩
  · exact ⟨_, unrendered_of_refused refused ▸ fresh⟩
  · obtain ⟨w₁, -, w₂, made, later⟩ := Surroundings.replays_append.1 replays
    have early : before.filterMap Activity.rendered? = [] :=
      unrendered_of_refused fun call hc used => by simp [away call hc] at used
    have first : Q [] (screen w₂).core := by
      rw [draws.answers made]
      exact fresh
    have lasted := lasting.replays draws unmade later first
    refine ⟨(screen w').core, ?_⟩
    rw [List.filterMap_append, early]
    exact lasted

theorem failed_of_covers {custody : Custody κ} (draws : s.Draws files (some 1) screen)
    (covers : custody.Covers (Pump.toCore calls)) (replays : s.Replays calls w w') :
    ∀ r ∈ calls.filterMap Activity.rendered?, r.accepted = false := by
  have fresh : AlwaysFails [] { failEvery := some 1 } := ⟨rfl, List.forall_mem_nil _⟩
  obtain ⟨core, always⟩ := lasting_alwaysFails.of_covers fresh draws covers replays
  exact always.failed

theorem apart_of_covers {custody : Custody κ} {n : UInt64} (spaced : 2 ≤ n)
    (draws : s.Draws files (some n) screen) (covers : custody.Covers (Pump.toCore calls))
    (replays : s.Replays calls w w')
    (few : (calls.filterMap Activity.rendered?).length < UInt64.size) :
    Apart (calls.filterMap Activity.rendered?) := by
  have fresh : Paced n [] { failEvery := some n } := ⟨rfl, Nat.le_refl 0, List.isChain_nil, by simp⟩
  obtain ⟨core, paced⟩ := (lasting_paced spaced).of_covers (fun _ => fresh) draws covers replays
  exact (paced few).apart

end Draws

namespace Pump

variable {κ σ η ω : Type} {s : Surroundings κ σ η ω} {config : Config} {surface : σ}
  {subscriber : Option η} {t : List (Entry κ σ η ω)} {x : Pump κ σ η × ω} {w : ω}

theorem failed_of_run {files : ω → Path → Except String ByteArray} {screen : ω → Screen}
    (draws : s.Draws files (some 1) screen)
    (run : (machine s).Run (start config surface subscriber, w) t x) :
    ∀ r ∈ renders t, r.accepted = false := by
  obtain ⟨custody, keeps⟩ := Keeps.of_run run
  exact failed_of_covers draws keeps.covers (replays_of_run run)

theorem apart_of_run {files : ω → Path → Except String ByteArray} {screen : ω → Screen} {n : UInt64}
    (spaced : 2 ≤ n) (draws : s.Draws files (some n) screen)
    (run : (machine s).Run (start config surface subscriber, w) t x)
    (few : (renders t).length < UInt64.size) : Apart (renders t) := by
  obtain ⟨custody, keeps⟩ := Keeps.of_run run
  exact apart_of_covers spaced draws keeps.covers (replays_of_run run) few

theorem not_renderFailures_of_apart
    (run : (machine s).Run (start config surface subscriber, w) t x) (apart : Apart (renders t))
    (patient : ∀ limit, config.failureLimit = some limit → 2 ≤ limit) (count : UInt32) :
    x.1.phase.reason? ≠ some (.renderFailures count) := by
  intro stops
  obtain ⟨results, counted⟩ := Counted.of_run run
  obtain ⟨limit, hl, rfl⟩ := counted.limit stops
  obtain ⟨-, trailing⟩ := counted.spent stops
  rw [(config_of_run run).1] at hl
  have two := UInt32.le_iff_toNat_le.1 (patient limit hl)
  have most := apart.trailingFailures_le_one
  rw [trailing, toNat_max_one] at most
  simp at two
  omega

theorem frames_of_failed (run : (machine s).Run (start config surface subscriber, w) t x)
    (failed : ∀ r ∈ renders t, r.accepted = false) : x.1.frames = 0 := by
  obtain ⟨results, counted⟩ := Counted.of_run run
  have none : results.countP CoreOutcome.accepted = 0 := by
    refine List.countP_eq_zero.2 fun r hr => ?_
    rw [failed r (by rw [counted.renders]; exact List.mem_append_left _ hr)]
    exact Bool.false_ne_true
  rw [counted.counts.frames, none]
  rfl

end Pump

namespace Headless

namespace App

variable {ω ω' : Type} {v : Venue ω} {a a' : App ω} {t : List (Entry ω)}
  {calls : List (Activity Unit Unit Unit)} {o : Options} {w : ω}

/-- The interface waits for two frames at least, and so does not leave its loop before the pump has
stopped. -/
structure Waits (a : App ω) : Prop where
  settles : a.scene.isEarly = false → 2 ≤ a.schedule.settledAt
  stops : 1 ≤ a.scene.closing →
    ∃ reason, reason ≠ .requested ∧ a.pump.phase.reason? = some reason

namespace Waits

theorem onward (begun : a.scene.isEarly = false → 2 ≤ a.schedule.settledAt)
    (looping : a.scene.closing = 0) : Waits a where
  settles := begun
  stops closing := by omega

theorem act (h : Waits a) (sized : Sized o t a) (visible : o.Visible)
    (stopped : a.scene = .checking → a.pump.running = false →
      ∃ reason, reason ≠ .requested ∧ a.pump.phase.reason? = some reason)
    (uncounted : a.pump.frames.toNat = 0) (read : ∀ n, a.scene = .deciding n → n = 0)
    (act : Acts v a calls a') : Waits a' := by
  have settles := h.settles
  have stops := h.stops
  cases act with
  | opened => exact onward nofun rfl
  | refused asked hidden => simp [sized.isVisible_of_move? visible asked] at hidden
  | marked hs =>
    refine onward (fun _ => ?_) (by dsimp only; split <;> rfl)
    simp [uncounted, ResizeSchedule.settle, UInt64.size]
  | applied hs =>
    obtain rfl := read _ hs
    exact onward (fun _ => Nat.le_refl 2) rfl
  | ended hs hd =>
    obtain ⟨n, counted, reached⟩ := settled_of_decides (e := ⟨a, .interface, (), [], a⟩)
      ⟨rfl, _, decision?_eq_some.2 ⟨_, hs, hd⟩, nofun⟩
    have two := settles (by rw [hs]; rfl)
    obtain rfl := read n counted
    exact absurd reached (Nat.not_le.2 (Nat.lt_of_lt_of_le Nat.two_pos two))
  | checked hs =>
    rw [hs] at settles
    cases running : a.pump.running with
    | true => exact onward settles rfl
    | false => exact ⟨settles, fun _ => stopped hs running⟩
  | dismissed hs | picked hs | told hs | settled hs | drained hs | read hs | waited hs =>
    rw [hs] at settles
    exact onward settles rfl
  | stopped hs =>
    rw [hs] at settles stops
    exact ⟨settles, fun _ => stops (Nat.le_refl 1)⟩
  | joined hs =>
    rw [hs] at settles stops
    exact ⟨settles, fun _ => stops (by decide)⟩
  | collected hs =>
    rw [hs] at settles stops
    exact ⟨settles, fun _ => stops (by decide)⟩

theorem of_run {s : Surroundings Unit Unit Unit ω'} {f : ω → ω'}
    (mirrors : v.surroundings.Mirrors f s) (kept : ∀ w, f (v.collect w).2 = f w)
    (visible : o.Visible) (run : (machine v).Run (start o w) t a) (undrawn : drawn t = 0) :
    Waits a := by
  refine turn_induction (Q := fun t a => drawn t = 0 → Waits a) ?_ ?_ ?_ run undrawn
  · exact fun _ => onward nofun rfl
  · intro t a due calls p w _ ih step undrawn
    rw [drawn_append, Nat.add_eq_zero_iff] at undrawn
    obtain ⟨settles, stops⟩ := ih undrawn.1
    refine ⟨settles, fun closing => ?_⟩
    obtain ⟨reason, unasked, stopped⟩ := stops closing
    exact ⟨reason, unasked, step.reason? stopped⟩
  · intro t a calls a' earlier ih _ act undrawn
    rw [drawn_append, Nat.add_eq_zero_iff] at undrawn
    obtain ⟨u, pumped⟩ := Pumped.of_run mirrors kept earlier
    have course := OnCourse.of_run mirrors kept visible earlier
    have counted := frames_le earlier rfl
    rw [undrawn.1] at counted
    refine (ih undrawn.1).act (.of_run visible earlier) visible (fun hs ended => ?_)
      (Nat.le_zero.1 counted) (fun n hs => ?_) act
    · obtain ⟨reason, stops, requested⟩ := Pump.reason_of_run pumped.run ended
      have unasked := course.unasked (by simp [hs, Scene.closing])
      exact ⟨reason, fun same => Bool.false_ne_true (unasked.symm.trans (requested same)), stops⟩
    · have most := read_le earlier rfl hs
      rw [undrawn.1] at most
      simpa [start, Pump.start, inFlight, Phase.uncounted, Pump.successes] using most

end Waits

section Reports

variable {s : Surroundings Unit Unit Unit ω'} {f : ω → ω'} {inbox : ω → List Notification}
  {files : ω' → Path → Except String ByteArray} {screen : ω' → Screen}
  {u : List (Pump.Entry Unit Unit Unit ω')} {result : Except RunError Report}

theorem Pumped.failed_of_always (pumped : Pumped s f (start o w) t a u)
    (draws : s.Draws files o.failEvery screen) (always : o.failEvery = some 1) :
    ∀ r ∈ Pump.renders u, r.accepted = false := by
  rw [always] at draws
  exact Pump.failed_of_run draws pumped.run

theorem Pumped.undrawn_of_always (pumped : Pumped s f (start o w) t a u)
    (draws : s.Draws files o.failEvery screen) (always : o.failEvery = some 1) : drawn t = 0 := by
  have drew : drawn t = (Pump.renders u).countP CoreOutcome.accepted := by
    rw [Pump.renders, pumped.calls]
    rfl
  rw [drew, List.countP_eq_zero]
  intro r hr
  simp [pumped.failed_of_always draws always r hr]

theorem reason_of_always (posts : v.Posts s f inbox) (draws : s.Draws files o.failEvery screen)
    (visible : o.Visible) (run : (machine v).Run (start o w) t a) (hs : a.result? = some result)
    (always : o.failEvery = some 1) (undrawn : drawn t = 0)
    (pumped : Pumped s f (start o w) t a u) {reason : StopReason}
    (exited : a.pump.phase = .exited reason) :
    reason = .renderFailures o.failureLimit ∧ 0 < o.failureLimit := by
  have waits := Waits.of_run posts.mirrors posts.kept visible run undrawn
  obtain ⟨other, unasked, stops⟩ :=
    waits.stops (by rw [result?_eq_some.1 hs]; exact Nat.le_of_ble_eq_true rfl)
  rw [exited] at stops
  obtain rfl := Option.some.inj stops
  cases reason with
  | requested => exact absurd rfl unasked
  | createFailed =>
    cases always.symm.trans ((Pumped.createFailed_iff pumped draws exited).1 rfl)
  | renderFailures count =>
    obtain ⟨rfl, positive⟩ := Pumped.limit pumped exited
    exact ⟨rfl, positive⟩

theorem report_of_always (posts : v.Posts s f inbox) (draws : s.Draws files o.failEvery screen)
    (visible : o.Visible) (empty : inbox w = []) (run : (machine v).Run (start o w) t a)
    (always : o.failEvery = some 1) (hs : a.result? = some result) : 0 < o.failureLimit ∧
      ∃ r, result = .ok r ∧ r.frames = 0 ∧ r.renderFailures.toNat = o.failureLimit.toNat ∧
        r.stopReason = some (.renderFailures o.failureLimit) := by
  obtain ⟨u, reason, pumped, exited, tally, rfl, -⟩ := result_of_run posts visible empty run hs
  have told : a.tally.stopReason = some reason := by rw [tally]
  have undrawn := pumped.undrawn_of_always draws always
  obtain ⟨rfl, positive⟩ := reason_of_always posts draws visible run hs always undrawn pumped exited
  have failed := pumped.failed_of_always draws always
  obtain ⟨results, counted⟩ := Pump.Counted.of_run pumped.run
  have stops : a.pump.phase.reason? = some (.renderFailures o.failureLimit) := by
    rw [exited]
    rfl
  obtain ⟨-, trailing⟩ := counted.spent stops
  rw [trailingFailures_of_failed failed] at trailing
  refine ⟨positive, _, if_neg (by simp [told]), Pump.frames_of_failed pumped.run failed, ?_, told⟩
  have all : (Pump.renders u).countP (!·.accepted) = o.failureLimit.toNat :=
    (List.countP_eq_length.2 (by simpa using failed)).trans trailing
  rw [counted.failures_of_uncounted (by rw [exited]; rfl), all]
  exact UInt64.toNat_ofNat_of_lt' (Nat.lt_trans o.failureLimit.toNat_lt (by decide))

theorem not_renderFailures_of_spaced {n : UInt64} (pumped : Pumped s f (start o w) t a u)
    (draws : s.Draws files o.failEvery screen) (period : o.failEvery = some n) (spaced : 2 ≤ n)
    (patient : o.failureLimit = 0 ∨ 2 ≤ o.failureLimit)
    (few : ((t.flatMap (·.calls)).filterMap Activity.rendered?).length < UInt64.size)
    (count : UInt32) : a.pump.phase.reason? ≠ some (.renderFailures count) := by
  rw [period] at draws
  rw [← pumped.calls] at few
  have apart := Pump.apart_of_run spaced draws pumped.run few
  refine Pump.not_renderFailures_of_apart pumped.run apart (fun limit hl => ?_) count
  change (if o.failureLimit = 0 then none else some o.failureLimit) = some limit at hl
  split at hl
  · cases hl
  · obtain rfl := Option.some.inj hl
    exact patient.resolve_left ‹_›

end Reports

end App

/-- Failures on purpose fit the number of failures that are allowed, however a software core is
called from its creation on, and whatever the files hold meanwhile. One that does not always fail
never fails twice in a row, as long as its frames can be counted, so that a pump which allows more
than one failure does not stop for them. Of a core that always fails no frame counts, and a run with
such a core that comes to its end has seen just as many failures as it allows, whatever else it was
to do. -/
theorem failures_fit_the_limit :
    (∀ {κ σ η ω : Type} {s : Surroundings κ σ η ω} {n : UInt64} {screen : ω → Screen}
      {files : ω → Path → Except String ByteArray}, s.Draws files (some n) screen →
      (∀ (custody : Custody κ) calls w w', custody.Covers (Pump.toCore calls) →
        s.Replays calls w w' →
        (2 ≤ n → (calls.filterMap Activity.rendered?).length < UInt64.size →
          Apart (calls.filterMap Activity.rendered?)) ∧
        (n = 1 → ∀ r ∈ calls.filterMap Activity.rendered?, r.accepted = false)) ∧
      ∀ config surface subscriber w t x,
        (Pump.machine s).Run (Pump.start config surface subscriber, w) t x →
        (2 ≤ n → (Pump.renders t).length < UInt64.size →
          (∀ limit, config.failureLimit = some limit → 2 ≤ limit) →
          ∀ count, x.1.phase.reason? ≠ some (.renderFailures count)) ∧
        (n = 1 → x.1.frames = 0)) ∧
    ∀ {ω ω' : Type} {v : Venue ω} {s : Surroundings Unit Unit Unit ω'} {f : ω → ω'}
      {inbox : ω → List Notification} {files : ω' → Path → Except String ByteArray}
      {screen : ω' → Screen} arguments o w t a, CommandLine.parse arguments = .ok o →
      v.Posts s f inbox → s.Draws files o.failEvery screen → inbox w = [] →
      (App.machine v).Run (App.start o w) t a →
      (∀ n, o.failEvery = some n → 2 ≤ n → (o.failureLimit = 0 ∨ 2 ≤ o.failureLimit) →
        ((t.flatMap (·.calls)).filterMap Activity.rendered?).length < UInt64.size →
        ∀ count, a.pump.phase.reason? ≠ some (.renderFailures count)) ∧
      (o.failEvery = some 1 → a.pump.frames = 0 ∧
        ∀ result, a.result? = some result → 0 < o.failureLimit ∧
          ∃ r, result = .ok r ∧ r.frames = 0 ∧ r.renderFailures.toNat = o.failureLimit.toNat ∧
            r.stopReason = some (.renderFailures o.failureLimit)) := by
  refine ⟨fun {κ σ η ω s n screen files} draws => ⟨?_, ?_⟩, ?_⟩
  · intro custody calls w w' covers replays
    refine ⟨fun spaced few => apart_of_covers spaced draws covers replays few, ?_⟩
    rintro rfl
    exact failed_of_covers draws covers replays
  · intro config surface subscriber w t x run
    refine ⟨fun spaced few patient count => ?_, ?_⟩
    · have apart := Pump.apart_of_run spaced draws run few
      exact Pump.not_renderFailures_of_apart run apart patient count
    · rintro rfl
      exact Pump.frames_of_failed run (Pump.failed_of_run draws run)
  · intro ω ω' v s f inbox files screen arguments o w t a accepted posts draws empty run
    obtain ⟨u, pumped⟩ := App.Pumped.of_run posts.mirrors posts.kept run
    refine ⟨fun n period spaced patient few count => ?_, fun always => ⟨?_, fun result ended => ?_⟩⟩
    · exact App.not_renderFailures_of_spaced pumped draws period spaced patient few count
    · exact Pump.frames_of_failed pumped.run (pumped.failed_of_always draws always)
    · have visible := Options.visible_of_parse accepted
      exact App.report_of_always posts draws visible empty run always ended

theorem failures_fit_a_limit_of_two :
    (∃ read t x, (Pump.machine (Stage.venue read (some 2)).surroundings).Run
        (Pump.start { failureLimit := some 2 } () (some ()), {}) t x ∧
      (t.flatMap (·.calls)).countP Activity.takesRom = 1 ∧
      (Pump.renders t).map CoreOutcome.accepted = [true, true, false, true, false] ∧
      Apart (Pump.renders t) ∧ ∀ count, x.1.phase.reason? ≠ some (.renderFailures count)) ∧
    ∃ o t a r, CommandLine.parse (["--fail-render-every", "1", "--max-render-failures", "2",
        "--frames", "0", "--size", "1x1", "--resize", "2x1"].map CommandLine.bytes) = .ok o ∧
      (App.machine (Stage.venue (fun _ => .error "") o.failEvery)).Run (App.start o {}) t a ∧
      a.result? = some (.ok r) ∧ r.frames = 0 ∧ r.renderFailures.toNat = 2 ∧
      r.stopReason = some (.renderFailures 2) := by
  refine ⟨?_, ?_⟩
  · let read : Path → Except String ByteArray := fun path =>
      if path = ⟨[97]⟩ then .ok ⟨#[7]⟩ else .error ""
    obtain ⟨t, x, run, roms, results⟩ : ∃ t x,
        (Pump.machine (Stage.venue read (some 2)).surroundings).Run
          (Pump.start { failureLimit := some 2 } () (some ()), {}) t x ∧
          (t.flatMap (·.calls)).countP Activity.takesRom = 1 ∧
          (Pump.renders t).map CoreOutcome.accepted = [true, true, false, true, false] :=
      Machine.Run.of_decided
        (List.flatten [.replicate 8 (.advance true), [.load ⟨[97]⟩], .replicate 14 (.advance true),
          [.load ⟨[98]⟩, .resize ⟨2, 1⟩], .replicate 14 (.advance true)])
        (by decide +kernel)
    have few : (Pump.renders t).length < UInt64.size := by
      rw [← List.length_map (f := CoreOutcome.accepted), results]
      decide
    obtain ⟨called, pumped⟩ := failures_fit_the_limit.1 (Stage.draws read (some 2))
    obtain ⟨custody, keeps⟩ := Pump.Keeps.of_run run
    have apart := (called custody _ _ _ keeps.covers (Pump.replays_of_run run)).1 (by decide) few
    have patient := (pumped _ _ _ _ _ _ run).1 (by decide) few fun limit hl => by
      obtain rfl := Option.some.inj hl
      decide
    exact ⟨read, t, x, run, roms, results, apart, patient⟩
  · let o : Options :=
      { frames := 0, size := ⟨1, 1⟩, resizes := [⟨2, 1⟩], failEvery := some 1, failureLimit := 2 }
    obtain ⟨t, a, run, ended⟩ : ∃ t a,
        (App.machine (Stage.venue (fun _ => .error "") o.failEvery)).Run (App.start o {}) t a ∧
          a.result?.isSome :=
      Machine.Run.of_decided
        (List.flatten
          [.replicate 4 .interface, .replicate 24 (.pump true), .replicate 4 .interface])
        (by decide +kernel)
    obtain ⟨result, hs⟩ := Option.isSome_iff_exists.1 ended
    have accepted : CommandLine.parse (["--fail-render-every", "1", "--max-render-failures", "2",
      "--frames", "0", "--size", "1x1", "--resize", "2x1"].map CommandLine.bytes) = .ok o := rfl
    have reports := (failures_fit_the_limit.2 _ o {} t a accepted (Stage.posts _ o.failEvery)
      (Screen.draws _ o.failEvery) rfl run).2 rfl
    obtain ⟨-, r, rfl, frames, failures, stop⟩ := reports.2 result hs
    exact ⟨o, t, a, r, accepted, run, hs, frames, failures, stop⟩

end Headless

end EmulatorHost
