import EmulatorHost.Proofs.Headless.Course
import EmulatorHost.Proofs.Pump.Requests
import EmulatorHost.Proofs.Pump.Views

namespace EmulatorHost

def Screen.surroundings (read : Path → Except String ByteArray) (failEvery : Option UInt64) :
    Surroundings Unit Unit Unit Screen where
  toCores := calls read
  createCore := create failEvery
  deliver _ _ s := (true, s)
  release _ s := s

theorem Screen.draws (read : Path → Except String ByteArray) (failEvery : Option UInt64) :
    (surroundings read failEvery).Draws (fun _ => read) failEvery id where
  createCore screen := by
    by_cases none : failEvery = some 0 <;> simp [surroundings, create_eq, none, Except.map]
  runFrame _ _ _ := rfl
  setOutputSize _ _ _ := rfl
  loadRom _ _ _ := rfl
  drop _ _ := rfl
  deliver _ _ _ := rfl
  release _ _ := rfl

namespace Headless

/-- A venue with a mailbox that its pump's own surroundings know nothing of. -/
structure Venue.Posts {ω ω' : Type} (v : Venue ω) (s : Surroundings Unit Unit Unit ω')
    (f : ω → ω') (inbox : ω → List Notification) : Prop where
  mirrors : v.surroundings.Mirrors f s
  hears : ∀ l event w, (s.deliver l event w).1 = true
  shows : v.surroundings.Shows inbox fun mail call => mail ++ call.heard?.toList
  collects : ∀ w, (v.collect w).1 = inbox w
  emptied : ∀ w, inbox (v.collect w).2 = []
  kept : ∀ w, f (v.collect w).2 = f w

theorem Stage.posts (read : Path → Except String ByteArray) (failEvery : Option UInt64) :
    (venue read failEvery).Posts (Screen.surroundings read failEvery) screen inbox where
  mirrors := by constructor <;> intros <;> rfl
  hears _ _ _ := rfl
  shows := by constructor <;> intros <;> first | rfl | exact (List.append_nil _).symm
  collects _ := rfl
  emptied _ := rfl
  kept _ := rfl

namespace Tally

variable {events : List Notification} {reason : StopReason}

theorem romsLoaded_foldl (events : List Notification) (t : Tally) :
    (events.foldl count t).romsLoaded = t.romsLoaded + events.countP Notification.isRomLoaded := by
  induction events generalizing t with
  | nil => rfl
  | cons event rest ih =>
    rw [List.foldl_cons, ih, List.countP_cons]
    cases event <;> simp [count, Notification.isRomLoaded]
    omega

theorem resizesPushed_foldl (events : List Notification) (t : Tally) :
    (events.foldl count t).resizesPushed =
      t.resizesPushed + events.countP Notification.isOutputResized := by
  induction events generalizing t with
  | nil => rfl
  | cons event rest ih =>
    rw [List.foldl_cons, ih, List.countP_cons]
    cases event <;> simp [count, Notification.isOutputResized]
    omega

theorem stopReason_foldl (only : ∀ other, .pumpStopped other ∈ events → other = reason) (t : Tally)
    (told : t.stopReason = some reason ∨ .pumpStopped reason ∈ events) :
    (events.foldl count t).stopReason = some reason := by
  induction events generalizing t with
  | nil => exact told.resolve_right List.not_mem_nil
  | cons event rest ih =>
    refine ih (fun other later => only other (List.mem_cons_of_mem _ later)) (t.count event) ?_
    cases event with
    | pumpStopped other =>
      obtain rfl := only other List.mem_cons_self
      exact .inl rfl
    | _ => exact told.imp_right fun later => by simpa using later

theorem foldl_eq (only : ∀ other, .pumpStopped other ∈ events → other = reason)
    (told : .pumpStopped reason ∈ events) :
    events.foldl count {} = ⟨events.countP Notification.isRomLoaded,
      events.countP Notification.isOutputResized, some reason⟩ := by
  have roms := romsLoaded_foldl events {}
  have sizes := resizesPushed_foldl events {}
  have stop := stopReason_foldl only {} (.inr told)
  generalize events.foldl count {} = t at roms sizes stop
  obtain ⟨romsLoaded, resizesPushed, stopReason⟩ := t
  simp_all

end Tally

namespace App

variable {ω ω' : Type} {v : Venue ω} {s : Surroundings Unit Unit Unit ω'} {f : ω → ω'}
  {inbox : ω → List Notification} {a a' : App ω} {t : List (Entry ω)} {e : Entry ω} {o : Options}
  {w : ω} {calls : List (Activity Unit Unit Unit)}

/-- What has been collected is in the tally, and the rest is in the mailbox. -/
def Tallied (inbox : ω → List Notification) (t : List (Entry ω)) (a : App ω) : Prop :=
  ∃ collected, a.tally = collected.foldl Tally.count {} ∧
    collected ++ inbox a.world = (t.flatMap (·.calls)).filterMap Activity.heard?

theorem foldl_mail (mail : List Notification) (calls : List (Activity Unit Unit Unit)) :
    calls.foldl (fun mail call => mail ++ call.heard?.toList) mail =
      mail ++ calls.filterMap Activity.heard? := by
  induction calls generalizing mail with
  | nil => exact (List.append_nil mail).symm
  | cons call rest ih =>
    rw [List.foldl_cons, ih, List.append_assoc, List.filterMap_cons]
    cases call.heard? <;> rfl

theorem Tallied.receive (h : Tallied inbox t e.before) (tally : e.after.tally = e.before.tally)
    (mail : inbox e.after.world = inbox e.before.world ++ e.calls.filterMap Activity.heard?) :
    Tallied inbox (t ++ [e]) e.after := by
  obtain ⟨collected, same, all⟩ := h
  refine ⟨collected, tally.trans same, ?_⟩
  rw [mail, List.flatMap_append, List.flatMap_singleton, List.filterMap_append, ← all,
    List.append_assoc]

theorem Tallied.act (h : Tallied inbox t a) (posts : v.Posts s f inbox) (act : Acts v a calls a') :
    Tallied inbox (t ++ [⟨a, .interface, (), calls, a'⟩]) a' := by
  rcases act.asks with ⟨m, asked, rfl, after, tally⟩ | ⟨-, rfl, -, kept | drained⟩
  · have step := Pump.serves v.surroundings (host_of_move? asked).1 (a.pump, a.world)
    have mail := posts.shows.replays step.replays
    rw [foldl_mail] at mail
    refine h.receive tally ?_
    rw [show a'.world = _ from congrArg Prod.snd after]
    exact mail
  · obtain ⟨world, tally⟩ := Prod.mk.inj kept
    exact h.receive tally (by simp [world])
  · obtain ⟨collected, same, all⟩ := h
    obtain ⟨world, tally⟩ := Prod.mk.inj drained
    refine ⟨collected ++ inbox a.world, ?_, ?_⟩
    · rw [tally, List.foldl_append, ← same, ← posts.collects]
      rfl
    · rw [world, all, show inbox (a.drain v).world = [] from posts.emptied a.world]
      simp

theorem tallied_of_run (posts : v.Posts s f inbox) (empty : inbox w = [])
    (run : (machine v).Run (start o w) t a) : Tallied inbox t a := by
  refine turn_induction (Q := Tallied inbox) ?_ ?_ ?_ run
  · exact ⟨[], rfl, empty⟩
  · intro t a due calls p w _ h step
    have mail := posts.shows.replays step.replays
    rw [foldl_mail] at mail
    exact h.receive rfl mail
  · intro t a calls a' _ h _ act
    exact h.act posts act

def failed (t : List (Entry ω)) : Nat :=
  ((t.flatMap (·.calls)).filterMap Activity.rendered?).countP (!·.accepted)

section Pumped

variable {u : List (Pump.Entry Unit Unit Unit ω')} {reason : StopReason}
  {result : Except RunError Report} {files : ω' → Path → Except String ByteArray}
  {screen : ω' → Screen} (pumped : Pumped s f (start o w) t a u)

include pumped

theorem Pumped.counts (exited : a.pump.phase = .exited reason) :
    a.pump.frames = .ofNat (drawn t) ∧ a.pump.failures = .ofNat (failed t) := by
  obtain ⟨results, counted⟩ := Pump.Counted.of_run pumped.run
  have all : a.pump.phase.uncounted = [] := by rw [exited]; rfl
  refine ⟨(counted.frames_of_uncounted all).trans ?_, (counted.failures_of_uncounted all).trans ?_⟩
  · rw [Pump.renders, pumped.calls]
    rfl
  · rw [Pump.renders, pumped.calls]
    rfl

theorem Pumped.tally (posts : v.Posts s f inbox) (exited : a.pump.phase = .exited reason)
    (outbox : a.pump.outbox = []) (tallied : Tallied inbox t a) (empty : inbox a.world = []) :
    a.tally = ⟨(t.flatMap (·.calls)).countP Activity.takesRom,
      (t.flatMap (·.calls)).countP Activity.takesSize, some reason⟩ := by
  obtain ⟨collected, same, all⟩ := tallied
  have heard : collected = Pump.heard u := by
    rw [Pump.heard, pumped.calls, ← all, empty, List.append_nil]
  have stays := Pump.stays_of_run pumped.run posts.hears pumped.listens
  have told : a.pump.untold = [] := by
    rw [Pump.untold, exited, outbox]
    rfl
  have roms := Pump.romsLoaded_of_run pumped.run stays told
  have sizes := Pump.resizesPushed_of_run pumped.run stays (by rw [exited]; rfl)
  have only (other : StopReason) (stop : .pumpStopped other ∈ Pump.heard u) : other = reason :=
    Phase.exited.inj ((Pump.exited_of_heard pumped.run stop).symm.trans exited)
  have stop := Pump.heard_of_exited pumped.run stays exited
  rw [pumped.calls] at roms sizes
  rw [same, heard, Tally.foldl_eq only stop, roms, sizes]

theorem Pumped.createFailed_iff (draws : s.Draws files o.failEvery screen)
    (exited : a.pump.phase = .exited reason) : reason = .createFailed ↔ o.failEvery = some 0 := by
  have stops : a.pump.phase.reason? = some reason := by rw [exited]; rfl
  obtain ⟨w, made⟩ := Pump.made_of_run pumped.run stops
  rw [made, draws.createFailed_iff]

theorem Pumped.limit {count : UInt32}
    (exited : a.pump.phase = .exited (.renderFailures count)) :
    count = o.failureLimit ∧ 0 < o.failureLimit := by
  have stops : a.pump.phase.reason? = some (.renderFailures count) := by rw [exited]; rfl
  obtain ⟨results, counted⟩ := Pump.Counted.of_run pumped.run
  obtain ⟨limit, hl, rfl⟩ := counted.limit stops
  rw [(Pump.config_of_run pumped.run).1] at hl
  change (if o.failureLimit = 0 then none else some o.failureLimit) = some limit at hl
  split at hl
  · cases hl
  · rename_i nonzero
    obtain rfl := Option.some.inj hl
    have positive : 0 < o.failureLimit.toNat :=
      Nat.pos_of_ne_zero fun h => nonzero (UInt32.toNat_inj.1 h)
    refine ⟨UInt32.toNat_inj.1 ?_, positive⟩
    rw [Pump.toNat_max_one]
    omega

theorem Pumped.ending (exited : a.pump.phase = .exited reason)
    (created : reason ≠ .createFailed) (done : Done o t a) :
    reason = .renderFailures o.failureLimit ∧ 0 < o.failureLimit ∨
      reason = .requested ∧ o.resizes.length ≤ a.schedule.applied ∧ o.frames.toNat ≤ drawn t := by
  cases reason with
  | createFailed => exact absurd rfl created
  | renderFailures count =>
    obtain ⟨rfl, positive⟩ := Pumped.limit pumped exited
    exact .inl ⟨rfl, positive⟩
  | requested =>
    refine .inr ⟨rfl, done.resolve_left fun ⟨other, unasked, stops⟩ => ?_⟩
    rw [exited] at stops
    exact unasked (Option.some.inj stops).symm

end Pumped

theorem result_of_run {result : Except RunError Report} (posts : v.Posts s f inbox)
    (visible : o.Visible) (empty : inbox w = []) (run : (machine v).Run (start o w) t a)
    (hs : a.result? = some result) :
    ∃ u reason, Pumped s f (start o w) t a u ∧ a.pump.phase = .exited reason ∧
      a.tally = ⟨(t.flatMap (·.calls)).countP Activity.takesRom,
        (t.flatMap (·.calls)).countP Activity.takesSize, some reason⟩ ∧
      result = a.report v ∧ Done o t a := by
  rw [result?_eq_some] at hs
  have course := OnCourse.of_run posts.mirrors posts.kept visible run
  have last : a.scene.closing = 3 := by rw [hs]; rfl
  obtain ⟨reason, exited⟩ := course.exited (Nat.le_of_eq last.symm)
  obtain ⟨rfl, _, emptied⟩ := course.result result hs
  have outbox : a.pump.outbox = [] := by
    have few := course.outbox
    rw [hs] at few
    exact List.eq_nil_of_length_eq_zero (Nat.le_zero.1 few)
  obtain ⟨u, pumped⟩ := Pumped.of_run posts.mirrors posts.kept run
  have read : inbox a.world = [] := by rw [emptied, posts.emptied]
  have tally := Pumped.tally pumped posts exited outbox (tallied_of_run posts empty run) read
  exact ⟨u, reason, pumped, exited, tally, rfl, course.done (by rw [last]; decide)⟩

/-- The report of a run that has been set up by a command line is truthful. No size is refused, and
all are reported in their order. A run fails if and only if there is no core. Otherwise it reports
what the core did, and it ends because as many frames in a row failed as were allowed, or when the
frames and the resizes are done. The counters have 64 bits: once as many frames have been drawn as
they can hold, the report gives the rest. -/
theorem report_is_truthful {read : Path → Except String ByteArray} {arguments : List Argument}
    {o : Options} {t : List (Entry Stage)} {a : App Stage}
    (accepted : CommandLine.parse arguments = .ok o)
    (run : (machine (Stage.venue read o.failEvery)).Run (start o {}) t a) :
    (reported t <+: o.size :: o.resizes ∧
      ∀ e ∈ t, ∀ z, reported? e = some z →
        ∃ changed, e.before.pump.setDrawableSize z = (.ok changed, e.after.pump)) ∧
    ∀ result, a.result? = some result →
      o.failEvery = some 0 ∧ result = .error .noCore ∨
      o.failEvery ≠ some 0 ∧ ∃ r, result = .ok r ∧
        r.frames = .ofNat (drawn t) ∧ r.renderFailures = .ofNat (failed t) ∧
        r.resizesPushed = (t.flatMap (·.calls)).countP Activity.takesSize ∧
        r.romsLoaded = (t.flatMap (·.calls)).countP Activity.takesRom ∧
        (r.stopReason = some (.renderFailures o.failureLimit) ∧ 0 < o.failureLimit ∨
          r.stopReason = some .requested ∧ o.frames.toNat ≤ drawn t ∧
            (drawn t < UInt64.size → o.frames ≤ r.frames) ∧
            reported t = o.size :: o.resizes ∧ r.finalSize = o.resizes.getLastD o.size) := by
  have visible := Options.visible_of_parse accepted
  have sized := Sized.of_run visible run
  refine ⟨⟨sized.reported_prefix, fun e he z hz => ?_⟩, fun result hs => ?_⟩
  · have shown := sized.isVisible_of_reported visible he hz
    obtain ⟨before, after, rfl⟩ := List.append_of_mem he
    exact setDrawableSize_of_reported run hz shown
  · obtain ⟨u, reason, pumped, exited, tally, rfl, done⟩ :=
      result_of_run (Stage.posts read o.failEvery) visible rfl run hs
    obtain ⟨frames, failures⟩ := Pumped.counts pumped exited
    have refused := Pumped.createFailed_iff pumped (Screen.draws read o.failEvery) exited
    simp only [report, tally, Option.some.injEq, refused]
    split
    · exact .inl ⟨‹_›, rfl⟩
    · rename_i made
      refine .inr ⟨made, _, rfl, frames, failures, rfl, rfl, ?_⟩
      rcases Pumped.ending pumped exited (mt refused.1 made) done with
        ⟨rfl, positive⟩ | ⟨rfl, all, enough⟩
      · exact .inl ⟨rfl, positive⟩
      · have opened : a.scene ≠ .opening := by simp [result?_eq_some.1 hs]
        obtain ⟨planned, size⟩ := sized.latest opened all
        refine .inr ⟨rfl, enough, fun small => ?_, planned, size⟩
        rw [frames]
        exact UInt64.le_iff_toNat_le.2 ((UInt64.toNat_ofNat_of_lt' small).symm ▸ enough)

theorem rom_and_sizes_reported : ∃ o t a r,
    CommandLine.parse (["--frames", "1", "--size", "1x1", "--resize", "2x1", "--rom", "a"].map
      CommandLine.bytes) = .ok o ∧
      (machine (Stage.venue (fun _ => .ok ⟨#[7]⟩) o.failEvery)).Run (start o {}) t a ∧
      a.result? = some (.ok r) ∧ r.stopReason = some .requested ∧
      r.frames = .ofNat (drawn t) ∧ 1 ≤ drawn t ∧ r.romsLoaded = 1 ∧
      (t.flatMap (·.calls)).countP Activity.takesRom = 1 ∧
      reported t = [⟨1, 1⟩, ⟨2, 1⟩] ∧ r.finalSize = ⟨2, 1⟩ := by
  let o : Options := { frames := 1, size := ⟨1, 1⟩, resizes := [⟨2, 1⟩], roms := [⟨[97]⟩] }
  obtain ⟨t, a, run, ended⟩ : ∃ t a,
      (machine (Stage.venue (fun _ => .ok ⟨#[7]⟩) o.failEvery)).Run (start o {}) t a ∧
        (a.result?.bind Except.toOption).any fun r =>
          r.stopReason = some .requested && r.romsLoaded = 1 :=
    Machine.Run.of_decided
      (.replicate 2 .interface ++ .replicate 3 (.pump true) ++ .replicate 3 .interface ++
        .replicate 12 (.pump true) ++ .replicate 4 .interface ++ .replicate 12 (.pump true) ++
        .replicate 5 .interface ++ .replicate 5 (.pump true) ++ .replicate 2 .interface)
      (by decide +kernel)
  obtain ⟨r, found, told⟩ := (Option.any_eq_true _ _).1 ended
  obtain ⟨result, hs, same⟩ := Option.bind_eq_some_iff.1 found
  have accepted : CommandLine.parse (["--frames", "1", "--size", "1x1", "--resize", "2x1", "--rom",
    "a"].map CommandLine.bytes) = .ok o := rfl
  rcases (report_is_truthful accepted run).2 result hs with ⟨refused, -⟩ |
    ⟨-, r', rfl, frames, -, -, roms, ending⟩
  · cases refused
  · obtain rfl : r' = r := Option.some.inj same
    simp only [Bool.and_eq_true, decide_eq_true_eq] at told
    rcases ending with ⟨stop, -⟩ | ⟨stop, enough, -, sizes, last⟩
    · cases told.1.symm.trans stop
    · exact ⟨o, t, a, r', accepted, run, hs, stop, frames, enough, told.2, roms ▸ told.2, sizes,
        last⟩

end App

end Headless

end EmulatorHost
