import EmulatorHost.Lockstep.Script
import EmulatorHost.Proofs.Pump.Custody
import EmulatorHost.Proofs.Pump.Stopping

namespace EmulatorHost

structure Coordinator.TornDown {κ : Type} (c : Coordinator κ) : Prop where
  core : c.core = none
  parkedRom : c.parkedRom = none
  romLoaded : c.romLoaded = false
  stopped : c.stopped = true

theorem Coordinator.tornDown_takeCore {κ : Type} (c : Coordinator κ) : c.takeCore.2.TornDown :=
  ⟨rfl, rfl, rfl, rfl⟩

namespace Phase

variable {κ : Type}

def isTornDown : Phase κ → Bool
  | .dropping .. | .dropped _ | .announcingStop _ | .exited _ => true
  | _ => false

def hasEnded : Phase κ → Bool
  | .announcingStop _ | .exited _ => true
  | _ => false

def isSpent : Phase κ → Bool
  | .dropped _ | .announcingStop _ | .exited _ => true
  | _ => false

theorem isSpent_of_hasEnded {phase : Phase κ} (h : phase.hasEnded) : phase.isSpent := by
  cases phase <;> first | rfl | cases h

theorem isTornDown_of_hasEnded {phase : Phase κ} (h : phase.hasEnded) : phase.isTornDown := by
  cases phase <;> first | rfl | cases h

theorem exited_of_isExited {phase : Phase κ} (h : phase.isExited = true) :
    ∃ reason, phase = .exited reason := by
  cases phase with
  | exited reason => exact ⟨reason, rfl⟩
  | _ => cases h

end Phase

namespace Activity

variable {κ σ η : Type}

def created? : Activity κ σ η → Option κ
  | .created (.ok core) => some core
  | _ => none

def dropped? : Activity κ σ η → Option κ
  | .dropped core => some core
  | _ => none

theorem toCore_of_created {call : Activity κ σ η} {core : κ} (h : call.created? = some core) :
    call.isToCore = true := by
  cases call <;> first | rfl | cases h

theorem toCore_of_dropped {call : Activity κ σ η} {core : κ} (h : call.dropped? = some core) :
    call.isToCore = true := by
  cases call <;> first | rfl | cases h

theorem created?_of_used {uses : List (Activity κ σ η)} {core : κ}
    (h : ∀ call ∈ uses, call.used? = some core) : uses.filterMap created? = [] := by
  refine List.filterMap_eq_nil_iff.2 fun call hc => ?_
  have used := h call hc
  cases call <;> first | rfl | cases used

theorem dropped?_of_used {uses : List (Activity κ σ η)} {core : κ}
    (h : ∀ call ∈ uses, call.used? = some core) : uses.filterMap dropped? = [] := by
  refine List.filterMap_eq_nil_iff.2 fun call hc => ?_
  have used := h call hc
  cases call <;> first | rfl | cases used

end Activity

namespace Custody

variable {κ σ η : Type} {custody : Custody κ} {calls : List (Activity κ σ η)}

def created? : Custody κ → Option κ
  | .held core | .returned core => some core
  | _ => none

def returned? : Custody κ → Option κ
  | .returned core => some core
  | _ => none

theorem returned?_of_isOver (h : custody.isOver = true) : custody.returned? = custody.created? := by
  cases custody <;> first | rfl | cases h

theorem Covers.created (h : custody.Covers calls) :
    calls.filterMap Activity.created? = custody.created?.toList := by
  cases h with
  | awaited | denied => rfl
  | @held core _ used => exact congrArg (core :: ·) (Activity.created?_of_used used)
  | returned used =>
    rw [List.filterMap_append, List.filterMap_cons, Activity.created?_of_used used]
    rfl

theorem Covers.dropped (h : custody.Covers calls) :
    calls.filterMap Activity.dropped? = custody.returned?.toList := by
  cases h with
  | awaited | denied => rfl
  | held used =>
    rw [List.filterMap_cons, Activity.dropped?_of_used used]
    rfl
  | returned used =>
    rw [List.filterMap_append, List.filterMap_cons, Activity.dropped?_of_used used]
    rfl

end Custody

namespace Pump

variable {κ σ η ω : Type} {s : Surroundings κ σ η ω} {due : Bool} {m : Move η} {answer : Answer}
  {calls : List (Activity κ σ η)} {x x' : Pump κ σ η × ω} {t : List (Entry κ σ η ω)}
  {e : Entry κ σ η ω} {p : Pump κ σ η} {event : Notification} {next : Phase κ} {config : Config}
  {surface : σ} {subscriber : Option η} {w : ω} {custody : Custody κ} {reason : StopReason}

def created (t : List (Entry κ σ η ω)) : List κ :=
  (t.flatMap (·.calls)).filterMap Activity.created?

def dropped (t : List (Entry κ σ η ω)) : List κ :=
  (t.flatMap (·.calls)).filterMap Activity.dropped?

theorem filterMap_toCore {α : Type} {g : Activity κ σ η → Option α}
    (h : ∀ {call found}, g call = some found → call.isToCore = true)
    (calls : List (Activity κ σ η)) : (toCore calls).filterMap g = calls.filterMap g := by
  induction calls with
  | nil => rfl
  | cons call rest ih =>
    cases hg : g call with
    | none =>
      rw [List.filterMap_cons_none hg, ← ih, toCore, List.filter_cons]
      split
      · rw [List.filterMap_cons_none hg, toCore]
      · rfl
    | some found =>
      rw [toCore, List.filter_cons_of_pos (h hg), List.filterMap_cons_some hg,
        List.filterMap_cons_some hg, ← ih, toCore]

theorem Keeps.filterMap_created (h : Keeps calls p custody) :
    calls.filterMap Activity.created? = custody.created?.toList := by
  rw [← h.covers.created, filterMap_toCore Activity.toCore_of_created]

theorem Keeps.created (h : Keeps (t.flatMap (·.calls)) p custody) :
    Pump.created t = custody.created?.toList := h.filterMap_created

theorem Keeps.dropped (h : Keeps (t.flatMap (·.calls)) p custody) :
    Pump.dropped t = custody.returned?.toList := by
  rw [← h.covers.dropped, filterMap_toCore Activity.toCore_of_dropped]
  rfl

structure Settled (p : Pump κ σ η) : Prop where
  running : p.running = !p.phase.hasEnded
  tornDown : p.phase.isTornDown → p.coordinator.TornDown
  outbox : ∀ event ∈ p.outbox, ∃ load, event = romNotice load

theorem afterFailure_isTornDown (config : Config) (streak : UInt32) :
    (afterFailure config streak : Phase κ).isTornDown = false := by
  rcases @afterFailure_eq κ config streak with h | h <;> rw [h] <;> rfl

theorem Announces.isTornDown (h : Announces p event next) :
    next.isTornDown = p.phase.isTornDown := by
  cases h with
  | failure hp => rw [hp, afterFailure_isTornDown]; rfl
  | _ hp => rw [hp]; rfl

theorem Announces.hasEnded (h : Announces p event next) : next.hasEnded = p.phase.hasEnded := by
  cases h with
  | failure hp =>
    rcases afterFailure_eq p.config p.streak with hn | hn <;> rw [hp, hn] <;> rfl
  | _ hp => rw [hp]; rfl

theorem Passes.isTornDown (h : Passes due p next) : next.isTornDown = p.phase.isTornDown := by
  cases h <;> simp [*, Phase.isTornDown]

theorem Passes.hasEnded (h : Passes due p next) : next.hasEnded = p.phase.hasEnded := by
  cases h <;> simp [*, Phase.hasEnded]

namespace Settled

theorem start (config : Config) (surface : σ) (subscriber : Option η) :
    Settled (Pump.start config surface subscriber : Pump κ σ η) :=
  ⟨rfl, nofun, by simp [Pump.start]⟩

theorem hasEnded (h : Settled p) (ended : p.running = false) : p.phase.hasEnded = true := by
  simpa [h.running] using ended

theorem coordinator (h : Settled p) (ended : p.running = false) : p.coordinator.TornDown :=
  h.tornDown (Phase.isTornDown_of_hasEnded (h.hasEnded ended))

theorem advance (h : Settled x.1) (step : Advances s due x calls x') : Settled x'.1 := by
  obtain ⟨running, tornDown, outbox⟩ := h
  cases step with
  | announced ha =>
    exact ⟨by rw [running, ha.hasEnded], fun torn => tornDown (ha.isTornDown ▸ torn), outbox⟩
  | passed hp =>
    exact ⟨running.trans (by rw [← hp.hasEnded]; rfl), fun torn => tornDown (hp.isTornDown ▸ torn),
      outbox⟩
  | tornDown hp =>
    refine ⟨?_, fun _ => Coordinator.tornDown_takeCore _, outbox⟩
    rw [hp] at running
    exact running
  | dropped hp =>
    rw [hp] at running tornDown
    exact ⟨running, tornDown, outbox⟩
  | ended hp =>
    rw [hp] at tornDown
    exact ⟨rfl, tornDown, outbox⟩
  | rested => exact ⟨running, tornDown, outbox⟩
  | created hp | refused hp | installed hp | loaded hp | missed hp | rendered hp | pushed hp
  | counted hp | failed hp =>
    rw [hp] at running
    exact ⟨running, nofun, outbox⟩

theorem serve (h : Settled x.1) (step : Serves s m x answer calls x') : Settled x'.1 := by
  obtain ⟨running, tornDown, outbox⟩ := h
  cases step with
  | resized => exact ⟨running, fun torn => ⟨(tornDown torn).core, (tornDown torn).parkedRom,
      (tornDown torn).romLoaded, (tornDown torn).stopped⟩, outbox⟩
  | parked _ _ hs =>
    exact ⟨running, fun torn => absurd (tornDown torn).stopped (by simp [hs]), outbox⟩
  | asked _ _ hs =>
    refine ⟨running, fun torn => absurd (tornDown torn).stopped (by simp [hs]), fun event he => ?_⟩
    rcases List.mem_append.1 he with he | he
    · exact outbox event he
    · exact ⟨_, List.mem_singleton.1 he⟩
  | told =>
    exact ⟨running, tornDown, fun event he => outbox event (List.mem_of_mem_eraseIdx he)⟩
  | _ => exact ⟨running, tornDown, outbox⟩

theorem episode (h : Settled x.1) (s : Surroundings κ σ η ω) (m : Move η) :
    Settled ((machine s).episode m x).after.1 := by
  by_cases thread : m.isAdvance
  · obtain ⟨due, rfl⟩ := Move.eq_advance thread
    exact h.advance (advances s due x)
  · exact h.serve (serves s thread x)

theorem of_run (run : (machine s).Run (Pump.start config surface subscriber, w) t x) :
    Settled x.1 := by
  induction run with
  | start => exact start config surface subscriber
  | next m _ _ ih => exact ih.episode s m

end Settled

inductive Broadcasts (event : Notification) (e : Entry κ σ η ω) : Prop
  | thread {next : Phase κ} (hm : e.move.isAdvance) (h : Announces e.before.1 event next)
  | host {i : Nat} (hm : e.move = .notify i) (h : e.before.1.outbox[i]? = some event)

theorem romNotice_ne_pumpStopped (load : DeferredLoad) (reason : StopReason) :
    romNotice load ≠ .pumpStopped reason := by
  rcases load with ⟨path, _ | _⟩ <;> exact nofun

theorem resizeNotice_ne_pumpStopped (r : Except CoreError Size) (reason : StopReason) :
    resizeNotice r ≠ .pumpStopped reason := by
  cases r <;> exact nofun

theorem Announces.of_pumpStopped (h : Announces p event next) (stop : event = .pumpStopped reason) :
    p.phase = .announcingStop reason ∧ next = .exited reason := by
  cases h with
  | rom => exact absurd stop (romNotice_ne_pumpStopped _ _)
  | resize => exact absurd stop (resizeNotice_ne_pumpStopped _ _)
  | stop hp =>
    obtain rfl := Notification.pumpStopped.inj stop
    exact ⟨hp, rfl⟩
  | _ => cases stop

theorem Settled.announcingStop (h : Settled e.before.1) (stop : Broadcasts (.pumpStopped reason) e) :
    e.move.isAdvance ∧ e.before.1.phase = .announcingStop reason := by
  cases stop with
  | thread hm ha => exact ⟨hm, (ha.of_pumpStopped rfl).1⟩
  | host hm hi =>
    obtain ⟨load, hl⟩ := h.outbox _ (List.mem_of_getElem? hi)
    exact absurd hl.symm (romNotice_ne_pumpStopped load reason)

theorem Tells.event_of_delivered {n n' : Notifier η × ω} (h : Tells s event n calls n') {l : η}
    {other : Notification} {heard : Bool} (he : .delivered l other heard ∈ calls) :
    other = event := by
  cases h <;> simp at he
  · exact he.2.1
  · exact he.2.1

theorem Advances.broadcasts (h : Advances s due x calls x') {l : η} {heard : Bool}
    (he : .delivered l event heard ∈ calls) :
    Broadcasts event ⟨x, .advance due, .silent, calls, x'⟩ := by
  cases h with
  | announced ha ht =>
    obtain rfl := ht.event_of_delivered he
    exact .thread rfl ha
  | @installed p => cases hc : p.coordinator.core <;> simp [hc] at he
  | @loaded p => cases hc : p.coordinator.core <;> simp [hc] at he
  | _ => simp at he

theorem Serves.broadcasts (h : Serves s m x answer calls x') {l : η} {heard : Bool}
    (he : .delivered l event heard ∈ calls) : Broadcasts event ⟨x, m, answer, calls, x'⟩ := by
  cases h with
  | told hi ht =>
    obtain rfl := ht.event_of_delivered he
    exact .host rfl hi
  | @subscribed p | @unsubscribed p => cases hl : p.notifier.subscriber <;> simp [hl] at he
  | _ => simp at he

structure Idle (e : Entry κ σ η ω) : Prop where
  running : e.after.1.running = false
  uncalled : toCore e.calls = []
  frames : e.after.1.frames = e.before.1.frames
  failures : e.after.1.failures = e.before.1.failures
  refused : ∀ path, e.move.path? = some path → path.isEmpty = false →
    e.answer = .picked (.error .stopped)
  absent : e.move = .inspect → e.answer = .inspected false

theorem Advances.idle (h : Advances s due x calls x') (settled : Settled x.1)
    (ended : x.1.running = false) : Idle ⟨x, .advance due, .silent, calls, x'⟩ := by
  have past := settled.hasEnded ended
  cases h with
  | announced ha ht => exact ⟨ended, ht.not_toCore, rfl, rfl, nofun, nofun⟩
  | passed => exact ⟨ended, rfl, rfl, rfl, nofun, nofun⟩
  | ended | rested => exact ⟨by first | rfl | exact ended, rfl, rfl, rfl, nofun, nofun⟩
  | created hp | refused hp | installed hp | loaded hp | missed hp | rendered hp | pushed hp
  | counted hp | failed hp | tornDown hp | dropped hp =>
    rw [hp] at past
    cases past

theorem Serves.uncalled (h : Serves s m x answer calls x') (gone : x.1.coordinator.core = none) :
    toCore calls = [] := by
  cases h with
  | asked _ _ _ hc => cases hc.symm.trans gone
  | told _ ht => exact ht.not_toCore
  | @subscribed p | @unsubscribed p => cases p.notifier.subscriber <;> rfl
  | _ => rfl

theorem Serves.idle (h : Serves s m x answer calls x') (settled : Settled x.1)
    (ended : x.1.running = false) : Idle ⟨x, m, answer, calls, x'⟩ := by
  have same := h.untouched
  have gone := settled.coordinator ended
  refine ⟨same.running.trans ended, h.uncalled gone.core, same.frames, same.failures, ?_, ?_⟩
  · intro path hm named
    cases h with
    | unnamed hm' empty =>
      obtain rfl := Option.some.inj (hm'.symm.trans hm)
      cases empty.symm.trans named
    | refused => rfl
    | parked _ _ hs => cases hs.symm.trans gone.stopped
    | asked _ _ hs => cases hs.symm.trans gone.stopped
    | _ => cases hm
  · rintro rfl
    cases h with
    | inspected =>
      have none := gone.core
      simp_all
    | unnamed hm | refused hm | parked hm | asked hm => cases hm

theorem Serves.dropped (h : Serves s m x answer calls x') :
    calls.filterMap Activity.dropped? = [] := by
  cases h with
  | told _ ht =>
    rw [← filterMap_toCore Activity.toCore_of_dropped, toCore, ht.not_toCore]
    rfl
  | @subscribed p | @unsubscribed p => cases p.notifier.subscriber <;> rfl
  | _ => rfl

theorem Keeps.isOver (h : Keeps calls p custody) (spent : p.phase.isSpent) :
    custody.isOver = true ∧ p.coordinator.core = none := by
  have fits := h.fits
  cases hp : p.phase with
  | dropped _ | announcingStop _ | exited _ =>
    rw [hp] at fits
    exact fits
  | _ =>
    rw [hp] at spent
    cases spent

theorem Advances.of_isSpent (h : Advances s due x calls x') (spent : x.1.phase.isSpent) :
    x'.1.phase.isSpent ∧ x'.1.coordinator = x.1.coordinator ∧ toCore calls = [] := by
  cases h with
  | announced ha ht =>
    refine ⟨?_, rfl, ht.not_toCore⟩
    cases ha with
    | stop => rfl
    | _ hp =>
      rw [hp] at spent
      cases spent
  | passed hp =>
    cases hp with
    | _ hp =>
      rw [hp] at spent
      cases spent
  | ended | rested => exact ⟨by first | rfl | exact spent, rfl, rfl⟩
  | created hp | refused hp | installed hp | loaded hp | missed hp | rendered hp | pushed hp
  | counted hp | failed hp | tornDown hp | dropped hp =>
    rw [hp] at spent
    cases spent

theorem uncalled_of_isSpent (spent : p.phase.isSpent) (gone : p.coordinator.core = none)
    (s : Surroundings κ σ η ω) (m : Move η) (w : ω) :
    let e := (machine s).episode m (p, w)
    toCore e.calls = [] ∧ e.after.1.phase.isSpent ∧ e.after.1.coordinator.core = none := by
  by_cases thread : m.isAdvance
  · obtain ⟨due, rfl⟩ := Move.eq_advance thread
    obtain ⟨later, same, quiet⟩ := (advances s due (p, w)).of_isSpent spent
    exact ⟨quiet, later, same ▸ gone⟩
  · have step := serves s thread (p, w)
    have same := step.untouched
    exact ⟨step.uncalled gone, same.phase ▸ spent, same.core ▸ gone⟩

theorem uncalled_of_run (run : (machine s).Run x t x') (spent : x.1.phase.isSpent)
    (gone : x.1.coordinator.core = none) :
    toCore (t.flatMap (·.calls)) = [] ∧ x'.1.phase.isSpent ∧ x'.1.coordinator.core = none := by
  induction run with
  | start => exact ⟨rfl, spent, gone⟩
  | next m _ _ ih =>
    obtain ⟨silent, spent, gone⟩ := ih
    obtain ⟨quiet, later⟩ := uncalled_of_isSpent spent gone s m _
    exact ⟨by simp [silent, quiet], later⟩

theorem Advances.isSpent (h : Advances s due x calls x') (ended : x'.1.phase.hasEnded) :
    x.1.phase.isSpent := by
  cases h with
  | announced ha => exact Phase.isSpent_of_hasEnded (ha.hasEnded ▸ ended)
  | passed hp => exact Phase.isSpent_of_hasEnded (hp.hasEnded ▸ ended)
  | ended hp =>
    rw [hp]
    rfl
  | rested => exact Phase.isSpent_of_hasEnded ended
  | _ => cases ended

def ShowsEnd (e : Entry κ σ η ω) : Prop :=
  e.after.1.running = false ∨ ∃ reason, Broadcasts (.pumpStopped reason) e

section Runs

variable {before middle after : List (Entry κ σ η ω)} {f : Entry κ σ η ω}

theorem ShowsEnd.isSpent (shows : ShowsEnd e)
    (run : (machine s).Run (start config surface subscriber, w) (before ++ e :: after) x) :
    e.before.1.phase.isSpent := by
  obtain ⟨first, allowed, same, -⟩ := run.split
  rcases shows with ended | ⟨reason, stop⟩
  · have later := first.next e.move allowed
    rw [← same] at later
    have past := (Settled.of_run later).hasEnded ended
    by_cases thread : e.move.isAdvance
    · obtain ⟨due, step⟩ := advances_of_mem run (by simp) thread
      exact step.isSpent past
    · rw [(serves_of_mem run (by simp) thread).untouched.phase] at past
      exact Phase.isSpent_of_hasEnded past
  · rw [((Settled.of_run first).announcingStop stop).2]
    rfl

theorem dropped_eq_created (shows : ShowsEnd e)
    (run : (machine s).Run (start config surface subscriber, w) (before ++ e :: after) x) :
    dropped before = created (before ++ e :: after) := by
  have spent := shows.isSpent run
  obtain ⟨first, allowed, same, later⟩ := run.split
  obtain ⟨custody, keeps⟩ := Keeps.of_run first
  obtain ⟨ended, gone⟩ := keeps.isOver spent
  rw [same] at later
  have silent := (uncalled_of_run (later.cons e.move allowed) spent gone).1
  rw [← same] at silent
  have uncreated : created (e :: after) = [] := by
    rw [created, ← filterMap_toCore Activity.toCore_of_created, silent]
    rfl
  calc dropped before = custody.returned?.toList := keeps.dropped
    _ = custody.created?.toList := by rw [Custody.returned?_of_isOver ended]
    _ = created before := keeps.created.symm
    _ = created before ++ created (e :: after) := by rw [uncreated, List.append_nil]
    _ = created (before ++ e :: after) := by
      rw [created, created, created, List.flatMap_append, List.filterMap_append]

theorem told_once {reason' : StopReason}
    (run : (machine s).Run (start config surface subscriber, w)
      (before ++ e :: (middle ++ f :: after)) x)
    (stop : Broadcasts (.pumpStopped reason) e) : ¬ Broadcasts (.pumpStopped reason') f := by
  intro again
  rw [← List.cons_append, ← List.append_assoc] at run
  have early := run.split.1
  obtain ⟨first, allowed, same, later⟩ := early.split
  obtain ⟨thread, hp⟩ := (Settled.of_run first).announcingStop stop
  rw [same] at later
  have bound : Bound e.before.1.config e.before.1.streak reason e.before.1.phase := by
    rw [hp]
    rfl
  have near : e.before.1.phase.remaining ≤ 1 := by
    rw [hp]
    exact Nat.le_refl _
  have exits := exits_of_bound (later.cons e.move allowed) bound near
  have exited := exits.2 (by simp [steps, Machine.episode, thread])
  have announcing := ((Settled.of_run early).announcingStop again).2
  cases exited.symm.trans announcing

end Runs

/-- The core that was created is dropped once, by the thread, before anyone can see or hear that
the pump has ended. From then on the coordinator is empty and stays so, no core is called, nothing
is counted, each ROM is refused, and the stop is told once. -/
theorem teardown_is_complete_and_permanent {s : Surroundings κ σ η ω} {config : Config}
    {surface : σ} {subscriber : Option η} {w w' : ω} {t : List (Entry κ σ η ω)} {p : Pump κ σ η}
    (run : (machine s).Run (start config surface subscriber, w) t (p, w')) :
    (p.running = false → p.coordinator.TornDown ∧ dropped t = created t) ∧
    ((created t).length ≤ 1 ∧ (dropped t = [] ∨ dropped t = created t) ∧
      (hostCalls t).filterMap Activity.dropped? = []) ∧
    (∀ before e after, t = before ++ e :: after → ShowsEnd e → dropped before = created t) ∧
    (∀ e ∈ t, e.before.1.running = false → Idle e) ∧
    (∀ e ∈ t, ∀ l event heard, .delivered l event heard ∈ e.calls → Broadcasts event e) ∧
    (∀ e ∈ t, ∀ reason, Broadcasts (.pumpStopped reason) e → e.move.isAdvance) ∧
    ∀ before e middle f after reason reason', t = before ++ e :: (middle ++ f :: after) →
      Broadcasts (.pumpStopped reason) e → ¬ Broadcasts (.pumpStopped reason') f := by
  have settled := Settled.of_run run
  obtain ⟨custody, keeps⟩ := Keeps.of_run run
  have settledBefore : ∀ e ∈ t, Settled e.before.1 := by
    intro e he
    obtain ⟨before, after, rfl⟩ := List.append_of_mem he
    exact Settled.of_run run.split.1
  refine ⟨fun ended => ⟨settled.coordinator ended, ?_⟩, ⟨?_, ?_, ?_⟩, ?_, ?_, ?_, ?_, ?_⟩
  · have spent := Phase.isSpent_of_hasEnded (settled.hasEnded ended)
    rw [keeps.dropped, keeps.created, Custody.returned?_of_isOver (keeps.isOver spent).1]
  · rw [keeps.created]
    cases custody.created? <;> simp
  · rw [keeps.dropped, keeps.created]
    cases custody with
    | returned core => exact .inr rfl
    | _ => exact .inl rfl
  · refine List.filterMap_eq_nil_iff.2 fun call hc => ?_
    obtain ⟨e, he, hcall⟩ := List.mem_flatMap.1 hc
    obtain ⟨he, host⟩ := List.mem_filter.1 he
    have step := serves_of_mem run he (by simpa using host)
    exact List.filterMap_eq_nil_iff.1 step.dropped call hcall
  · rintro before e after rfl shows
    exact dropped_eq_created shows run
  · intro e he ended
    by_cases thread : e.move.isAdvance
    · obtain ⟨due, step⟩ := advances_of_mem run he thread
      have idle := step.idle (settledBefore e he) ended
      obtain ⟨due', hm⟩ := Move.eq_advance thread
      exact ⟨idle.running, idle.uncalled, idle.frames, idle.failures, by simp [hm, Move.path?],
        by simp [hm]⟩
    · exact (serves_of_mem run he thread).idle (settledBefore e he) ended
  · intro e he l event heard told
    by_cases thread : e.move.isAdvance
    · obtain ⟨due, step⟩ := advances_of_mem run he thread
      cases step.broadcasts told with
      | thread _ ha => exact .thread thread ha
      | host hm => cases hm
    · exact (serves_of_mem run he thread).broadcasts told
  · intro e he reason stop
    exact ((settledBefore e he).announcingStop stop).1
  · rintro before e middle f after reason reason' rfl stop
    exact told_once run stop

open Lockstep in
theorem core_dropped_then_pick_refused :
    ∃ t p w, (machine Script.surroundings).Run (start {} 7 (some ⟨1, none⟩), {}) t (p, w) ∧
      p.running = false ∧ p.coordinator.TornDown ∧ dropped t = [1] ∧
      ∃ e ∈ t, e.move = .load ⟨[98]⟩ ∧ e.answer = .picked (.error .stopped) := by
  obtain ⟨t, p, w, ran, ended, made, e, he, hm, late⟩ :
      ∃ t p w, (machine Script.surroundings).run?
          (List.replicate 8 (.advance true) ++ [.load ⟨[97]⟩, .stop, .notify 0] ++
            List.replicate 5 (.advance true) ++ [.load ⟨[98]⟩, .advance true])
          (start {} 7 (some ⟨1, none⟩), {}) = some (t, p, w) ∧
        p.running = false ∧ created t = [1] ∧
        ∃ e, t[16]? = some e ∧ e.move = .load ⟨[98]⟩ ∧ e.before.1.running = false :=
    ⟨_, _, _, rfl, rfl, rfl, _, rfl, rfl, rfl⟩
  have run := Machine.Run.of_run? ran
  obtain ⟨torn, -, -, idle, -⟩ := teardown_is_complete_and_permanent run
  have mem := List.mem_of_getElem? he
  refine ⟨t, p, w, run, ended, (torn ended).1, by rw [(torn ended).2, made], e, mem, hm, ?_⟩
  exact (idle e mem late).refused ⟨[98]⟩ (by rw [hm]; rfl) rfl

end Pump

end EmulatorHost
