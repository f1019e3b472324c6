import EmulatorHost.Proofs.Pump.Order

namespace EmulatorHost

namespace Notification

def isAboutSize : Notification → Bool
  | .outputResized _ | .resizeFailed _ => true
  | _ => false

def isOutputResized : Notification → Bool
  | .outputResized _ => true
  | _ => false

end Notification

namespace Activity

variable {κ σ η : Type}

def pushNotice? : Activity κ σ η → Option Notification
  | .resized _ size outcome => some (Pump.resizeNotice (outcome.map fun _ => size))
  | _ => none

def takesSize : Activity κ σ η → Bool
  | .resized _ _ outcome => outcome.accepted
  | _ => false

def takesRom : Activity κ σ η → Bool
  | .loaded _ _ outcome => outcome.accepted
  | _ => false

theorem takesSize_eq (call : Activity κ σ η) :
    call.takesSize = (call.pushNotice?.map Notification.isOutputResized).getD false := by
  cases call with
  | resized core size outcome => cases outcome <;> rfl
  | _ => rfl

theorem takesRom_eq (call : Activity κ σ η) :
    call.takesRom = (call.loadNotice?.map Notification.isRomLoaded).getD false := by
  cases call with
  | loaded core path outcome => cases outcome <;> rfl
  | _ => rfl

end Activity

theorem Phase.reason_of_hasEnded {κ : Type} {phase : Phase κ} (h : phase.hasEnded = true) :
    ∃ reason, phase.reason? = some reason := by
  cases phase with
  | announcingStop reason | exited reason => exact ⟨reason, rfl⟩
  | _ => cases h

def Phase.unreported {κ : Type} : Phase κ → List Notification
  | .rendering report | .reportingResize report => (report.resize.map Pump.resizeNotice).toList
  | _ => []

namespace Pump

variable {κ σ η ω : Type} {s : Surroundings κ σ η ω} {due : Bool} {m : Move η} {answer : Answer}
  {calls : List (Activity κ σ η)} {x x' : Pump κ σ η × ω} {t : List (Entry κ σ η ω)}
  {e : Entry κ σ η ω} {p : Pump κ σ η} {event : Notification} {next : Phase κ} {config : Config}
  {surface : σ} {subscriber : Option η} {w w' : ω} {l : η} {reason : StopReason}
  {results : List CoreOutcome} {life : Life κ}

section Sizes

def heardOfSizes (t : List (Entry κ σ η ω)) : List Notification :=
  (heard t).filter Notification.isAboutSize

def pushes (t : List (Entry κ σ η ω)) : List Notification :=
  (t.flatMap (·.calls)).filterMap Activity.pushNotice?

theorem heardOfSizes_append (t u : List (Entry κ σ η ω)) :
    heardOfSizes (t ++ u) = heardOfSizes t ++ heardOfSizes u := by
  simp [heardOfSizes, heard_append]

theorem pushes_append (t u : List (Entry κ σ η ω)) : pushes (t ++ u) = pushes t ++ pushes u := by
  simp [pushes]

@[simp] theorem isAboutSize_romNotice (load : DeferredLoad) :
    (romNotice load).isAboutSize = false := by
  rcases load with ⟨path, _ | _⟩ <;> rfl

@[simp] theorem isAboutSize_resizeNotice (r : Except CoreError Size) :
    (resizeNotice r).isAboutSize = true := by
  cases r <;> rfl

@[simp] theorem unreported_afterFailure (config : Config) (streak : UInt32) :
    (afterFailure config streak : Phase κ).unreported = [] := by
  rcases @afterFailure_eq κ config streak with h | h <;> rw [h] <;> rfl

theorem Announces.unreported (h : Announces p event next) :
    [event].filter Notification.isAboutSize ++ next.unreported = p.phase.unreported := by
  cases h with
  | failure hp =>
    rw [hp, unreported_afterFailure]
    rfl
  | rom hp | resize hp => simp [hp, Phase.unreported]
  | _ hp =>
    rw [hp]
    rfl

theorem Passes.unreported (h : Passes due p next) : next.unreported = p.phase.unreported := by
  cases h with
  | _ hp => simp [hp, Phase.unreported]

def Reports (e : Entry κ σ η ω) : Prop :=
  heardOfSizes [e] ++ e.after.1.phase.unreported = e.before.1.phase.unreported ++ pushes [e]

theorem Reports.of_unheard (unheard : e.calls.filterMap Activity.heard? = [])
    (waits : e.after.1.phase.unreported =
      e.before.1.phase.unreported ++ e.calls.filterMap Activity.pushNotice?) : Reports e := by
  simpa [Reports, heardOfSizes, heard, pushes, unheard] using waits

theorem Reports.concat (h : Reports e)
    (earlier : heardOfSizes t ++ e.before.1.phase.unreported = pushes t) :
    heardOfSizes (t ++ [e]) ++ e.after.1.phase.unreported = pushes (t ++ [e]) := by
  have now : _ = e.before.1.phase.unreported ++ _ := h
  rw [heardOfSizes_append, pushes_append, List.append_assoc, now, ← List.append_assoc, earlier]

theorem Advances.reports (h : Advances s due x calls x') (hl : x.1.notifier.subscriber = some l)
    (hears : ∀ call ∈ calls, call.isRefused = false) :
    Reports ⟨x, .advance due, .silent, calls, x'⟩ := by
  cases h with
  | announced ha ht =>
    obtain ⟨-, rfl⟩ := ht.heard_of_not_refused hl hears
    exact ha.unreported.trans (List.append_nil _).symm
  | passed hp => exact .of_unheard rfl (hp.unreported.trans (List.append_nil _).symm)
  | @installed p w core hp | @loaded p w w' core path outcome hp =>
    refine .of_unheard ?_ ?_ <;> cases p.coordinator.core <;>
      simp [hp, Phase.unreported, Activity.heard?, Activity.pushNotice?]
  | @pushed p w w₁ w' core push outcome hp => exact .of_unheard rfl (by rw [hp]; rfl)
  | rested => exact .of_unheard rfl (List.append_nil _).symm
  | created hp | refused hp | missed hp | rendered hp | counted hp | failed hp | tornDown hp
  | dropped hp | ended hp => exact .of_unheard (by simp [Activity.heard?]) (by rw [hp]; rfl)

theorem Tells.unsized {n n' : Notifier η × ω} (h : Tells s event n calls n')
    (other : event.isAboutSize = false) :
    (calls.filterMap Activity.heard?).filter Notification.isAboutSize = [] ∧
      calls.filterMap Activity.pushNotice? = [] := by
  cases h with
  | heard => exact ⟨List.filter_cons_of_neg (by simp [other]), rfl⟩
  | _ => exact ⟨rfl, rfl⟩

theorem Serves.reports (h : Serves s m x answer calls x') (settled : Settled x.1) :
    Reports ⟨x, m, answer, calls, x'⟩ := by
  cases h with
  | @told p w w' i event calls n hi ht =>
    obtain ⟨load, rfl⟩ := settled.outbox _ (List.mem_of_getElem? hi)
    obtain ⟨silent, unpushed⟩ := ht.unsized (isAboutSize_romNotice load)
    simp [Reports, heardOfSizes, heard, pushes, silent, unpushed]
  | @subscribed p | @unsubscribed p =>
    refine .of_unheard ?_ ?_ <;> cases p.notifier.subscriber <;>
      simp [Activity.heard?, Activity.pushNotice?]
  | _ => exact .of_unheard rfl (List.append_nil _).symm

theorem heard_eq_pushes (run : (machine s).Run (start config surface (some l), w) t x)
    (stays : ∀ e ∈ t, Stays e) : heardOfSizes t ++ x.1.phase.unreported = pushes t := by
  refine stays_induction (Q := fun t x => heardOfSizes t ++ x.1.phase.unreported = pushes t)
    rfl ?_ ?_ run stays
  · intro t x due calls x' _ earlier hl step hears
    exact (step.reports hl hears).concat earlier
  · intro t x m answer calls x' before earlier _ _ step _
    exact (step.reports (.of_run before)).concat earlier

end Sizes

section Exit

theorem Tells.hears {n n' : Notifier η × ω} (h : Tells s event n calls n')
    (obliging : ∀ l event w, (s.deliver l event w).1 = true) :
    ∀ call ∈ calls, call.isRefused = false := by
  cases h with
  | unheard => exact List.forall_mem_nil _
  | heard => simp [Activity.isRefused]
  | @refused l w w' hd => exact absurd (congrArg Prod.fst hd) (by simp [obliging])

theorem Advances.hears (h : Advances s due x calls x')
    (obliging : ∀ l event w, (s.deliver l event w).1 = true) :
    ∀ call ∈ calls, call.isRefused = false := by
  cases h with
  | announced _ ht => exact ht.hears obliging
  | @installed p | @loaded p => cases p.coordinator.core <;> simp [Activity.isRefused]
  | _ => simp [Activity.isRefused]

theorem Serves.hears (h : Serves s m x answer calls x')
    (obliging : ∀ l event w, (s.deliver l event w).1 = true) :
    ∀ call ∈ calls, call.isRefused = false := by
  cases h with
  | told _ ht => exact ht.hears obliging
  | @subscribed p | @unsubscribed p => cases p.notifier.subscriber <;> simp [Activity.isRefused]
  | _ => simp [Activity.isRefused]

theorem stays_of_run (run : (machine s).Run x t x')
    (obliging : ∀ l event w, (s.deliver l event w).1 = true)
    (listens : ∀ e ∈ t, e.move.changesSubscriber = false) : ∀ e ∈ t, Stays e := by
  refine fun e he => ⟨listens e he, ?_⟩
  by_cases thread : e.move.isAdvance
  · obtain ⟨due, step⟩ := advances_of_mem run he thread
    exact step.hears obliging
  · exact (serves_of_mem run he thread).hears obliging

theorem exited_of_heard (run : (machine s).Run (start config surface subscriber, w) t x)
    (stop : .pumpStopped reason ∈ heard t) : x.1.phase = .exited reason := by
  obtain ⟨call, hc, heard⟩ := List.mem_filterMap.1 stop
  obtain ⟨e, he, hc⟩ := List.mem_flatMap.1 hc
  obtain ⟨before, after, rfl⟩ := List.append_of_mem he
  obtain ⟨first, -, -, later⟩ := run.split
  have told : Notification.pumpStopped reason ∈ Pump.heard [e] :=
    List.mem_filterMap.2 ⟨call, by rwa [List.flatMap_singleton], heard⟩
  obtain ⟨thread, announcing⟩ :=
    (Settled.of_run first).announcingStop (broadcasts_of_mem run he told)
  obtain ⟨due, step⟩ := advances_of_mem run he thread
  exact exited_of_run later (step.ends announcing)

theorem heard_of_exited (run : (machine s).Run (start config surface (some l), w) t x)
    (stays : ∀ e ∈ t, Stays e) (exited : x.1.phase = .exited reason) :
    .pumpStopped reason ∈ heard t := by
  obtain ⟨life, lived⟩ := Lived.of_run run
  obtain ⟨-, told, delivered, all⟩ := lived.told l rfl stays
  have last : Notification.pumpStopped reason ∈ told := by
    simp only [owed, exited, List.append_nil] at all
    simp [all, Phase.closing]
  have called : (.delivered l (.pumpStopped reason) true) ∈ otherCalls t := by
    rw [delivered]
    exact List.mem_map_of_mem last
  obtain ⟨e, he, hc⟩ := List.mem_flatMap.1 (List.mem_filter.1 called).1
  exact List.mem_filterMap.2
    ⟨_, List.mem_flatMap.2 ⟨e, (List.mem_filter.1 he).1, hc⟩, rfl⟩

theorem Passes.reason? (h : Passes due p next) (stops : p.phase.reason? = some reason) :
    next.reason? = some reason := by
  cases h with
  | coreless hp => rwa [hp] at stops
  | _ hp =>
    rw [hp] at stops
    cases stops

theorem Advances.reason? (h : Advances s due x calls x') (stops : x.1.phase.reason? = some reason) :
    x'.1.phase.reason? = some reason := by
  cases h with
  | announced ha =>
    cases ha with
    | stop hp => rwa [hp] at stops
    | _ hp =>
      rw [hp] at stops
      cases stops
  | passed hp => exact hp.reason? stops
  | tornDown hp | dropped hp | ended hp => rwa [hp] at stops
  | rested => exact stops
  | _ hp =>
    rw [hp] at stops
    cases stops

theorem Advances.stopRequested (h : Advances s due x calls x') :
    x'.1.stopRequested = x.1.stopRequested := by
  cases h <;> rfl

theorem stopRequested_of_run (run : (machine s).Run (start config surface subscriber, w) t x)
    (stops : x.1.phase.reason? = some .requested) : x.1.stopRequested = true := by
  refine run_induction (Q := fun _ x => x.1.phase.reason? = some .requested →
    x.1.stopRequested = true) ?_ ?_ ?_ run stops
  · intro stops
    cases stops
  · intro t x due calls x' earlier ih step stops
    obtain ⟨life, lived⟩ := Lived.of_run earlier
    have present (hp : x.1.phase = .ready) : x.1.coordinator.core ≠ none := by
      obtain ⟨core, hc⟩ := lived.core_of_ready hp
      simp [hc]
    rw [step.stopRequested]
    exact (step.requested present (.inr stops)).elim id ih
  · intro t x m answer calls x' _ ih _ step stops
    have asked := ih (step.untouched.phase ▸ stops)
    cases step with
    | stopped => rfl
    | _ => exact asked

theorem reason_of_run (run : (machine s).Run (start config surface subscriber, w) t x)
    (ended : x.1.running = false) : ∃ reason, x.1.phase.reason? = some reason ∧
      (reason = .requested → x.1.stopRequested = true) := by
  obtain ⟨reason, stops⟩ := Phase.reason_of_hasEnded ((Settled.of_run run).hasEnded ended)
  refine ⟨reason, stops, ?_⟩
  rintro rfl
  exact stopRequested_of_run run stops

theorem createCore_of_run {made : Except CoreError κ} (run : (machine s).Run x t x')
    (called : .created made ∈ coreCalls t) : ∃ w, (s.createCore w).1 = made := by
  obtain ⟨e, he, hc⟩ := List.mem_flatMap.1 (List.mem_filter.1 called).1
  obtain ⟨before, after, rfl⟩ := List.append_of_mem (List.mem_filter.1 he).1
  rw [run.split.2.2.1] at hc
  exact ⟨_, createCore_of_created hc⟩

theorem made_of_run (run : (machine s).Run (start config surface subscriber, w) t x)
    (stops : x.1.phase.reason? = some reason) :
    ∃ w, reason = .createFailed ↔ ∃ error, (s.createCore w).1 = .error error := by
  obtain ⟨life, lived⟩ := Lived.of_run run
  have ends := lived.ends stops
  have calls := lived.calls
  cases life with
  | waiting => cases ends
  | failed error =>
    have called : .created (.error error) ∈ coreCalls t := by simp [calls, Life.calls]
    obtain ⟨w, made⟩ := createCore_of_run run called
    exact ⟨w, iff_of_true ends ⟨error, made⟩⟩
  | lived core load frames =>
    have called : .created (.ok core) ∈ coreCalls t := by simp [calls, Life.calls]
    obtain ⟨w, made⟩ := createCore_of_run run called
    exact ⟨w, iff_of_false ends (by simp [made])⟩

theorem Counted.limit (h : Counted t results p) {count : UInt32}
    (stops : p.phase.reason? = some (.renderFailures count)) :
    ∃ limit, p.config.failureLimit = some limit ∧ count = max limit 1 := by
  obtain ⟨patience, -⟩ := h.spent stops
  obtain ⟨limit, hl, -⟩ := Option.map_eq_some_iff.1 patience
  rw [patience_of_failureLimit hl, Option.some.injEq] at patience
  exact ⟨limit, hl, (UInt32.toNat_inj.1 patience).symm⟩

theorem Counted.failures_of_uncounted (h : Counted t results p) (hp : p.phase.uncounted = []) :
    p.failures = .ofNat ((Pump.renders t).countP (!·.accepted)) := by
  rw [h.renders, hp, List.append_nil, h.counts.failures]

theorem countP_heard (about : Notification → Bool) {counted : Notification → Bool}
    {notice? : Activity κ σ η → Option Notification} {takes : Activity κ σ η → Bool}
    (same : ∀ call, takes call = ((notice? call).map counted).getD false)
    (kind : ∀ event, counted event = true → about event = true)
    (perm : ((heard t).filter about).Perm ((t.flatMap (·.calls)).filterMap notice?)) :
    (heard t).countP counted = (t.flatMap (·.calls)).countP takes :=
  calc (heard t).countP counted
    _ = ((heard t).filter about).countP counted := by
      rw [List.countP_filter]
      exact List.countP_congr fun event _ => by
        simpa using fun counts => kind event counts
    _ = ((t.flatMap (·.calls)).filterMap notice?).countP counted := perm.countP_eq _
    _ = (t.flatMap (·.calls)).countP takes := by
      rw [List.countP_filterMap]
      exact List.countP_congr fun call _ => by rw [same]

theorem romsLoaded_of_run (run : (machine s).Run (start config surface (some l), w) t x)
    (stays : ∀ e ∈ t, Stays e) (all : x.1.untold = []) :
    (heard t).countP Notification.isRomLoaded =
      (t.flatMap (·.calls)).countP Activity.takesRom := by
  refine countP_heard Notification.isAboutRom Activity.takesRom_eq (fun event loaded => ?_) ?_
  · cases event <;> first | rfl | cases loaded
  · have perm := heard_perm_loads run (conveys_of_run run stays)
    rwa [all, List.append_nil] at perm

theorem resizesPushed_of_run (run : (machine s).Run (start config surface (some l), w) t x)
    (stays : ∀ e ∈ t, Stays e) (all : x.1.phase.unreported = []) :
    (heard t).countP Notification.isOutputResized =
      (t.flatMap (·.calls)).countP Activity.takesSize := by
  refine countP_heard Notification.isAboutSize Activity.takesSize_eq (fun event resized => ?_) ?_
  · cases event <;> first | rfl | cases resized
  · have same := heard_eq_pushes run stays
    rw [all, List.append_nil] at same
    exact .of_eq same

end Exit

end Pump

end EmulatorHost
