import EmulatorHost.Proofs.Pump.Counters

namespace EmulatorHost

structure Frame where
  push : Option (Size × CoreOutcome)
  render : CoreOutcome

inductive Life (κ : Type) where
  | waiting
  | failed (error : CoreError)
  | lived (core : κ) (load : Option DeferredLoad) (frames : List Frame)

def pushNotices : Option (Size × CoreOutcome) → List Notification
  | none => []
  | some (size, .ok _) => [.outputResized size]
  | some (_, .error e) => [.resizeFailed e]

def renderNotices (frame : UInt64) : CoreOutcome → List Notification
  | .ok _ => []
  | .error e => [.renderFailed frame e]

namespace Frame

variable {κ σ η : Type}

def calls (core : κ) (surface : σ) (f : Frame) : List (Activity κ σ η) :=
  (f.push.map fun (size, push) => .resized core size push).toList ++ [.frame core surface f.render]

def report (f : Frame) : FrameReport :=
  ⟨f.push.map fun (size, push) => push.map fun _ => size, f.render⟩

@[simp] theorem toList_resizeNotice (f : Frame) :
    (f.report.resize.map Pump.resizeNotice).toList = pushNotices f.push := by
  rcases f with ⟨_ | ⟨size, _ | _⟩, render⟩ <;> rfl

@[simp] theorem rendered?_calls (core : κ) (surface : σ) (f : Frame) :
    (f.calls core surface : List (Activity κ σ η)).filterMap Activity.rendered? = [f.render] := by
  rcases f with ⟨_ | push, render⟩ <;> rfl

@[simp] theorem isToCore_calls (core : κ) (surface : σ) (f : Frame) :
    (f.calls core surface : List (Activity κ σ η)).filter Activity.isToCore =
      f.calls core surface := by
  rcases f with ⟨_ | push, render⟩ <;> rfl

def notices (rendered : Nat) (f : Frame) : List Notification :=
  pushNotices f.push ++ renderNotices (.ofNat rendered) f.render

def allNotices : Nat → List Frame → List Notification
  | _, [] => []
  | n, f :: rest => f.notices n ++ allNotices (if f.render.accepted then n + 1 else n) rest

theorem allNotices_concat (n : Nat) (frames : List Frame) (f : Frame) :
    allNotices n (frames ++ [f]) =
      allNotices n frames ++ f.notices (n + (frames.map render).countP CoreOutcome.accepted) := by
  induction frames generalizing n with
  | nil => simp [allNotices]
  | cons g rest ih =>
    simp only [List.cons_append, allNotices, ih, List.map_cons, List.countP_cons, List.append_assoc]
    cases g.render.accepted <;> simp
    rw [Nat.add_right_comm, Nat.add_assoc]

end Frame

namespace Life

variable {κ σ η : Type}

def core? : Life κ → Option κ
  | .lived core .. => some core
  | _ => none

def renders : Life κ → List CoreOutcome
  | .lived _ _ frames => frames.map Frame.render
  | _ => []

def calls (surface : σ) : Life κ → List (Activity κ σ η)
  | .waiting => []
  | .failed e => [.created (.error e)]
  | .lived core load frames =>
    [.created (.ok core)] ++ (load.map fun load => .loaded core load.path load.outcome).toList ++
      frames.flatMap (Frame.calls core surface)

def notices : Life κ → List Notification
  | .waiting => []
  | .failed e => [.coreCreateFailed e]
  | .lived _ load frames =>
    [.coreCreated] ++ (load.map Pump.romNotice).toList ++ Frame.allNotices 0 frames

def Ends : Life κ → StopReason → Prop
  | .waiting, _ => False
  | .failed _, reason => reason = .createFailed
  | .lived .., reason => reason ≠ .createFailed

def Fits (life : Life κ) (core : Option κ) : Phase κ → Prop
  | .creating => life = .waiting ∧ core = none
  | .createFailed e => life = .failed e ∧ core = none
  | .installing k => life = .lived k none [] ∧ core = none
  | .announcingCore load => ∃ k, life = .lived k load [] ∧ core = some k
  | .announcingRom load => ∃ k, life = .lived k (some load) [] ∧ core = some k
  | .tearingDown reason => life.Ends reason ∧ core = life.core?
  | .dropping k reason => life.Ends reason ∧ core = none ∧ k = life.core?
  | .dropped reason | .announcingStop reason | .exited reason => life.Ends reason ∧ core = none
  | _ => ∃ k load frames, life = .lived k load frames ∧ core = some k

def drops (life : Life κ) : Phase κ → List (Activity κ σ η)
  | .dropped _ | .announcingStop _ | .exited _ => (life.core?.map .dropped).toList
  | _ => []

end Life

namespace Phase

variable {κ : Type}

def closing : Phase κ → List Notification
  | .exited reason => [.pumpStopped reason]
  | _ => []

def awaitsInstall : Phase κ → Bool
  | .creating | .installing _ => true
  | _ => false

def isUnderway : Phase κ → Bool
  | .creating | .installing _ | .dropped _ | .announcingStop _ | .exited _ => false
  | _ => true

theorem closing_of_isUnderway {phase : Phase κ} (h : phase.isUnderway) : phase.closing = [] := by
  cases phase <;> first | rfl | cases h

theorem awaitsInstall_of_isUnderway {phase : Phase κ} (h : phase.isUnderway) :
    phase.awaitsInstall = false := by
  cases phase <;> first | rfl | cases h

end Phase

theorem Life.drops_of_isUnderway {κ σ η : Type} (life : Life κ) {phase : Phase κ}
    (h : phase.isUnderway) : (life.drops phase : List (Activity κ σ η)) = [] := by
  cases phase <;> first | rfl | cases h

namespace Pump

variable {κ σ η ω : Type} {s : Surroundings κ σ η ω} {due : Bool} {m : Move η} {answer : Answer}
  {calls : List (Activity κ σ η)} {x x' : Pump κ σ η × ω} {t : List (Entry κ σ η ω)}
  {p q : Pump κ σ η} {event : Notification} {next : Phase κ} {w w' : ω} {n : Notifier η}
  {subscriber : Option η} {life life' : Life κ} {core : κ}

def owed (p : Pump κ σ η) : List Notification :=
  match p.phase with
  | .createFailed e => [.coreCreateFailed e]
  | .installing _ => [.coreCreated]
  | .announcingCore load => [.coreCreated] ++ (load.map romNotice).toList
  | .announcingRom load => [romNotice load]
  | .rendering report | .reportingResize report =>
    (report.resize.map resizeNotice).toList ++ renderNotices p.frames report.render
  | .counting render => renderNotices p.frames render
  | .reportingFailure frame e => [.renderFailed frame e]
  | _ => []

def Move.changesSubscriber : Move η → Bool
  | .subscribe _ | .unsubscribe => true
  | _ => false

structure Stays (e : Entry κ σ η ω) : Prop where
  listens : e.move.changesSubscriber = false
  hears : ∀ call ∈ e.calls, call.isRefused = false

instance (e : Entry κ σ η ω) : Decidable (Stays e) :=
  decidable_of_iff (e.move.changesSubscriber = false ∧ ∀ call ∈ e.calls, call.isRefused = false)
    ⟨fun h => ⟨h.1, h.2⟩, fun h => ⟨h.listens, h.hears⟩⟩

theorem Serves.keeps_subscriber (h : Serves s m x answer calls x') {l : η}
    (hl : x.1.notifier.subscriber = some l) (stays : Stays ⟨x, m, answer, calls, x'⟩) :
    x'.1.notifier.subscriber = some l := by
  cases h with
  | told _ ht => exact (ht.heard_of_not_refused hl stays.hears).1
  | subscribed => cases stays.listens
  | unsubscribed => cases stays.listens
  | _ => exact hl

def coreCalls (t : List (Entry κ σ η ω)) : List (Activity κ σ η) :=
  (threadCalls t).filter Activity.isToCore

def otherCalls (t : List (Entry κ σ η ω)) : List (Activity κ σ η) :=
  (threadCalls t).filter (!·.isToCore)

def Installs (core : κ) (e : Entry κ σ η ω) : Prop :=
  e.move.isAdvance ∧ e.before.1.phase = .installing core

def InstalledIn (t : List (Entry κ σ η ω)) : Life κ → Prop
  | .lived core load _ => ∃ before e after, t = before ++ e :: after ∧ Installs core e ∧
      load.map DeferredLoad.path = e.before.1.coordinator.parkedRom
  | _ => True

theorem InstalledIn.concat (h : InstalledIn t life) (f : Entry κ σ η ω) :
    InstalledIn (t ++ [f]) life := by
  cases life with
  | lived core load frames =>
    obtain ⟨before, e, after, rfl, law⟩ := h
    exact ⟨before, e, after ++ [f], by simp, law⟩
  | _ => trivial

/-- What has happened to the core, and what was told of it to a subscriber that stays. -/
structure Lived (subscriber : Option η) (t : List (Entry κ σ η ω)) (p : Pump κ σ η)
    (life : Life κ) : Prop where
  fits : life.Fits p.coordinator.core p.phase
  calls : coreCalls t = life.calls p.surface ++ life.drops p.phase
  renders : renders t = life.renders
  installed : p.phase.awaitsInstall = false → InstalledIn t life
  told : ∀ l, subscriber = some l → (∀ e ∈ t, Stays e) → p.notifier.subscriber = some l ∧
    ∃ told, otherCalls t = told.map (.delivered l · true) ∧
      told ++ p.owed = life.notices ++ p.phase.closing

theorem coreCalls_concat (t : List (Entry κ σ η ω)) (e : Entry κ σ η ω) :
    coreCalls (t ++ [e]) =
      coreCalls t ++ if e.move.isAdvance then e.calls.filter Activity.isToCore else [] := by
  cases h : e.move.isAdvance <;> simp [coreCalls, threadCalls, h]

theorem otherCalls_concat (t : List (Entry κ σ η ω)) (e : Entry κ σ η ω) :
    otherCalls (t ++ [e]) =
      otherCalls t ++ if e.move.isAdvance then e.calls.filter (!·.isToCore) else [] := by
  cases h : e.move.isAdvance <;> simp [otherCalls, threadCalls, h]

namespace Lived

theorem grow (h : Lived subscriber t x.1 life) (surface : x'.1.surface = x.1.surface)
    (fits : life'.Fits x'.1.coordinator.core x'.1.phase)
    (called : life.calls x.1.surface ++ life.drops x.1.phase ++ calls.filter Activity.isToCore =
      life'.calls x.1.surface ++ life'.drops x'.1.phase)
    (rendered : life.renders ++ calls.filterMap Activity.rendered? = life'.renders)
    (installed : x'.1.phase.awaitsInstall = false →
      InstalledIn (t ++ [⟨x, .advance due, .silent, calls, x'⟩]) life')
    (news : List Notification)
    (new : life'.notices ++ x'.1.phase.closing = life.notices ++ x.1.phase.closing ++ news)
    (told : ∀ l, x.1.notifier.subscriber = some l → (∀ call ∈ calls, call.isRefused = false) →
      x'.1.notifier.subscriber = some l ∧
        ∃ events, calls.filter (!·.isToCore) = events.map (.delivered l · true) ∧
          events ++ x'.1.owed = x.1.owed ++ news) :
    Lived subscriber (t ++ [⟨x, .advance due, .silent, calls, x'⟩]) x'.1 life' where
  fits := fits
  calls := by
    rw [coreCalls_concat, h.calls, surface, ← called]
    rfl
  renders := by rw [renders_concat, h.renders, rendered]
  installed := installed
  told l hl stays := by
    obtain ⟨before, past, hp, ho⟩ := h.told l hl fun e he => stays e (by simp [he])
    obtain ⟨after, events, he, hn⟩ := told l before (stays _ List.mem_concat_self).hears
    refine ⟨after, past ++ events, ?_, ?_⟩
    · rw [otherCalls_concat, hp, List.map_append]
      exact congrArg _ he
    · rw [List.append_assoc, hn, ← List.append_assoc, ho, new]

theorem silent (h : Lived subscriber t x.1 life) (before : x.1.phase.isUnderway)
    (after : x'.1.phase.isUnderway) (surface : x'.1.surface = x.1.surface)
    (fits : life.Fits x'.1.coordinator.core x'.1.phase)
    (notifier : x'.1.notifier = x.1.notifier) (owed : x'.1.owed = x.1.owed) :
    Lived subscriber (t ++ [⟨x, .advance due, .silent, [], x'⟩]) x'.1 life := by
  refine h.grow surface fits ?_ (List.append_nil _) (fun _ => ?_) [] ?_ fun l hl _ => ?_
  · simp [life.drops_of_isUnderway before, life.drops_of_isUnderway after]
  · exact (h.installed (Phase.awaitsInstall_of_isUnderway before)).concat _
  · simp [Phase.closing_of_isUnderway before, Phase.closing_of_isUnderway after]
  · exact ⟨notifier ▸ hl, [], rfl, by simp [owed]⟩

theorem tells (h : Lived subscriber t p life) (ht : Tells s event (p.notifier, w) calls (n, w'))
    (before : p.phase.isUnderway) (after : next.isUnderway)
    (fits : life.Fits p.coordinator.core next)
    (owed : p.owed = event :: (p.enter next).owed) :
    Lived subscriber (t ++ [⟨(p, w), .advance due, .silent, calls,
      { p with notifier := n, phase := next }, w'⟩])
      { p with notifier := n, phase := next } life := by
  refine h.grow rfl fits ?_ ?_ (fun _ => ?_) [] ?_ fun l hl stays => ?_
  · simp [ht.not_toCore, life.drops_of_isUnderway before, life.drops_of_isUnderway after]
  · rw [ht.renders, List.append_nil]
  · exact (h.installed (Phase.awaitsInstall_of_isUnderway before)).concat _
  · simp [Phase.closing_of_isUnderway before, Phase.closing_of_isUnderway after]
  · obtain ⟨later, rfl⟩ := ht.heard_of_not_refused hl stays
    exact ⟨later, [event], rfl, by rw [owed, List.append_nil]; rfl⟩

theorem announced (h : Lived subscriber t p life) (ha : Announces p event next)
    (ht : Tells s event (p.notifier, w) calls (n, w')) :
    Lived subscriber (t ++ [⟨(p, w), .advance due, .silent, calls,
      { p with notifier := n, phase := next }, w'⟩])
      { p with notifier := n, phase := next } life := by
  have fits := h.fits
  cases ha with
  | createFailed hp =>
    rw [hp] at fits
    obtain ⟨rfl, hc⟩ := fits
    exact h.tells ht (by rw [hp]; rfl) rfl ⟨rfl, hc⟩ (by simp [owed, hp, enter])
  | core hp =>
    rw [hp] at fits
    obtain ⟨k, rfl, hc⟩ := fits
    exact h.tells ht (by rw [hp]; rfl) rfl ⟨k, none, [], rfl, hc⟩ (by simp [owed, hp, enter])
  | coreWithRom hp =>
    rw [hp] at fits
    exact h.tells ht (by rw [hp]; rfl) rfl fits (by simp [owed, hp, enter])
  | rom hp =>
    rw [hp] at fits
    obtain ⟨k, rfl, hc⟩ := fits
    exact h.tells ht (by rw [hp]; rfl) rfl ⟨k, _, [], rfl, hc⟩ (by simp [owed, hp, enter])
  | resize hp =>
    rw [hp] at fits
    exact h.tells ht (by rw [hp]; rfl) rfl fits (by simp [owed, hp, enter])
  | failure hp =>
    rw [hp] at fits
    obtain ⟨k, load, frames, rfl, hc⟩ := fits
    rcases afterFailure_eq p.config p.streak with hn | hn <;> rw [hn]
    · exact h.tells ht (by rw [hp]; rfl) rfl ⟨k, load, frames, rfl, hc⟩ (by simp [owed, hp, enter])
    · exact h.tells ht (by rw [hp]; rfl) rfl ⟨by simp [Life.Ends], hc⟩ (by simp [owed, hp, enter])
  | @stop reason hp =>
    -- the one event that is not owed before: it closes the life
    rw [hp] at fits
    refine h.grow rfl fits ?_ ?_ (fun _ => ?_) [.pumpStopped reason] ?_ fun l hl stays => ?_
    · simp [ht.not_toCore, hp, Life.drops]
    · rw [ht.renders, List.append_nil]
    · exact (h.installed (by rw [hp]; rfl)).concat _
    · simp [hp, Phase.closing]
    · obtain ⟨later, rfl⟩ := ht.heard_of_not_refused hl stays
      exact ⟨later, [_], rfl, by simp [owed, hp]⟩

theorem parted (h : Lived subscriber t p life) {k : Option κ} {reason : StopReason}
    (hp : p.phase = .dropping k reason) (called : calls = (k.map .dropped).toList) :
    Lived subscriber (t ++ [⟨(p, w), .advance due, .silent, calls, p.enter (.dropped reason), w'⟩])
      (p.enter (.dropped reason)) life := by
  have fits := h.fits
  rw [hp] at fits
  obtain ⟨ends, hc, rfl⟩ := fits
  refine h.grow rfl ⟨ends, hc⟩ ?_ ?_ (fun _ => ?_) [] ?_ fun l hl _ => ⟨hl, [], ?_, ?_⟩
  · cases hk : life.core? <;> simp [hp, enter, Life.drops, called, hk, Activity.isToCore]
  · simp [called]
  · exact (h.installed (by rw [hp]; rfl)).concat _
  · simp [hp, enter, Phase.closing]
  · cases hk : life.core? <;> simp [called, hk, Activity.isToCore]
  · simp [owed, hp, enter]

theorem passed (h : Lived subscriber t p life) (hp : Passes due p next) :
    Lived subscriber (t ++ [⟨(p, w), .advance due, .silent, [], p.enter next, w⟩]) (p.enter next)
      life := by
  have fits := h.fits
  cases hp with
  | toStop hp | stopMeanwhile hp =>
    rw [hp] at fits
    obtain ⟨k, load, frames, rfl, hc⟩ := fits
    exact h.silent (by rw [hp]; rfl) rfl rfl ⟨by simp [Life.Ends], hc⟩ rfl
      (by simp [owed, hp, enter])
  | coreless hp => exact h.parted hp rfl
  | _ hp =>
    rw [hp] at fits
    exact h.silent (by rw [hp]; rfl) rfl rfl fits rfl (by simp [owed, hp, enter])

theorem pumped (h : Lived subscriber t p life)
    (rendered : p.frames = .ofNat ((Pump.renders t).countP CoreOutcome.accepted))
    (hp : p.phase = .ready) (hc : p.coordinator.core = some core) (f : Frame)
    (hq : q.phase = .rendering f.report) (surface : q.surface = p.surface)
    (notifier : q.notifier = p.notifier) (same : q.coordinator.core = p.coordinator.core)
    (frames : q.frames = p.frames) :
    ∃ life, Lived subscriber
      (t ++ [⟨(p, w), .advance due, .silent, f.calls core p.surface, q, w'⟩]) q life := by
  have fits := h.fits
  rw [hp] at fits
  obtain ⟨k, load, past, rfl, hk⟩ := fits
  obtain rfl : k = core := Option.some.inj (hk.symm.trans hc)
  have number : q.frames = .ofNat ((past.map Frame.render).countP CoreOutcome.accepted) := by
    rw [frames, rendered, h.renders]
    rfl
  refine ⟨.lived k load (past ++ [f]), h.grow surface ?_ ?_ ?_ (fun _ => ?_)
    (f.notices ((past.map Frame.render).countP CoreOutcome.accepted)) ?_
    fun l hl _ => ⟨notifier ▸ hl, [], ?_, ?_⟩⟩
  · rw [hq, same]
    exact ⟨k, load, _, rfl, hc⟩
  · simp [hp, hq, Life.calls, Life.drops]
  · simp [Life.renders]
  · exact (h.installed (by rw [hp]; rfl)).concat _
  · simp [hp, hq, Phase.closing, Life.notices, Frame.allNotices_concat]
  · rcases f with ⟨_ | push, render⟩ <;> rfl
  · simp [owed, hp, hq, Frame.notices, number]
    rfl

theorem advance (h : Lived subscriber t x.1 life)
    (rendered : x.1.phase = .ready →
      x.1.frames = .ofNat ((Pump.renders t).countP CoreOutcome.accepted))
    (step : Advances s due x calls x') :
    ∃ life, Lived subscriber (t ++ [⟨x, .advance due, .silent, calls, x'⟩]) x'.1 life := by
  have fits := h.fits
  cases step with
  | @created _ _ _ core hp =>
    rw [hp] at fits
    obtain ⟨rfl, hn⟩ := fits
    refine ⟨.lived core none [], h.grow rfl ⟨rfl, hn⟩ ?_ rfl nofun [.coreCreated] ?_
      fun l hl _ => ⟨hl, [], rfl, ?_⟩⟩
    · simp [hp, enter, Life.calls, Life.drops, Activity.isToCore]
    · simp [hp, enter, Life.notices, Phase.closing, Frame.allNotices]
    · simp [owed, hp, enter]
  | @refused _ _ _ e hp =>
    rw [hp] at fits
    obtain ⟨rfl, hn⟩ := fits
    refine ⟨.failed e, h.grow rfl ⟨rfl, hn⟩ ?_ rfl (fun _ => trivial) [.coreCreateFailed e] ?_
      fun l hl _ => ⟨hl, [], rfl, ?_⟩⟩
    · simp [hp, enter, Life.calls, Life.drops, Activity.isToCore]
    · simp [hp, enter, Life.notices, Phase.closing]
    · simp [owed, hp, enter]
  | announced ha ht => exact ⟨life, h.announced ha ht⟩
  | passed hp => exact ⟨life, h.passed hp⟩
  | installed hp hr =>
    rw [hp] at fits
    obtain ⟨rfl, hn⟩ := fits
    dsimp only at hn
    refine ⟨_, h.grow rfl ⟨_, rfl, rfl⟩ ?_ ?_ (fun _ => ?_) [] ?_ fun l hl _ => ⟨hl, [], ?_, ?_⟩⟩
    · simp [hp, hn, Life.drops]
    · simp
    · exact ⟨t, _, [], rfl, ⟨rfl, hp⟩, hr.symm⟩
    · simp [hp, Phase.closing]
    · simp [hn]
    · simp [owed, hp]
  | @loaded _ _ _ core path outcome hp hr =>
    rw [hp] at fits
    obtain ⟨rfl, hn⟩ := fits
    dsimp only at hn
    refine ⟨.lived core (some ⟨path, outcome⟩) [], h.grow rfl ⟨_, rfl, rfl⟩ ?_ ?_ (fun _ => ?_)
      [romNotice ⟨path, outcome⟩] ?_ fun l hl _ => ⟨hl, [], ?_, ?_⟩⟩
    · simp [hp, hn, Life.calls, Life.drops, Activity.isToCore]
    · simp [Life.renders, Activity.rendered?]
    · exact ⟨t, _, [], rfl, ⟨rfl, hp⟩, hr.symm⟩
    · simp [hp, Life.notices, Phase.closing, Frame.allNotices]
    · simp [hn, Activity.isToCore]
    · simp [owed, hp]
  | missed hp hc =>
    rw [hp] at fits
    obtain ⟨k, load, frames, rfl, hk⟩ := fits
    cases hk.symm.trans hc
  | rendered hp hc hd hr => exact h.pumped (rendered hp) hp hc ⟨none, _⟩ rfl rfl rfl rfl rfl
  | pushed hp hc hd hs hr =>
    exact h.pumped (rendered hp) hp hc ⟨some (_, _), _⟩ rfl rfl rfl rfl rfl
  | counted hp | failed hp =>
    rw [hp] at fits
    exact ⟨life, h.silent (by rw [hp]; rfl) rfl rfl fits rfl (by simp [owed, hp, renderNotices])⟩
  | tornDown hp =>
    rw [hp] at fits
    obtain ⟨ends, hc⟩ := fits
    exact ⟨life, h.silent (by rw [hp]; rfl) rfl rfl ⟨ends, rfl, hc⟩ rfl (by simp [owed, hp])⟩
  | dropped hp => exact ⟨life, h.parted hp rfl⟩
  | ended hp =>
    rw [hp] at fits
    refine ⟨life, h.grow rfl fits ?_ ?_ (fun _ => ?_) [] ?_ fun l hl _ => ⟨hl, [], rfl, ?_⟩⟩
    · simp [hp, Life.drops]
    · simp
    · exact (h.installed (by rw [hp]; rfl)).concat _
    · simp [hp, Phase.closing]
    · simp [owed, hp]
  | rested hp =>
    exact ⟨life, h.grow rfl fits (by simp) (by simp) (fun settled => (h.installed settled).concat _)
      [] (by simp) fun l hl _ => ⟨hl, [], rfl, by simp⟩⟩

theorem serve (h : Lived subscriber t x.1 life) (host : ¬ m.isAdvance)
    (step : Serves s m x answer calls x') :
    Lived subscriber (t ++ [⟨x, m, answer, calls, x'⟩]) x'.1 life := by
  have same := step.untouched
  have owed : x'.1.owed = x.1.owed := by simp only [Pump.owed, same.phase, same.frames]
  refine ⟨?_, ?_, ?_, fun settled => ?_, ?_⟩
  · rw [same.core, same.phase]
    exact h.fits
  · rw [coreCalls_concat, if_neg host, List.append_nil, same.surface, same.phase, h.calls]
  · rw [renders_concat, step.renders, List.append_nil, h.renders]
  · exact (h.installed (same.phase ▸ settled)).concat _
  · intro l hl stays
    obtain ⟨before, told, ht, ho⟩ := h.told l hl fun e he => stays e (by simp [he])
    refine ⟨?_, told, ?_, ?_⟩
    · exact step.keeps_subscriber before (stays _ List.mem_concat_self)
    · rw [otherCalls_concat, if_neg host, List.append_nil, ht]
    · rw [owed, same.phase, ho]

theorem of_run {config : Config} {surface : σ}
    (run : (machine s).Run (start config surface subscriber, w) t x) :
    ∃ life, Lived subscriber t x.1 life := by
  refine run_induction (Q := fun t x => ∃ life, Lived subscriber t x.1 life) ?_ ?_ ?_ run
  · exact ⟨.waiting, ⟨rfl, rfl⟩, rfl, rfl, nofun, fun l hl _ => ⟨hl, [], rfl, rfl⟩⟩
  · rintro t x due calls x' earlier ⟨life, h⟩ step
    obtain ⟨results, counted⟩ := Counted.of_run earlier
    refine h.advance (fun hp => counted.frames_of_uncounted ?_) step
    rw [hp]
    rfl
  · rintro t x m answer calls x' - ⟨life, h⟩ host step
    exact ⟨life, h.serve host step⟩

end Lived

end Pump

end EmulatorHost
