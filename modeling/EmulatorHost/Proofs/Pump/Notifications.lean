import EmulatorHost.Lockstep.Script
import EmulatorHost.Proofs.Pump.Life
import EmulatorHost.Proofs.Since
import Mathlib.Data.List.Perm.Basic

namespace EmulatorHost

def Activity.loadNotice? {κ σ η : Type} : Activity κ σ η → Option Notification
  | .loaded _ path outcome => some (Pump.romNotice ⟨path, outcome⟩)
  | _ => none

namespace Pump

variable {κ σ η ω : Type}
  {s : Surroundings κ σ η ω} {due : Bool} {m : Move η} {answer : Answer}
  {calls : List (Activity κ σ η)} {x x' : Pump κ σ η × ω} {t : List (Entry κ σ η ω)}
  {p : Pump κ σ η} {event : Notification} {next : Phase κ} {config : Config} {surface : σ}
  {subscriber : Option η} {w w' : ω} {l : η}

def Defers (path : Path) (e : Entry κ σ η ω) : Prop :=
  e.move.path? = some path ∧ e.answer = .picked (.ok .deferred)

def DefersSome (e : Entry κ σ η ω) : Prop := ∃ path, Defers path e

theorem Advances.of_awaitsInstall (h : Advances s due x calls x')
    (awaits : x'.1.phase.awaitsInstall = true) :
    x.1.phase.awaitsInstall = true ∧ x'.1.coordinator = x.1.coordinator := by
  cases h with
  | created hp => exact ⟨by rw [hp]; rfl, rfl⟩
  | @announced p _ _ _ _ _ _ ha =>
    cases ha with
    | failure =>
      rcases @afterFailure_eq κ p.config p.streak with hn | hn <;> rw [hn] at awaits <;>
        cases awaits
    | _ => cases awaits
  | passed hp => cases hp <;> cases awaits
  | rested => exact ⟨awaits, rfl⟩
  | _ => cases awaits

theorem Serves.parked_iff (h : Serves s m x answer calls x') {path : Path}
    (parked : x.1.coordinator.parkedRom = some path ↔ Since (Defers path) DefersSome t) :
    x'.1.coordinator.parkedRom = some path ↔
      Since (Defers path) DefersSome (t ++ [⟨x, m, answer, calls, x'⟩]) := by
  have quiet (undeferred : answer ≠ .picked (.ok .deferred)) :
      x.1.coordinator.parkedRom = some path ↔
        Since (Defers path) DefersSome (t ++ [⟨x, m, answer, calls, x'⟩]) := by
    have unparked (path : Path) : ¬ Defers path (⟨x, m, answer, calls, x'⟩ : Entry κ σ η ω) :=
      fun h => undeferred h.2
    rw [Since.concat_of_not (unparked path) (by simp [DefersSome, unparked])]
    exact parked
  cases h with
  | parked hm => simp [Since.concat_iff, Defers, DefersSome, hm]
  | @asked _ _ _ _ _ _ outcome =>
    exact quiet (by cases outcome <;> simp [Coordinator.loadAnswer])
  | _ => exact quiet (by simp)

theorem parked_iff_of_run (run : (machine s).Run (start config surface subscriber, w) t x)
    (awaits : x.1.phase.awaitsInstall = true) (path : Path) :
    x.1.coordinator.parkedRom = some path ↔ Since (Defers path) DefersSome t := by
  refine run_induction (Q := fun t x => x.1.phase.awaitsInstall = true →
    (x.1.coordinator.parkedRom = some path ↔ Since (Defers path) DefersSome t)) ?_ ?_ ?_ run awaits
  · simp [start]
  · intro t x due calls x' _ ih step awaits
    obtain ⟨before, same⟩ := step.of_awaitsInstall awaits
    rw [same, Since.concat_of_not (by simp [Defers]) (by simp [DefersSome, Defers])]
    exact ih before
  · intro t x m answer calls x' _ ih _ step awaits
    exact step.parked_iff (ih (step.untouched.phase ▸ awaits))

def loadNotices (t : List (Entry κ σ η ω)) : List Notification :=
  (hostCalls t).filterMap Activity.loadNotice?

theorem hostCalls_concat (t : List (Entry κ σ η ω)) (e : Entry κ σ η ω) :
    hostCalls (t ++ [e]) = hostCalls t ++ if e.move.isAdvance then [] else e.calls := by
  cases h : e.move.isAdvance <;> simp [hostCalls, h]

theorem Advances.outbox (h : Advances s due x calls x') : x'.1.outbox = x.1.outbox := by
  cases h <;> rfl

theorem Serves.told_perm (h : Serves s m x answer calls x')
    (hl : x.1.notifier.subscriber = some l) (stays : Stays ⟨x, m, answer, calls, x'⟩) :
    ∃ told, calls.filter (!·.isToCore) = told.map (.delivered l · true) ∧
      (told ++ x'.1.outbox).Perm (x.1.outbox ++ calls.filterMap Activity.loadNotice?) := by
  cases h with
  | asked => exact ⟨[], rfl, by simp [Activity.loadNotice?]⟩
  | told hi ht =>
    obtain ⟨-, rfl⟩ := ht.heard_of_not_refused hl stays.hears
    obtain ⟨small, rfl⟩ := List.getElem?_eq_some_iff.1 hi
    -- the loads wait in no order, since any host may be the next to tell its own
    refine ⟨[_], rfl, ?_⟩
    simpa [List.filterMap_cons, Activity.loadNotice?] using List.getElem_cons_eraseIdx_perm small
  | subscribed => cases stays.listens
  | unsubscribed => cases stays.listens
  | paused | stopped => exact ⟨[], rfl, by simp [setPaused, requestStop]⟩
  | _ => exact ⟨[], rfl, by simp⟩

theorem told_of_run
    (run : (machine s).Run (start config surface (some l), w) t x) (stays : ∀ e ∈ t, Stays e) :
    ∃ told, (hostCalls t).filter (!·.isToCore) = told.map (.delivered l · true) ∧
      (told ++ x.1.outbox).Perm (loadNotices t) := by
  refine run_induction (Q := fun t x => (∀ e ∈ t, Stays e) →
    ∃ told, (hostCalls t).filter (!·.isToCore) = told.map (.delivered l · true) ∧
      (told ++ x.1.outbox).Perm (loadNotices t)) ?_ ?_ ?_ run stays
  · exact fun _ => ⟨[], rfl, .refl _⟩
  · intro t x due calls x' _ ih step stays
    obtain ⟨told, ht, perm⟩ := ih fun e he => stays e (by simp [he])
    refine ⟨told, ?_, ?_⟩
    · simpa [hostCalls_concat, Move.isAdvance] using ht
    · simpa [loadNotices, hostCalls_concat, Move.isAdvance, step.outbox] using perm
  · intro t x m answer calls x' earlier ih host step stays
    have stayed : ∀ e ∈ t, Stays e := fun e he => stays e (by simp [he])
    obtain ⟨past, hp, perm⟩ := ih stayed
    obtain ⟨life, lived⟩ := Lived.of_run earlier
    have hl := (lived.told l rfl stayed).1
    obtain ⟨told, ht, now⟩ := step.told_perm hl (stays _ List.mem_concat_self)
    refine ⟨past ++ told, ?_, ?_⟩
    · simp [hostCalls_concat, host, hp, ht]
    · simp only [loadNotices, hostCalls_concat, host, List.filterMap_append] at perm ⊢
      have later := now.append_left past
      rw [← List.append_assoc, ← List.append_assoc] at later
      exact later.trans (perm.append_right _)

def TellsLoad (e : Entry κ σ η ω) : Prop :=
  ∀ path, e.move.path? = some path →
    (∃ core outcome, e.answer = .picked (Coordinator.loadAnswer path outcome) ∧
      e.calls = [.loaded core path outcome] ∧
      e.after.1.outbox = e.before.1.outbox ++ [romNotice ⟨path, outcome⟩]) ∨
    e.calls = [] ∧ e.after.1.outbox = e.before.1.outbox

def TellsNotice (l : η) (e : Entry κ σ η ω) : Prop :=
  ∀ i event, e.move = .notify i → e.before.1.outbox[i]? = some event →
    e.calls = [.delivered l event true] ∧ e.after.1.outbox = e.before.1.outbox.eraseIdx i

theorem Serves.tellsLoad (h : Serves s m x answer calls x') :
    TellsLoad ⟨x, m, answer, calls, x'⟩ := by
  intro path hm
  cases h with
  | unnamed | refused | parked => exact .inr ⟨rfl, rfl⟩
  | asked hm' =>
    obtain rfl := Option.some.inj (hm'.symm.trans hm)
    exact .inl ⟨_, _, rfl, rfl, rfl⟩
  | _ => cases hm

theorem Serves.tellsNotice (h : Serves s m x answer calls x')
    (hl : x.1.notifier.subscriber = some l) (stays : Stays ⟨x, m, answer, calls, x'⟩) :
    TellsNotice l ⟨x, m, answer, calls, x'⟩ := by
  rintro i event rfl hi
  cases h with
  | nothingToTell hn => cases hn.symm.trans hi
  | told hi' ht =>
    obtain rfl := Option.some.inj (hi'.symm.trans hi)
    exact ⟨(ht.heard_of_not_refused hl stays.hears).2, rfl⟩
  | unnamed hm | refused hm | parked hm | asked hm => cases hm

/-- A subscriber that is there from the start and stays is told of the life of the core, in order
and without gaps, and by the hosts of each load for which they made the core be asked. -/
theorem notifications_tell_what_happened {s : Surroundings κ σ η ω} {config : Config} {surface : σ}
    {l : η} {w w' : ω} {t : List (Entry κ σ η ω)} {p : Pump κ σ η}
    (run : (machine s).Run (start config surface (some l), w) t (p, w'))
    (stays : ∀ e ∈ t, Stays e) :
    (∃ life : Life κ,
      coreCalls t = life.calls surface ++ life.drops p.phase ∧
      (∃ told, otherCalls t = told.map (.delivered l · true) ∧
        told ++ p.owed = life.notices ++ p.phase.closing) ∧
      (∀ core load frames, life = .lived core load frames → p.phase.awaitsInstall = false →
        ∃ before e after, t = before ++ e :: after ∧ Installs core e ∧
          ∀ path, load.map DeferredLoad.path = some path ↔ Since (Defers path) DefersSome before) ∧
      ∀ reason, p.phase = .exited reason → life.Ends reason ∧
        otherCalls t =
          (life.notices ++ [Notification.pumpStopped reason]).map (.delivered l · true)) ∧
    (∀ e ∈ t, TellsLoad e ∧ TellsNotice l e) ∧
    ∃ told, (hostCalls t).filter (!·.isToCore) = told.map (.delivered l · true) ∧
      (told ++ p.outbox).Perm (loadNotices t) := by
  obtain ⟨life, lived⟩ := Lived.of_run run
  obtain ⟨-, told, ht, ho⟩ := lived.told l rfl stays
  have surfaces := (config_of_run run).2
  refine ⟨⟨life, ?_, ⟨told, ht, ho⟩, ?_, ?_⟩, ?_, told_of_run run stays⟩
  · rw [lived.calls, surfaces]
    rfl
  · rintro core load frames rfl settled
    obtain ⟨before, e, after, rfl, installs, parked⟩ := lived.installed settled
    refine ⟨before, e, after, rfl, installs, fun path => ?_⟩
    rw [parked]
    exact parked_iff_of_run run.split.1 (by rw [installs.2]; rfl) path
  · intro reason exited
    have fits := lived.fits
    simp only [exited, owed, Phase.closing, List.append_nil] at fits ho
    exact ⟨fits.1, by rw [ht, ho]⟩
  · intro e he
    by_cases host : e.move.isAdvance
    · obtain ⟨due, hm⟩ := Move.eq_advance host
      constructor
      · intro path hp
        rw [hm] at hp
        cases hp
      · intro i event hp
        rw [hm] at hp
        cases hp
    · have step := serves_of_mem run he host
      refine ⟨step.tellsLoad, step.tellsNotice ?_ (stays e he)⟩
      obtain ⟨before, after, rfl⟩ := List.append_of_mem he
      obtain ⟨life, lived⟩ := Lived.of_run run.split.1
      exact (lived.told l rfl fun f hf => stays f (by simp [hf])).1

open Lockstep in
theorem parked_rom_and_failures_told :
    ∃ t p w, (machine Script.surroundings).Run
        (start {} 7 (some ⟨1, none⟩), { rejectSizes := 1, failing := .listed [0] }) t (p, w) ∧
      p.phase = .exited .requested ∧
      ∃ life : Life Nat, life.Ends .requested ∧
        life.notices = [.coreCreated, .romLoaded ⟨[97]⟩,
          .resizeFailed (.resizeFailed ⟨640, 480⟩ "size rejected"),
          .renderFailed 0 (.renderFailed "frame failed")] := by
  obtain ⟨t, p, w, ran, stays, exited, told⟩ :
      ∃ t p w, (machine Script.surroundings).run?
          ([.load ⟨[97]⟩, .resize ⟨640, 480⟩] ++ List.replicate 11 (.advance true) ++
            [.load ⟨[98]⟩, .stop, .notify 0] ++ List.replicate 5 (.advance true))
          (start {} 7 (some ⟨1, none⟩), { rejectSizes := 1, failing := .listed [0] }) =
            some (t, p, w) ∧
        (t.all fun e => decide (Stays e)) = true ∧ p.phase = .exited .requested ∧
        otherCalls t = [.coreCreated, .romLoaded ⟨[97]⟩,
          .resizeFailed (.resizeFailed ⟨640, 480⟩ "size rejected"),
          .renderFailed 0 (.renderFailed "frame failed"), .pumpStopped .requested].map
            (.delivered ⟨1, none⟩ · true) :=
    ⟨_, _, _, rfl, rfl, rfl, rfl⟩
  have run := Machine.Run.of_run? ran
  have all : ∀ e ∈ t, Stays e := by simpa using stays
  obtain ⟨⟨life, -, -, -, ended⟩, -⟩ := notifications_tell_what_happened run all
  obtain ⟨ends, same⟩ := ended _ exited
  refine ⟨t, p, w, run, exited, life, ends, ?_⟩
  have events := (List.map_inj_right fun _ _ h => by cases h; rfl).1 (same.symm.trans told)
  exact (List.append_left_inj [.pumpStopped .requested]).1 events

end Pump

end EmulatorHost
