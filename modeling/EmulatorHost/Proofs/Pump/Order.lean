import EmulatorHost.Proofs.Pump.Notifications
import EmulatorHost.Proofs.Pump.Teardown

/-! The thread tells in order, but a load is made in one step and told in another, and whoever tells
first is heard first. -/

namespace EmulatorHost

namespace Notification

def isAboutRom : Notification → Bool
  | .romLoaded _ | .romLoadFailed .. => true
  | _ => false

def isRomLoaded : Notification → Bool
  | .romLoaded _ => true
  | _ => false

end Notification

def Activity.heard? {κ σ η : Type} : Activity κ σ η → Option Notification
  | .delivered _ event true => some event
  | _ => none

theorem Activity.toCore_of_loadNotice {κ σ η : Type} {call : Activity κ σ η} {event : Notification}
    (h : call.loadNotice? = some event) : call.isToCore = true := by
  cases call <;> first | rfl | cases h

namespace Phase

variable {κ : Type}

def untold : Phase κ → List Notification
  | .announcingCore (some load) | .announcingRom load => [Pump.romNotice load]
  | _ => []

def isOpening : Phase κ → Bool
  | .creating | .createFailed _ | .installing _ | .announcingCore _ => true
  | _ => false

end Phase

namespace Pump

variable {κ σ η ω : Type} {s : Surroundings κ σ η ω} {due : Bool} {m : Move η} {answer : Answer}
  {calls : List (Activity κ σ η)} {x x' : Pump κ σ η × ω} {t : List (Entry κ σ η ω)}
  {e : Entry κ σ η ω} {p : Pump κ σ η} {event : Notification} {next : Phase κ} {config : Config}
  {surface : σ} {subscriber : Option η} {w w' : ω} {l : η}

def untold (p : Pump κ σ η) : List Notification := p.phase.untold ++ p.outbox

def heard (t : List (Entry κ σ η ω)) : List Notification :=
  (t.flatMap (·.calls)).filterMap Activity.heard?

def heardOfRoms (t : List (Entry κ σ η ω)) : List Notification :=
  (heard t).filter Notification.isAboutRom

def loads (t : List (Entry κ σ η ω)) : List Notification :=
  (t.flatMap (·.calls)).filterMap Activity.loadNotice?

theorem heard_append (t u : List (Entry κ σ η ω)) : heard (t ++ u) = heard t ++ heard u := by
  simp [heard]

theorem heardOfRoms_append (t u : List (Entry κ σ η ω)) :
    heardOfRoms (t ++ u) = heardOfRoms t ++ heardOfRoms u := by
  simp [heardOfRoms, heard_append]

theorem loads_append (t u : List (Entry κ σ η ω)) : loads (t ++ u) = loads t ++ loads u := by
  simp [loads]

@[simp] theorem isAboutRom_romNotice (load : DeferredLoad) :
    (romNotice load).isAboutRom = true := by
  rcases load with ⟨path, _ | _⟩ <;> rfl

@[simp] theorem isRomLoaded_romNotice (load : DeferredLoad) :
    (romNotice load).isRomLoaded = load.outcome.accepted := by
  rcases load with ⟨path, _ | _⟩ <;> rfl

@[simp] theorem isAboutRom_resizeNotice (r : Except CoreError Size) :
    (resizeNotice r).isAboutRom = false := by
  cases r <;> rfl

@[simp] theorem untold_afterFailure (config : Config) (streak : UInt32) :
    (afterFailure config streak : Phase κ).untold = [] := by
  rcases @afterFailure_eq κ config streak with h | h <;> rw [h] <;> rfl

theorem Announces.untold (h : Announces p event next) :
    [event].filter Notification.isAboutRom ++ next.untold = p.phase.untold := by
  cases h with
  | failure hp =>
    rw [hp, untold_afterFailure]
    rfl
  | rom hp => simp [hp, Phase.untold]
  | resize hp => simp [hp, Phase.untold]
  | _ hp =>
    rw [hp]
    rfl

theorem Passes.untold (h : Passes due p next) : next.untold = p.phase.untold := by
  cases h with
  | _ hp => simp [hp, Phase.untold]

theorem Tells.unasked {n n' : Notifier η × ω} (h : Tells s event n calls n') :
    calls.filterMap Activity.loadNotice? = [] := by
  cases h <;> rfl

structure Conveys (e : Entry κ σ η ω) : Prop where
  perm : (heardOfRoms [e] ++ e.after.1.untold).Perm (e.before.1.untold ++ loads [e])
  once : (loads [e]).length ≤ 1

theorem Conveys.of_unheard (made : List Notification)
    (unheard : e.calls.filterMap Activity.heard? = [])
    (asked : e.calls.filterMap Activity.loadNotice? = made) (once : made.length ≤ 1)
    (waits : e.after.1.untold.Perm (e.before.1.untold ++ made)) : Conveys e where
  perm := by simpa [heardOfRoms, heard, loads, unheard, asked] using waits
  once := by simpa [loads, asked] using once

theorem Conveys.of_quiet (unheard : e.calls.filterMap Activity.heard? = [])
    (unasked : e.calls.filterMap Activity.loadNotice? = [])
    (phase : e.after.1.phase.untold = e.before.1.phase.untold)
    (outbox : e.after.1.outbox = e.before.1.outbox) : Conveys e :=
  .of_unheard [] unheard unasked (Nat.zero_le 1)
    (.of_eq (by rw [Pump.untold, Pump.untold, phase, outbox, List.append_nil]))

theorem Advances.conveys (h : Advances s due x calls x') (hl : x.1.notifier.subscriber = some l)
    (hears : ∀ call ∈ calls, call.isRefused = false) :
    Conveys ⟨x, .advance due, .silent, calls, x'⟩ := by
  cases h with
  | @announced p w w' event next _ _ ha ht =>
    obtain ⟨-, rfl⟩ := ht.heard_of_not_refused hl hears
    have told : p.untold = [event].filter Notification.isAboutRom ++ (next.untold ++ p.outbox) := by
      rw [Pump.untold, ← ha.untold, List.append_assoc]
    refine ⟨?_, Nat.zero_le 1⟩
    dsimp only
    rw [told]
    exact .of_eq (List.append_nil _).symm
  | passed hp => exact .of_quiet rfl rfl hp.untold rfl
  | @installed p w core hp =>
    refine .of_quiet ?_ ?_ (by rw [hp]; rfl) rfl <;> cases p.coordinator.core <;> rfl
  | @loaded p w w' core path outcome hp =>
    have before : p.untold = p.outbox := by simp [Pump.untold, hp, Phase.untold]
    refine .of_unheard [romNotice ⟨path, outcome⟩] ?_ ?_ (Nat.le_refl 1) ?_
    · cases p.coordinator.core <;> rfl
    · cases p.coordinator.core <;> rfl
    · rw [before]
      exact List.perm_append_comm
  | created hp | refused hp | missed hp | rendered hp | pushed hp | counted hp | failed hp
  | tornDown hp | dropped hp | ended hp =>
    exact .of_quiet (by simp [Activity.heard?]) (by simp [Activity.loadNotice?])
      (by rw [hp]; rfl) rfl
  | rested => exact .of_quiet rfl rfl rfl rfl

theorem Serves.conveys (h : Serves s m x answer calls x') (settled : Settled x.1)
    (hl : x.1.notifier.subscriber = some l) (stays : Stays ⟨x, m, answer, calls, x'⟩) :
    Conveys ⟨x, m, answer, calls, x'⟩ := by
  cases h with
  | @asked m p w w' path core outcome =>
    exact .of_unheard [romNotice ⟨path, outcome⟩] rfl rfl (Nat.le_refl 1)
      (.of_eq (List.append_assoc ..).symm)
  | @told p w w' i event calls n hi ht =>
    obtain ⟨-, rfl⟩ := ht.heard_of_not_refused hl stays.hears
    obtain ⟨load, rfl⟩ := settled.outbox _ (List.mem_of_getElem? hi)
    obtain ⟨small, same⟩ := List.getElem?_eq_some_iff.1 hi
    refine ⟨?_, Nat.zero_le 1⟩
    calc heardOfRoms [_] ++ (p.phase.untold ++ p.outbox.eraseIdx i)
      _ = romNotice load :: (p.phase.untold ++ p.outbox.eraseIdx i) :=
        congrArg (· ++ _) (List.filter_cons_of_pos (isAboutRom_romNotice load))
      _ = p.outbox[i] :: (p.phase.untold ++ p.outbox.eraseIdx i) := by rw [same]
      List.Perm _ (p.phase.untold ++ p.outbox[i] :: p.outbox.eraseIdx i) := List.perm_middle.symm
      List.Perm _ (p.phase.untold ++ p.outbox) :=
        (List.getElem_cons_eraseIdx_perm small).append_left _
      _ = p.untold ++ [] := (List.append_nil _).symm
  | subscribed | unsubscribed => cases stays.listens
  | _ => exact .of_quiet rfl rfl rfl rfl

section Runs

theorem subscriber_of_run (run : (machine s).Run (start config surface (some l), w) t x)
    (stays : ∀ e ∈ t, Stays e) : x.1.notifier.subscriber = some l := by
  obtain ⟨life, lived⟩ := Lived.of_run run
  exact (lived.told l rfl stays).1

theorem stays_induction {Q : List (Entry κ σ η ω) → Pump κ σ η × ω → Prop}
    (first : Q [] (start config surface (some l), w))
    (advance : ∀ {t x due calls x'}, (machine s).Run (start config surface (some l), w) t x →
      Q t x → x.1.notifier.subscriber = some l → Advances s due x calls x' →
      (∀ call ∈ calls, call.isRefused = false) →
      Q (t ++ [⟨x, .advance due, .silent, calls, x'⟩]) x')
    (serve : ∀ {t x m answer calls x'}, (machine s).Run (start config surface (some l), w) t x →
      Q t x → x.1.notifier.subscriber = some l → ¬ m.isAdvance → Serves s m x answer calls x' →
      Stays ⟨x, m, answer, calls, x'⟩ → Q (t ++ [⟨x, m, answer, calls, x'⟩]) x')
    (run : (machine s).Run (start config surface (some l), w) t x) (stays : ∀ e ∈ t, Stays e) :
    Q t x := by
  refine run_induction (Q := fun t x => (∀ e ∈ t, Stays e) → Q t x) (fun _ => first) ?_ ?_ run stays
  · intro t x due calls x' earlier ih step stays
    obtain ⟨stayed, now⟩ := List.forall_mem_append.1 stays
    exact advance earlier (ih stayed) (subscriber_of_run earlier stayed) step
      (now _ List.mem_cons_self).hears
  · intro t x m answer calls x' earlier ih host step stays
    obtain ⟨stayed, now⟩ := List.forall_mem_append.1 stays
    exact serve earlier (ih stayed) (subscriber_of_run earlier stayed) host step
      (now _ List.mem_cons_self)

theorem conveys_of_run (run : (machine s).Run (start config surface (some l), w) t x)
    (stays : ∀ e ∈ t, Stays e) : ∀ e ∈ t, Conveys e := by
  refine stays_induction (Q := fun t _ => ∀ e ∈ t, Conveys e) (List.forall_mem_nil _) ?_ ?_ run
    stays
  · intro t x due calls x' _ conveys hl step hears
    exact List.forall_mem_append.2 ⟨conveys, List.forall_mem_singleton.2 (step.conveys hl hears)⟩
  · intro t x m answer calls x' earlier conveys hl _ step stays
    exact List.forall_mem_append.2
      ⟨conveys, List.forall_mem_singleton.2 (step.conveys (.of_run earlier) hl stays)⟩

theorem heard_perm_loads (run : (machine s).Run x t x') (conveys : ∀ e ∈ t, Conveys e) :
    (heardOfRoms t ++ x'.1.untold).Perm (x.1.untold ++ loads t) := by
  induction run with
  | start => exact .of_eq (List.append_nil _).symm
  | @next t x' m _ _ ih =>
    have earlier := ih fun e he => conveys e (by simp [he])
    have now := (conveys _ List.mem_concat_self).perm
    rw [heardOfRoms_append, loads_append, List.append_assoc]
    refine (now.append_left _).trans ?_
    rw [← List.append_assoc, ← List.append_assoc]
    exact earlier.append_right _

theorem eq_of_perm_of_short {α : Type} {a b : List α} (h : a.Perm b) (short : b.length ≤ 1) :
    a = b := by
  match b with
  | [] => exact h.eq_nil
  | [_] => exact List.perm_singleton.1 h
  | _ :: _ :: _ => simp at short

theorem heard_eq_loads (run : (machine s).Run x t x') (conveys : ∀ e ∈ t, Conveys e)
    (none : x.1.untold = []) (alone : ∀ e ∈ t, loads [e] ≠ [] → e.before.1.untold = []) :
    heardOfRoms t ++ x'.1.untold = loads t ∧ x'.1.untold.length ≤ 1 := by
  induction run with
  | start =>
    rw [none]
    exact ⟨rfl, Nat.zero_le 1⟩
  | @next t x' m _ _ ih =>
    obtain ⟨told, few⟩ := ih (fun e he => conveys e (by simp [he])) fun e he =>
      alone e (by simp [he])
    obtain ⟨perm, once⟩ := conveys _ List.mem_concat_self
    have single := alone _ List.mem_concat_self
    -- a load is left to be told, or one is made: not both, so that there is nothing to permute
    have short : (x'.1.untold ++ loads [(machine s).episode m x']).length ≤ 1 := by
      by_cases quiet : loads [(machine s).episode m x'] = []
      · rwa [quiet, List.append_nil]
      · rwa [show x'.1.untold = [] from single quiet]
    have same : _ = x'.1.untold ++ _ := eq_of_perm_of_short perm short
    constructor
    · rw [heardOfRoms_append, loads_append, List.append_assoc, same, ← told, List.append_assoc]
    · rw [← same, List.length_append] at short
      exact Nat.le_trans (Nat.le_add_left _ _) short

def LoadsAlone (e : Entry κ σ η ω) : Prop := loads [e] ≠ [] ∧ e.before.1.untold = []

theorem loads_eq_nil (h : ∀ e ∈ t, ¬ loads [e] ≠ []) : loads t = [] := by
  induction t with
  | nil => rfl
  | cons e rest ih =>
    rw [List.forall_mem_cons] at h
    rw [← List.singleton_append, loads_append, not_not.1 h.1, ih h.2, List.append_nil]

theorem last_heard_eq_last_load (run : (machine s).Run x t x') (conveys : ∀ e ∈ t, Conveys e)
    (told : x'.1.untold = []) (last : Since LoadsAlone (fun e => loads [e] ≠ []) t) :
    (heardOfRoms t).getLast? = (loads t).getLast? := by
  obtain ⟨before, e, after, rfl, ⟨made, waits⟩, quiet⟩ := last
  have final : loads (e :: after) = loads [e] := by
    rw [← List.singleton_append, loads_append, loads_eq_nil quiet, List.append_nil]
  have perm := heard_perm_loads run.onward fun f hf => conveys f (List.mem_append_right _ hf)
  rw [told, waits, List.append_nil, List.nil_append, final] at perm
  have same := eq_of_perm_of_short perm (conveys e (by simp)).once
  rw [heardOfRoms_append, loads_append, same, final, List.getLast?_append_of_ne_nil _ made,
    List.getLast?_append_of_ne_nil _ made]

theorem broadcasts_of_mem (run : (machine s).Run x t x') (he : e ∈ t)
    (told : event ∈ heard [e]) : Broadcasts event e := by
  obtain ⟨call, hc, heard⟩ := List.mem_filterMap.1 told
  rw [List.flatMap_singleton] at hc
  obtain ⟨l, rfl⟩ : ∃ l, call = .delivered l event true := by
    cases call with
    | delivered l other hears =>
      cases hears with
      | true => exact ⟨l, by rw [Option.some.inj heard]⟩
      | false => simp [Activity.heard?] at heard
    | _ => simp [Activity.heard?] at heard
  by_cases thread : e.move.isAdvance
  · obtain ⟨due, step⟩ := advances_of_mem run he thread
    cases step.broadcasts hc with
    | thread _ ha => exact .thread thread ha
    | host hm => cases hm
  · exact (serves_of_mem run he thread).broadcasts hc

theorem Advances.rests {reason : StopReason} (h : Advances s due x calls x')
    (exited : x.1.phase = .exited reason) : calls = [] ∧ x' = x := by
  cases h with
  | rested => exact ⟨rfl, rfl⟩
  | announced ha => cases ha with
    | _ hp => cases hp.symm.trans exited
  | passed hp => cases hp with
    | _ hp => cases hp.symm.trans exited
  | _ hp => cases hp.symm.trans exited

theorem exited_of_run {reason : StopReason} (run : (machine s).Run x t x')
    (exited : x.1.phase = .exited reason) : x'.1.phase = .exited reason := by
  refine run_induction (Q := fun _ x' => x'.1.phase = .exited reason) exited ?_ ?_ run
  · intro t x' due calls x'' _ ih step
    rw [(step.rests ih).2, ih]
  · intro t x' m answer calls x'' _ ih _ step
    rw [step.untouched.phase, ih]

theorem Advances.ends {reason : StopReason} (h : Advances s due x calls x')
    (hp : x.1.phase = .announcingStop reason) : x'.1.phase = .exited reason := by
  cases h with
  | announced ha => cases ha with
    | stop hp' =>
      obtain rfl := Phase.announcingStop.inj (hp'.symm.trans hp)
      rfl
    | _ other => cases other.symm.trans hp
  | passed pass => cases pass with
    | _ other => cases other.symm.trans hp
  | _ other => cases other.symm.trans hp

theorem Settled.isAboutRom {reason : StopReason} (h : Settled e.before.1)
    (exited : e.before.1.phase = .exited reason) (told : Broadcasts event e) :
    event.isAboutRom = true := by
  cases told with
  | thread _ ha => cases ha with
    | _ hp => cases hp.symm.trans exited
  | host _ hi =>
    obtain ⟨load, rfl⟩ := h.outbox _ (List.mem_of_getElem? hi)
    exact isAboutRom_romNotice load

theorem heard_after_stop {before after : List (Entry κ σ η ω)} {reason : StopReason}
    (run : (machine s).Run (start config surface (some l), w) (before ++ e :: after) x)
    (stays : ∀ f ∈ before ++ e :: after, Stays f) (stop : .pumpStopped reason ∈ heard [e]) :
    loads after = [] ∧ (heard after ++ x.1.outbox).Perm e.before.1.outbox := by
  obtain ⟨first, -, -, later⟩ := run.split
  obtain ⟨thread, announcing⟩ :=
    (Settled.of_run first).announcingStop (broadcasts_of_mem run (by simp) stop)
  obtain ⟨due, step⟩ := advances_of_mem run (by simp) thread
  have exited := step.ends announcing
  have spent : e.before.1.phase.isSpent := by
    rw [announcing]
    rfl
  obtain ⟨custody, keeps⟩ := Keeps.of_run first
  have uncalled := (uncalled_of_run run.onward spent (keeps.isOver spent).2).1
  have unasked : loads (e :: after) = [] := by
    rw [loads, ← filterMap_toCore Activity.toCore_of_loadNotice, uncalled]
    rfl
  rw [← List.singleton_append, loads_append] at unasked
  have unasked := (List.append_eq_nil_iff.1 unasked).2
  have onlyRoms : heardOfRoms after = heard after := by
    refine List.filter_eq_self.2 fun event told => ?_
    obtain ⟨call, hc, heard⟩ := List.mem_filterMap.1 told
    obtain ⟨f, hf, hc⟩ := List.mem_flatMap.1 hc
    obtain ⟨middle, last, rfl⟩ := List.append_of_mem hf
    have settled : Settled f.before.1 := by
      rw [← List.cons_append, ← List.append_assoc] at run
      exact Settled.of_run run.split.1
    exact settled.isAboutRom (exited_of_run later.split.1 exited) (broadcasts_of_mem later hf
      (List.mem_filterMap.2 ⟨call, by rwa [List.flatMap_singleton], heard⟩))
  have perm := heard_perm_loads later fun f hf => conveys_of_run run stays f (by simp [hf])
  have none : (Phase.exited reason : Phase κ).untold = [] := rfl
  rw [onlyRoms, unasked, List.append_nil, untold, untold, exited_of_run later exited, exited, none,
    List.nil_append, List.nil_append, step.outbox] at perm
  exact ⟨unasked, perm⟩

structure LoadsEarly (event : Notification) (e : Entry κ σ η ω) : Prop where
  host : ¬ e.move.isAdvance
  unannounced : ∃ load, e.before.1.phase = .announcingCore load
  loads : loads [e] = [event]

def Opens (event : Notification) (t : List (Entry κ σ η ω)) : Prop :=
  event = .coreCreated ∨ (∃ error, event = .coreCreateFailed error) ∨ ∃ e ∈ t, LoadsEarly event e

theorem Opens.append (h : Opens event t) (u : List (Entry κ σ η ω)) : Opens event (t ++ u) :=
  h.imp_right (.imp_right fun ⟨e, he, early⟩ => ⟨e, List.mem_append_left _ he, early⟩)

structure Opened (t : List (Entry κ σ η ω)) (p : Pump κ σ η) : Prop where
  early : p.phase.isOpening = true → ∀ event, event ∈ heard t ∨ event ∈ p.outbox →
    ∃ e ∈ t, LoadsEarly event e
  late : p.phase.isOpening = false → heard t ≠ []
  first : ∀ event ∈ (heard t).head?, Opens event t

namespace Opened

theorem unheard (h : Opened t e.before.1) (unheard : heard [e] = [])
    (phase : e.after.1.phase.isOpening = e.before.1.phase.isOpening)
    (waits : e.before.1.phase.isOpening = true → ∀ event ∈ e.after.1.outbox,
      event ∈ e.before.1.outbox ∨ LoadsEarly event e) : Opened (t ++ [e]) e.after.1 where
  early opening event told := by
    rw [heard_append, unheard, List.append_nil] at told
    have before := phase ▸ opening
    have settled : (event ∈ heard t ∨ event ∈ e.before.1.outbox) ∨ LoadsEarly event e := by
      rcases told with past | mem
      · exact .inl (.inl past)
      · exact (waits before event mem).imp_left .inr
    rcases settled with old | new
    · obtain ⟨f, hf, early⟩ := h.early before event old
      exact ⟨f, List.mem_append_left _ hf, early⟩
    · exact ⟨e, List.mem_concat_self, new⟩
  late past := by
    rw [heard_append, unheard, List.append_nil]
    exact h.late (phase ▸ past)
  first event told := by
    rw [heard_append, unheard, List.append_nil] at told
    exact (h.first event told).append [e]

theorem quiet (h : Opened t e.before.1) (unheard : heard [e] = [])
    (phase : e.after.1.phase.isOpening = e.before.1.phase.isOpening)
    (outbox : e.after.1.outbox = e.before.1.outbox) : Opened (t ++ [e]) e.after.1 :=
  h.unheard unheard phase fun _ _ mem => .inl (outbox ▸ mem)

theorem told (h : Opened t p) {q : Pump κ σ η} (told : heard [e] = [event])
    (opens : p.phase.isOpening = true → Opens event t)
    (waited : q.phase.isOpening = true → p.phase.isOpening = true ∧ event ∈ p.outbox ∧
      ∀ other ∈ q.outbox, other ∈ p.outbox) : Opened (t ++ [e]) q where
  early opening other mem := by
    obtain ⟨before, mine, others⟩ := waited opening
    rw [heard_append, told, List.mem_append, List.mem_singleton] at mem
    obtain ⟨f, hf, early⟩ : ∃ f ∈ t, LoadsEarly other f := by
      refine h.early before other ?_
      rcases mem with (past | rfl) | waits
      · exact .inl past
      · exact .inr mine
      · exact .inr (others other waits)
    exact ⟨f, List.mem_append_left _ hf, early⟩
  late _ := by simp [heard_append, told]
  first other mem := by
    rw [heard_append, told] at mem
    cases past : heard t with
    | nil =>
      rw [past] at mem
      obtain rfl := Option.some.inj mem
      cases opening : p.phase.isOpening with
      | true => exact (opens opening).append [e]
      | false => exact absurd past (h.late opening)
    | cons head rest =>
      rw [past] at mem
      exact (h.first other (by rw [past]; exact mem)).append [e]

end Opened

theorem Announces.isOpening (h : Announces p event next) :
    next.isOpening = false ∧ (p.phase.isOpening = true →
      event = .coreCreated ∨ ∃ error, event = .coreCreateFailed error) := by
  cases h with
  | createFailed => exact ⟨rfl, fun _ => .inr ⟨_, rfl⟩⟩
  | core | coreWithRom => exact ⟨rfl, fun _ => .inl rfl⟩
  | failure hp =>
    refine ⟨?_, fun opening => ?_⟩
    · rcases afterFailure_eq p.config p.streak with hn | hn <;> rw [hn] <;> rfl
    · rw [hp] at opening
      cases opening
  | _ hp =>
    refine ⟨rfl, fun opening => ?_⟩
    rw [hp] at opening
    cases opening

theorem Passes.isOpening (h : Passes due p next) : next.isOpening = p.phase.isOpening := by
  cases h with
  | _ hp =>
    rw [hp]
    first | done | rfl

theorem Advances.opened (opened : Opened t x.1) (h : Advances s due x calls x')
    (hl : x.1.notifier.subscriber = some l) (hears : ∀ call ∈ calls, call.isRefused = false) :
    Opened (t ++ [⟨x, .advance due, .silent, calls, x'⟩]) x'.1 := by
  cases h with
  | @announced p w w' event next _ _ ha ht =>
    obtain ⟨-, rfl⟩ := ht.heard_of_not_refused hl hears
    obtain ⟨past, opens⟩ := ha.isOpening
    exact opened.told rfl (fun opening => (opens opening).imp_right .inl)
      fun opening => nomatch past.symm.trans opening
  | passed hp => exact opened.quiet rfl hp.isOpening rfl
  | @installed p w core hp =>
    refine opened.quiet ?_ (by rw [hp]; rfl) rfl
    cases p.coordinator.core <;> rfl
  | @loaded p w w' core path outcome hp =>
    refine opened.quiet ?_ (by rw [hp]; rfl) rfl
    cases p.coordinator.core <;> rfl
  | rested => exact opened.quiet rfl rfl rfl
  | _ hp => exact opened.quiet rfl (by rw [hp]; rfl) rfl

theorem Keeps.announcing {custody : Custody κ} {core : κ} (h : Keeps calls p custody)
    (held : p.coordinator.core = some core) (opening : p.phase.isOpening = true) :
    ∃ load, p.phase = .announcingCore load := by
  have fits := h.fits
  cases hp : p.phase with
  | announcingCore load => exact ⟨load, rfl⟩
  | creating | createFailed _ | installing _ =>
    rw [hp] at fits
    cases held.symm.trans fits.2
  | _ =>
    rw [hp] at opening
    cases opening

theorem Serves.opened {custody : Custody κ} (opened : Opened t x.1)
    (h : Serves s m x answer calls x') (keeps : Keeps (t.flatMap (·.calls)) x.1 custody)
    (hl : x.1.notifier.subscriber = some l) (host : ¬ m.isAdvance)
    (stays : Stays ⟨x, m, answer, calls, x'⟩) : Opened (t ++ [⟨x, m, answer, calls, x'⟩]) x'.1 := by
  cases h with
  | @asked m p w w' path core outcome hm hp hs hc hl =>
    refine opened.unheard rfl rfl fun opening event mem => ?_
    rcases List.mem_append.1 mem with old | new
    · exact .inl old
    · obtain rfl := List.mem_singleton.1 new
      exact .inr ⟨host, keeps.announcing hc opening, rfl⟩
  | @told p w w' i event calls n hi ht =>
    obtain ⟨-, rfl⟩ := ht.heard_of_not_refused hl stays.hears
    have waited := List.mem_of_getElem? hi
    exact opened.told rfl (fun opening => .inr (.inr (opened.early opening event (.inr waited))))
      fun opening => ⟨opening, waited, fun other waits => List.mem_of_mem_eraseIdx waits⟩
  | subscribed | unsubscribed => cases stays.listens
  | _ => exact opened.quiet rfl rfl rfl

theorem opened_of_run (run : (machine s).Run (start config surface (some l), w) t x)
    (stays : ∀ e ∈ t, Stays e) : Opened t x.1 := by
  refine stays_induction (Q := fun t x => Opened t x.1) ?_ ?_ ?_ run stays
  · exact ⟨fun _ => by simp [heard, start], nofun, nofun⟩
  · intro t x due calls x' _ opened hl step hears
    exact step.opened opened hl hears
  · intro t x m answer calls x' earlier opened hl host step stays
    obtain ⟨custody, keeps⟩ := Keeps.of_run earlier
    exact step.opened opened keeps hl host stays

structure Remembers (t : List (Entry κ σ η ω)) (p : Pump κ σ η) : Prop where
  stopped : p.coordinator.stopped = p.phase.isTornDown
  romLoaded : p.coordinator.romLoaded =
    (!p.coordinator.stopped && (loads t).getLast?.any Notification.isRomLoaded)

namespace Remembers

theorem quiet (h : Remembers t e.before.1) (unasked : loads [e] = [])
    (phase : e.after.1.phase.isTornDown = e.before.1.phase.isTornDown)
    (stopped : e.after.1.coordinator.stopped = e.before.1.coordinator.stopped)
    (romLoaded : e.after.1.coordinator.romLoaded = e.before.1.coordinator.romLoaded) :
    Remembers (t ++ [e]) e.after.1 where
  stopped := by rw [stopped, phase, h.stopped]
  romLoaded := by rw [romLoaded, stopped, loads_append, unasked, List.append_nil, h.romLoaded]

theorem loaded (load : DeferredLoad) (asked : loads [e] = [romNotice load])
    (phase : e.after.1.phase.isTornDown = false) (stopped : e.after.1.coordinator.stopped = false)
    (romLoaded : e.after.1.coordinator.romLoaded = load.outcome.accepted) :
    Remembers (t ++ [e]) e.after.1 where
  stopped := by rw [stopped, phase]
  romLoaded := by simp [stopped, loads_append, asked, romLoaded]

theorem advance (h : Remembers t x.1) (step : Advances s due x calls x') :
    Remembers (t ++ [⟨x, .advance due, .silent, calls, x'⟩]) x'.1 := by
  cases step with
  | announced ha ht => exact h.quiet (by simp [loads, ht.unasked]) ha.isTornDown rfl rfl
  | passed hp => exact h.quiet rfl hp.isTornDown rfl rfl
  | @installed p w core hp =>
    refine h.quiet ?_ (by rw [hp]; rfl) rfl rfl
    cases p.coordinator.core <;> rfl
  | @loaded p w w' core path outcome hp =>
    have stopped := h.stopped
    rw [hp] at stopped
    refine loaded ⟨path, outcome⟩ ?_ rfl stopped rfl
    cases p.coordinator.core <;> rfl
  | tornDown => exact ⟨rfl, rfl⟩
  | rested => exact h.quiet rfl rfl rfl rfl
  | _ hp => exact h.quiet rfl (by rw [hp]; rfl) rfl rfl

theorem serve (h : Remembers t x.1) (step : Serves s m x answer calls x') :
    Remembers (t ++ [⟨x, m, answer, calls, x'⟩]) x'.1 := by
  cases step with
  | @asked m p w w' path core outcome hm hp hs =>
    have settled := h.stopped
    exact loaded ⟨path, outcome⟩ rfl (settled.symm.trans hs) hs rfl
  | told hi ht => exact h.quiet (by simp [loads, ht.unasked]) rfl rfl rfl
  | @subscribed p | @unsubscribed p =>
    refine h.quiet ?_ rfl rfl rfl
    cases p.notifier.subscriber <;> rfl
  | _ => exact h.quiet rfl rfl rfl rfl

theorem of_run (run : (machine s).Run (Pump.start config surface subscriber, w) t x) :
    Remembers t x.1 := by
  refine run_induction (Q := fun t x => Remembers t x.1) ⟨rfl, rfl⟩ ?_ ?_ run
  · intro t x due calls x' _ h step
    exact h.advance step
  · intro t x m answer calls x' _ h _ step
    exact h.serve step

end Remembers

end Runs

/-- The order in which a subscriber is told that is there from the start and stays. What the thread
tells first comes first, and the stop last, but for loads that a host makes meanwhile or before.
What is told of loads never crosses a moment at which nothing is left to be told; they are told in
their order if each is made at such a moment, and if the last of them was, what is told of it agrees
with whether there is a ROM. -/
theorem told_in_order_unless_loads_overlap {s : Surroundings κ σ η ω} {config : Config}
    {surface : σ} {l : η} {w w' : ω} {t : List (Entry κ σ η ω)} {p : Pump κ σ η}
    (run : (machine s).Run (start config surface (some l), w) t (p, w'))
    (stays : ∀ e ∈ t, Stays e) :
    (∀ event ∈ (heard t).head?, Opens event t) ∧
    (∀ before e after reason, t = before ++ e :: after → .pumpStopped reason ∈ heard [e] →
      loads after = [] ∧ (heard after ++ p.outbox).Perm e.before.1.outbox) ∧
    (heardOfRoms t ++ p.untold).Perm (loads t) ∧
    (∀ before e after, t = before ++ e :: after → e.before.1.untold = [] →
      (heardOfRoms before).Perm (loads before) ∧
        (heardOfRoms (e :: after) ++ p.untold).Perm (loads (e :: after))) ∧
    ((∀ e ∈ t, loads [e] ≠ [] → e.before.1.untold = []) →
      heardOfRoms t ++ p.untold = loads t) ∧
    (p.untold = [] → p.coordinator.stopped = false →
      loads t = [] ∨ Since LoadsAlone (fun e => loads [e] ≠ []) t →
        p.coordinator.romLoaded = (heardOfRoms t).getLast?.any Notification.isRomLoaded) := by
  have conveys : ∀ e ∈ t, Conveys e := conveys_of_run run stays
  have perm : (heardOfRoms t ++ p.untold).Perm (loads t) := heard_perm_loads run conveys
  refine ⟨(opened_of_run run stays).first, ?_, perm, ?_, fun alone => ?_,
    fun told untorn last => ?_⟩
  · rintro before e after reason rfl stop
    exact heard_after_stop run stays stop
  · rintro before e after rfl none
    have earlier := heard_perm_loads run.split.1 fun f hf => conveys f (by simp [hf])
    have later := heard_perm_loads run.onward fun f hf => conveys f (List.mem_append_right _ hf)
    rw [none, List.append_nil] at earlier
    rw [none] at later
    exact ⟨earlier, later⟩
  · exact (heard_eq_loads run conveys rfl alone).1
  · have same : (heardOfRoms t).getLast? = (loads t).getLast? := by
      rcases last with none | last
      · rw [none] at perm ⊢
        rw [(List.append_eq_nil_iff.1 perm.eq_nil).1]
      · exact last_heard_eq_last_load run conveys told last
    rw [(Remembers.of_run run).romLoaded, untorn, same]
    rfl

open Lockstep in
theorem second_load_told_after_stop :
    ∃ t p w, (machine Script.surroundings).Run (start {} 7 (some ⟨1, none⟩), {}) t (p, w) ∧
      heard t = [.coreCreated, .romLoaded ⟨[97]⟩, .pumpStopped .requested, .romLoaded ⟨[98]⟩] ∧
      heardOfRoms t = loads t := by
  obtain ⟨t, p, w, ran, stays, alone, told, none⟩ :
      ∃ t p w, (machine Script.surroundings).run?
          (List.replicate 3 (.advance true) ++ [.load ⟨[97]⟩, .notify 0, .load ⟨[98]⟩, .stop] ++
            List.replicate 5 (.advance true) ++ [.notify 0]) (start {} 7 (some ⟨1, none⟩), {}) =
            some (t, p, w) ∧
        (t.all fun e => decide (Stays e)) = true ∧
        (t.all fun e => decide (loads [e] ≠ [] → e.before.1.untold = [])) = true ∧
        heard t = [.coreCreated, .romLoaded ⟨[97]⟩, .pumpStopped .requested, .romLoaded ⟨[98]⟩] ∧
        p.untold = [] :=
    ⟨_, _, _, rfl, rfl, rfl, rfl, rfl⟩
  have run := Machine.Run.of_run? ran
  have all : ∀ e ∈ t, Stays e := by simpa using stays
  obtain ⟨-, -, -, -, ordered, -⟩ := told_in_order_unless_loads_overlap run all
  have same := ordered fun e he => of_decide_eq_true (List.all_eq_true.1 alone e he)
  rw [none, List.append_nil] at same
  exact ⟨t, p, w, run, told, same⟩

theorem stays_of_run? (moves : List (Move η)) {P : List (Entry κ σ η ω) → Pump κ σ η → Prop}
    (ran : ∃ t p w, (machine s).run? moves x = some (t, p, w) ∧
      (t.all fun e => decide (Stays e)) = true ∧ P t p) :
    ∃ t p w, (machine s).Run x t (p, w) ∧ (∀ e ∈ t, Stays e) ∧ P t p := by
  obtain ⟨t, p, w, ran, stays, holds⟩ := ran
  exact ⟨t, p, w, .of_run? ran, by simpa using stays, holds⟩

def refusing (bad : Path) :
    Surroundings Nat UInt32 Lockstep.Subscriber Lockstep.Script :=
  { Lockstep.Script.surroundings with
    loadRom := fun _ path s =>
      (if path = bad then .error (.loadFailed "not a ROM") else .ok (), s) }

/-- A load is told before the core; of two that overlap the second is told first, and then the last
that was told does not agree with whether there is a ROM. A load is told after the stop. -/
theorem overlapping_loads_told_out_of_order :
    (∃ t p w, (machine (refusing ⟨[98]⟩)).Run (start {} 7 (some ⟨1, none⟩), {}) t (p, w) ∧
      (∀ e ∈ t, Stays e) ∧ p.running = true ∧ p.untold = [] ∧
      heard t = [.romLoaded ⟨[97]⟩, .coreCreated, .romLoaded ⟨[99]⟩,
        .romLoadFailed ⟨[98]⟩ (.loadFailed "not a ROM")] ∧
      loads t = [.romLoaded ⟨[97]⟩, .romLoadFailed ⟨[98]⟩ (.loadFailed "not a ROM"),
        .romLoaded ⟨[99]⟩] ∧
      p.coordinator.romLoaded = true) ∧
    ∃ t p w, (machine (refusing ⟨[98]⟩)).Run (start {} 7 (some ⟨1, none⟩), {}) t (p, w) ∧
      (∀ e ∈ t, Stays e) ∧
      heard t = [.coreCreated, .pumpStopped .requested, .romLoaded ⟨[97]⟩] := by
  let core : List (Move Lockstep.Subscriber) := .replicate 2 (.advance true)
  let ending : List (Move Lockstep.Subscriber) := .stop :: .replicate 5 (.advance true)
  refine ⟨stays_of_run? (core ++ [.load ⟨[97]⟩, .notify 0, .advance true, .load ⟨[98]⟩,
      .load ⟨[99]⟩, .notify 1, .notify 0]) ?_,
    stays_of_run? (core ++ [.advance true, .load ⟨[97]⟩] ++ ending ++ [.notify 0]) ?_⟩
  · exact ⟨_, _, _, rfl, rfl, rfl, rfl, rfl, rfl, rfl⟩
  · exact ⟨_, _, _, rfl, rfl, rfl⟩

end Pump

end EmulatorHost
