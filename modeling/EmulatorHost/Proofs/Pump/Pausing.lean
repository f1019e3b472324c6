import EmulatorHost.Lockstep.Script
import EmulatorHost.Proofs.Pump.Schedule
import Mathlib.Data.List.Forall2

namespace EmulatorHost

def Phase.checksPause {κ : Type} : Phase κ → Bool
  | .checkingPause => true
  | _ => false

namespace Pump

variable {κ σ η ω : Type} {s : Surroundings κ σ η ω} {due : Bool} {m : Move η}
  {calls : List (Activity κ σ η)} {x x' : Pump κ σ η × ω} {t rest : List (Entry κ σ η ω)}
  {e e' : Entry κ σ η ω} {p : Pump κ σ η} {w : ω} {idle : Bool}

def Move.isPause : Move η → Bool
  | .pause _ => true
  | _ => false

def idles (e : Entry κ σ η ω) : Bool :=
  e.move.isAdvance && e.before.1.phase.checksPause && e.before.1.paused

def idlesNext : List (Entry κ σ η ω) → Bool
  | [] => false
  | e :: rest => if e.move.isAdvance then idles e else idlesNext rest

/-- A pause, or one of the two steps of an idle round: the thread looks for a stop, and then it
finds the pump paused. -/
def isDull (e : Entry κ σ η ω) (rest : List (Entry κ σ η ω)) : Bool :=
  e.move.isPause || e.move.isAdvance && (idles e || idlesNext rest)

def lively : List (Entry κ σ η ω) → List (Entry κ σ η ω)
  | [] => []
  | e :: rest => if isDull e rest then lively rest else e :: lively rest

/-- The same pump, never paused. During an idle round it is still before that round. -/
def unpaused (idle : Bool) (p : Pump κ σ η) : Pump κ σ η :=
  { p with
      config := { p.config with startPaused := false }
      paused := false
      phase := if idle then .checkingStop else p.phase }

theorem requestLoad_unpaused (s : Surroundings κ σ η ω) (path : Path) (p : Pump κ σ η) (w : ω) :
    (p.unpaused idle).requestLoad s path w =
      Prod.map id (Prod.map (unpaused idle) id) (p.requestLoad s path w) := by
  unfold requestLoad
  split <;> rfl

theorem setDrawableSize_unpaused (size : Size) (p : Pump κ σ η) :
    (p.unpaused idle).setDrawableSize size =
      Prod.map id (unpaused idle) (p.setDrawableSize size) := by
  unfold setDrawableSize
  split <;> rfl

theorem perform_unpaused (host : ¬ m.isAdvance) (awake : ¬ m.isPause) (s : Surroundings κ σ η ω)
    (p : Pump κ σ η) (w : ω) :
    (p.unpaused idle).perform s m w =
      Prod.map id (Prod.map (unpaused idle) id) (p.perform s m w) := by
  cases m with
  | advance due => exact absurd rfl host
  | resize size => simp [perform, setDrawableSize_unpaused]
  | load path => simp [perform, requestLoad_unpaused]
  | pick result =>
    cases result with
    | cancelled => rfl
    | picked path => simp [perform, requestPick, requestLoad_unpaused]
  | notify i =>
    simp only [perform, sendNotice, show (p.unpaused idle).outbox = p.outbox from rfl]
    cases p.outbox[i]? <;> rfl
  | pause on => exact absurd rfl awake
  | stop | inspect | subscribe | unsubscribe => rfl

theorem step_unpaused (unbounded : p.config.pacing = .unbounded)
    (awake : p.phase = .checkingPause → p.paused = false) (s : Surroundings κ σ η ω) (due : Bool)
    (w : ω) :
    (p.unpaused false).step s due w = Prod.map (unpaused false) id (p.step s due w) := by
  have same : (p.unpaused false).phase = p.phase := rfl
  unfold step
  rw [same]
  cases h : p.phase with
  | creating =>
    rcases hc : s.createCore w with ⟨e | core, w'⟩ <;> rfl
  | announcingCore deferred => cases deferred <;> rfl
  | checkingStop => cases hs : p.stopRequested <;> simp [unpaused, enter, hs]
  | checkingPause => simp [unpaused, enter, awake h, unbounded]
  | awaitingDeadline => cases hs : p.stopRequested <;> simp [unpaused, enter, hs]
  | ready =>
    simp only [show (p.unpaused false).coordinator = p.coordinator from rfl,
      show (p.unpaused false).surface = p.surface from rfl]
    rcases p.coordinator.pumpOnce s.toCores p.surface w with ⟨_ | report, c, w'⟩ <;> rfl
  | reportingResize report => rcases report with ⟨_ | r, render⟩ <;> rfl
  | counting render => cases render <;> rfl
  | dropping core reason => cases core <;> rfl
  | _ => rfl

theorem allows_unpaused (idle : Bool) (h : p.allows m) : (p.unpaused idle).allows m := by
  cases idle with
  | true => simp [allows, unpaused, Phase.isRendering]
  | false => exact h

def counterpart (idle : Bool) (e : Entry κ σ η ω) : Entry κ σ η ω :=
  { e with
      before := Prod.map (unpaused idle) id e.before
      after := Prod.map (unpaused idle) id e.after }

theorem episode_unpaused_of_host (host : ¬ m.isAdvance) (awake : ¬ m.isPause) :
    (machine s).episode m (Prod.map (unpaused idle) id x) =
      counterpart idle ((machine s).episode m x) := by
  have same : (x.1.unpaused idle).perform s.recorded m ⟨x.2, []⟩ = _ :=
    perform_unpaused host awake s.recorded x.1 ⟨x.2, []⟩
  simp [Machine.episode, machine, counterpart, same]

theorem episode_unpaused_of_advance (unbounded : x.1.config.pacing = .unbounded)
    (awake : x.1.phase = .checkingPause → x.1.paused = false) :
    (machine s).episode (.advance due) (Prod.map (unpaused false) id x) =
      counterpart false ((machine s).episode (.advance due) x) := by
  have same := step_unpaused unbounded awake s.recorded due ⟨x.2, []⟩
  simp [Machine.episode, machine, perform, counterpart, same]

/-- An entry of a run and its counterpart in the run that is never paused. Only a host can find the
thread elsewhere there, before an idle round. -/
def Alike (e e' : Entry κ σ η ω) : Prop :=
  ∃ idle, e' = counterpart idle e ∧
    (idle = true → ¬ e.move.isAdvance ∧ e.before.1.phase = .checkingPause)

theorem not_checkingPause_afterFailure (config : Config) (streak : UInt32) :
    (afterFailure config streak : Phase κ) ≠ .checkingPause := by
  rcases @afterFailure_eq κ config streak with h | h <;> rw [h] <;> exact nofun

theorem Announces.not_checkingPause {event : Notification} {next : Phase κ}
    (h : Announces p event next) : next ≠ .checkingPause := by
  cases h with
  | failure => exact not_checkingPause_afterFailure p.config p.streak
  | _ => exact nofun

theorem Passes.checkingPause {next : Phase κ} (h : Passes due p next)
    (hn : next = .checkingPause) : p.phase = .checkingStop := by
  cases h with
  | onwards hp => exact hp
  | _ => cases hn

theorem Advances.checkingPause (h : Advances s due x calls x')
    (hn : x'.1.phase = .checkingPause) :
    x.1.phase = .checkingStop ∧ calls = [] ∧ x' = (x.1.enter .checkingPause, x.2) := by
  cases h with
  | announced ha => exact absurd hn ha.not_checkingPause
  | passed hp =>
    obtain rfl := hn
    exact ⟨hp.checkingPause rfl, rfl, rfl⟩
  | rested hp => cases hp.symm.trans hn
  | _ => cases hn

theorem checkingPause_of_idles (h : idles e) :
    e.move.isAdvance ∧ e.before.1.phase = .checkingPause ∧ e.before.1.paused = true := by
  rw [idles, Bool.and_eq_true, Bool.and_eq_true] at h
  obtain ⟨⟨thread, looks⟩, paused⟩ := h
  refine ⟨thread, ?_, paused⟩
  cases hp : e.before.1.phase <;> rw [hp] at looks <;> first | rfl | cases looks

theorem idles_episode_iff :
    idles ((machine s).episode (.advance due) x) ↔
      x.1.phase = .checkingPause ∧ x.1.paused = true := by
  constructor
  · exact fun h => (checkingPause_of_idles h).2
  · rintro ⟨hp, paused⟩
    simp [idles, Machine.episode, Move.isAdvance, Phase.checksPause, hp, paused]

theorem idlesNext_of_thread (thread : e.move.isAdvance) : idlesNext (e :: rest) = idles e :=
  if_pos thread

theorem idlesNext_of_host (host : ¬ e.move.isAdvance) : idlesNext (e :: rest) = idlesNext rest :=
  if_neg host

theorem checkingPause_of_idlesNext (run : (machine s).Run x t x') (h : idlesNext t) :
    x.1.phase = .checkingPause := by
  induction t generalizing x with
  | nil => cases h
  | cons e rest ih =>
    obtain ⟨-, same, later⟩ := run.uncons
    by_cases thread : e.move.isAdvance
    · rw [idlesNext_of_thread thread] at h
      have looks := (checkingPause_of_idles h).2.1
      rwa [same] at looks
    · rw [idlesNext_of_host thread] at h
      have looks := ih later h
      have step := serves s thread x
      rwa [same, step.untouched.phase] at looks

theorem idle_round (looks : x.1.phase = .checkingPause) (paused : x.1.paused = true) :
    (machine s).episode (.advance due) x =
      ⟨x, .advance due, .silent, [], x.1.enter .checkingStop, x.2⟩ := by
  simp [Machine.episode, machine, perform, step, looks, paused]

theorem unpaused_of_checkingStop (looks : x.1.phase = .checkingStop) :
    Prod.map (unpaused true) id (x.1.enter .checkingPause, x.2) =
      Prod.map (unpaused false) id x := by
  obtain ⟨p, w⟩ := x
  simp [unpaused, enter, show p.phase = .checkingStop from looks]

theorem isDull_of_thread (thread : e.move.isAdvance) :
    isDull e rest = (idles e || idlesNext rest) := by
  obtain ⟨due, hm⟩ := Move.eq_advance thread
  simp [isDull, hm, Move.isPause, Move.isAdvance]

theorem isDull_of_host (host : ¬ e.move.isAdvance) : isDull e rest = e.move.isPause := by
  simp [isDull, host]

theorem of_isDull (run : (machine s).Run x (e :: rest) x') (dull : isDull e rest) :
    e.calls = [] ∧ Prod.map (unpaused (idlesNext (e :: rest))) id x =
      Prod.map (unpaused (idlesNext rest)) id e.after := by
  obtain ⟨-, same, later⟩ := run.uncons
  by_cases thread : e.move.isAdvance
  · rw [idlesNext_of_thread thread]
    rw [isDull_of_thread thread] at dull
    obtain ⟨due, hm⟩ := Move.eq_advance thread
    rw [hm] at same
    obtain rfl := same
    cases idle : idles ((machine s).episode (.advance due) x) with
    | true =>
      obtain ⟨looks, paused⟩ := idles_episode_iff.1 idle
      have busy : idlesNext rest = false := by
        by_contra next
        have stuck := checkingPause_of_idlesNext later (by simpa using next)
        rw [idle_round looks paused] at stuck
        cases stuck
      rw [busy, idle_round looks paused]
      exact ⟨rfl, rfl⟩
    | false =>
      have next : idlesNext rest := by simpa [idle] using dull
      obtain ⟨looks, uncalled, after⟩ :=
        (advances s due x).checkingPause (checkingPause_of_idlesNext later next)
      rw [next, after, unpaused_of_checkingStop looks]
      exact ⟨uncalled, rfl⟩
  · rw [idlesNext_of_host thread]
    rw [isDull_of_host thread] at dull
    cases hm : e.move with
    | pause on =>
      rw [same, hm]
      exact ⟨rfl, rfl⟩
    | _ =>
      rw [hm] at dull
      cases dull

theorem of_not_isDull (run : (machine s).Run x (e :: rest) x')
    (unbounded : x.1.config.pacing = .unbounded) (lively : ¬ isDull e rest) :
    idlesNext (e :: rest) = idlesNext rest ∧
      (machine s).episode e.move (Prod.map (unpaused (idlesNext rest)) id x) =
        counterpart (idlesNext rest) e ∧
      Alike e (counterpart (idlesNext rest) e) := by
  obtain ⟨-, same, later⟩ := run.uncons
  by_cases thread : e.move.isAdvance
  · rw [idlesNext_of_thread thread]
    rw [isDull_of_thread thread] at lively
    obtain ⟨due, hm⟩ := Move.eq_advance thread
    rw [hm] at same
    obtain rfl := same
    obtain ⟨awake, busy⟩ : idles ((machine s).episode (.advance due) x) = false ∧
        idlesNext rest = false := by simpa using lively
    rw [awake, busy]
    refine ⟨rfl, episode_unpaused_of_advance unbounded fun looks => ?_, false, rfl, nofun⟩
    by_contra paused
    have idle : idles ((machine s).episode (.advance due) x) :=
      idles_episode_iff.2 ⟨looks, by simpa using paused⟩
    rw [awake] at idle
    cases idle
  · rw [idlesNext_of_host thread]
    rw [isDull_of_host thread] at lively
    refine ⟨rfl, ?_, _, rfl, fun next => ⟨thread, ?_⟩⟩
    · rw [episode_unpaused_of_host thread lively, ← same]
    · have looks := checkingPause_of_idlesNext run (by rwa [idlesNext_of_host thread])
      rwa [same]

theorem run_lively (run : (machine s).Run x t x') (unbounded : x.1.config.pacing = .unbounded) :
    ∃ t', (machine s).Run (Prod.map (unpaused (idlesNext t)) id x) t'
        (Prod.map (unpaused false) id x') ∧
      List.Forall₂ Alike (lively t) t' ∧ t'.flatMap (·.calls) = t.flatMap (·.calls) := by
  induction t generalizing x with
  | nil =>
    obtain rfl := run.eq_of_nil
    exact ⟨[], .start, .nil, rfl⟩
  | cons e rest ih =>
    obtain ⟨allowed, same, later⟩ := run.uncons
    have config := (config_of_run (Machine.Run.single e.move allowed)).1
    rw [← same] at config
    obtain ⟨t', ran, alike, calls⟩ := ih later (by rw [config, unbounded])
    by_cases dull : isDull e rest
    · obtain ⟨uncalled, stays⟩ := of_isDull run dull
      refine ⟨t', stays ▸ ran, ?_, ?_⟩
      · rwa [lively, if_pos dull]
      · rw [List.flatMap_cons, uncalled, calls, List.nil_append]
    · obtain ⟨next, again, first⟩ := of_not_isDull run unbounded dull
      have able := allows_unpaused (idlesNext rest) allowed
      refine ⟨counterpart (idlesNext rest) e :: t', ?_, ?_, ?_⟩
      · rw [next, ← again]
        refine .cons e.move able ?_
        rw [again]
        exact ran
      · rw [lively, if_neg dull]
        exact .cons first alike
      · rw [List.flatMap_cons, List.flatMap_cons, calls]
        rfl

theorem hosts_lively (t : List (Entry κ σ η ω)) :
    (lively t).filter (!·.move.isAdvance) =
      t.filter fun e => !e.move.isAdvance && !e.move.isPause := by
  induction t with
  | nil => rfl
  | cons e rest ih =>
    by_cases thread : e.move.isAdvance
    · rw [lively, isDull_of_thread thread]
      split <;> simp [thread, ih]
    · rw [lively, isDull_of_host thread]
      cases pause : e.move.isPause <;> simp [thread, pause, ih]

theorem Alike.same_schedule {t t' : List (Entry κ σ η ω)} (h : List.Forall₂ Alike t t') :
    t'.map (·.move) = t.map (·.move) ∧ t'.map (·.answer) = t.map (·.answer) := by
  induction h with
  | nil => exact ⟨rfl, rfl⟩
  | @cons e _ _ _ alike _ ih =>
    obtain ⟨idle, rfl, -⟩ := alike
    exact ⟨congrArg (e.move :: ·) ih.1, congrArg (e.answer :: ·) ih.2⟩

/-- Pausing is invisible to the core. Without the pauses and the idle rounds, and with all else that
hosts do left where it is, a run of a pump that does not space its frames is a run of the pump that
starts unpaused: step by step it makes the same calls, and its state is the same but for the pause,
up to the end of the run. -/
theorem pausing_is_invisible {s : Surroundings κ σ η ω} {config : Config} {surface : σ}
    {subscriber : Option η} {w w' : ω} {t : List (Entry κ σ η ω)} {p : Pump κ σ η}
    (unbounded : config.pacing = .unbounded)
    (run : (machine s).Run (start config surface subscriber, w) t (p, w')) :
    (∃ t', (machine s).Run (start { config with startPaused := false } surface subscriber, w) t'
        (p.unpaused false, w') ∧
      List.Forall₂ Alike (lively t) t' ∧ t'.flatMap (·.calls) = t.flatMap (·.calls)) ∧
    ((lively t).filter (!·.move.isAdvance) =
      t.filter fun e => !e.move.isAdvance && !e.move.isPause) ∧
    (start { config with startPaused := false } surface subscriber).run? s.recorded
        ((lively t).map (·.move)) ⟨w, []⟩ =
      some ((lively t).map (·.answer), p.unpaused false, ⟨w', t.flatMap (·.calls)⟩) := by
  obtain ⟨t', ran, alike, calls⟩ := run_lively run unbounded
  have busy : idlesNext t = false := by
    by_contra next
    cases checkingPause_of_idlesNext run (by simpa using next)
  rw [busy] at ran
  refine ⟨⟨t', ran, alike, calls⟩, hosts_lively t, ?_⟩
  rw [← calls, ← (Alike.same_schedule alike).1, ← (Alike.same_schedule alike).2]
  exact run?_of_machine ran

open Lockstep in
theorem gives_up_as_if_never_paused :
    ∃ t t' p w, (machine Script.surroundings).Run
        (start ⟨.unbounded, some 2, true⟩ 7 (some ⟨1, none⟩), { failing := .always }) t (p, w) ∧
      (machine Script.surroundings).Run
        (start ⟨.unbounded, some 2, false⟩ 7 (some ⟨1, none⟩), { failing := .always }) t'
        (p.unpaused false, w) ∧
      t.length = 32 ∧ (lively t).length = 23 ∧ List.Forall₂ Alike (lively t) t' ∧
      t'.flatMap (·.calls) = t.flatMap (·.calls) ∧ p.phase = .exited (.renderFailures 2) := by
  obtain ⟨t, p, w, ran, long, short, gaveUp⟩ :
      ∃ t p w, (machine Script.surroundings).run?
          (.replicate 6 (.advance true) ++ [.load ⟨[97]⟩, .advance true, .pause false] ++
            .replicate 5 (.advance true) ++ [.pause true] ++ .replicate 4 (.advance true) ++
            [.pause false, .advance true, .advance true, .resize ⟨4, 3⟩] ++
            .replicate 9 (.advance true))
          (start ⟨.unbounded, some 2, true⟩ 7 (some ⟨1, none⟩), { failing := .always }) =
            some (t, p, w) ∧
        t.length = 32 ∧ (lively t).length = 23 ∧ p.phase = .exited (.renderFailures 2) :=
    ⟨_, _, _, rfl, rfl, rfl, rfl⟩
  have run := Machine.Run.of_run? ran
  obtain ⟨⟨t', ran', alike, calls⟩, -, -⟩ := pausing_is_invisible rfl run
  exact ⟨t, t', p, w, run, ran', long, short, alike, calls, gaveUp⟩

end Pump

end EmulatorHost
