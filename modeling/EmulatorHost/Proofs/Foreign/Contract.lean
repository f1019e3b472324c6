import EmulatorHost.Lockstep.HostScript
import EmulatorHost.Proofs.Foreign.Slot

namespace EmulatorHost.Foreign.Shell

variable {ω : Type} {h : HostProgram ω} {m : Move} {answer : Answer} {calls : List Call}
  {x x' : Shell × ω} {t before middle after : List (Entry ω)} {e : Entry ω} {i : Nat} {s : Session}
  {sh : Shell} {w : ω}

def Move.isCall : Move → Bool
  | .start .. | .vacate => true
  | _ => false

def Still (sh : Shell) : Prop := sh.vacated = [] ∧ sh.awaited = []

instance (sh : Shell) : Decidable sh.Still := inferInstanceAs (Decidable (_ ∧ _))

/-- Sessions are started and stopped by one thread. -/
def Serial (t : List (Entry ω)) : Prop := ∀ e ∈ t, e.move.isCall → e.before.1.Still

instance (t : List (Entry ω)) : Decidable (Serial t) := inferInstanceAs (Decidable (∀ e ∈ t, _))

inductive StopReturns (e : Entry ω) : Prop
  | joined {i : Nat} (hm : e.move = .join i)
  | vacant (hm : e.move = .vacate) (empty : e.before.1.slot = none)

inductive Orderly (sh : Shell) : Prop
  | still (h : sh.Still)
  | vacated {i : Nat} (hv : sh.vacated = [i]) (ha : sh.awaited = []) (empty : sh.slot = none)
  | awaited {i : Nat} (hv : sh.vacated = []) (ha : sh.awaited = [i]) (empty : sh.slot = none)

theorem Does.orderly (step : Does h m x answer calls x') (orderly : x.1.Orderly)
    (serial : m.isCall → x.1.Still) : x'.1.Orderly := by
  cases step with
  | refused => exact orderly
  | started => exact .still (serial rfl)
  | @vacated sh w =>
    obtain ⟨hv, ha⟩ := serial rfl
    dsimp only at hv ha
    cases held : sh.slot with
    | none => exact .still ⟨by simp [hv], ha⟩
    | some i => exact .vacated (i := i) (by simp [hv]) ha rfl
  | @dismissed i sh w hi =>
    replace orderly : sh.Orderly := orderly
    cases orderly with
    | still still => simp [still.1] at hi
    | @vacated j hv ha empty =>
      obtain rfl : i = j := by simpa [hv] using hi
      exact .awaited (i := i) (by simp [hv]) (by simp [ha]) empty
    | awaited hv => simp [hv] at hi
  | @joined i sh w hi =>
    replace orderly : sh.Orderly := orderly
    cases orderly with
    | still still => simp [still.2] at hi
    | vacated _ ha => simp [ha] at hi
    | @awaited j hv ha empty =>
      obtain rfl : i = j := by simpa [ha] using hi
      exact .still ⟨hv, by simp [ha]⟩
  | acted =>
    cases orderly with
    | still still => exact .still still
    | vacated hv ha empty => exact .vacated hv ha empty
    | awaited hv ha empty => exact .awaited hv ha empty

theorem orderly_of_run (run : (machine h).Run ({}, w) t x) (serial : Serial t) : x.1.Orderly := by
  refine run_induction (Q := fun t x => Serial t → x.1.Orderly) ?_ ?_ run serial
  · exact fun _ => .still ⟨rfl, rfl⟩
  · rintro t x m answer calls x' - ih step serial
    exact step.orderly (ih fun e he => serial e (List.mem_append_left _ he))
      (serial ⟨x, m, answer, calls, x'⟩ (by simp))

def AtRest (sh : Shell) : Prop := ∀ i s, sh.session? i = some s → s.Over

theorem Does.atRest (step : Does h m x answer calls x') (rest : x.1.AtRest)
    (idle : answer ≠ .started true) : calls = [] ∧ x'.1.AtRest := by
  cases step with
  | refused | vacated | joined => exact ⟨rfl, rest⟩
  | started => exact absurd rfl idle
  | dismissed =>
    refine ⟨rfl, fun i s hs => ?_⟩
    obtain ⟨s₀, hs₀, still⟩ := origin_of_modify hs
    exact still (rest i s₀ hs₀)
  | @acted i pm s sh w hs =>
    refine ⟨((rest i s hs).next h pm w).2, fun j s' hs' => ?_⟩
    obtain ⟨s₀, hs₀, still⟩ := origin_of_modify hs'
    exact still (rest j s₀ hs₀)

theorem uncalled_of_atRest (run : (machine h).Run x t x') (rest : x.1.AtRest)
    (idle : ∀ e ∈ t, e.answer ≠ .started true) : ∀ e ∈ t, e.calls = [] := by
  refine (run_induction (Q := fun t x' => (∀ e ∈ t, e.answer ≠ .started true) →
    (∀ e ∈ t, e.calls = []) ∧ x'.1.AtRest) ?_ ?_ run idle).1
  · exact fun _ => ⟨by simp, rest⟩
  · rintro t x' m answer calls x'' - ih step idle
    obtain ⟨silent, rest⟩ := ih fun e he => idle e (List.mem_append_left _ he)
    obtain ⟨quiet, later⟩ := step.atRest rest (idle ⟨x', m, answer, calls, x''⟩ (by simp))
    refine ⟨fun e he => ?_, later⟩
    rcases List.mem_append.1 he with he | he
    · exact silent e he
    · rw [List.mem_singleton.1 he]
      exact quiet

theorem Does.start_of_started {b : Bool} (step : Does h m x (.started b) calls x') :
    ∃ table surface rate, m = .start table surface rate := by
  cases step with
  | refused | started => exact ⟨_, _, _, rfl⟩

theorem atRest_of_started (run : (machine h).Run ({}, w) t x) (still : x.1.Still)
    (step : Does h m x (.started true) calls x') : x.1.AtRest :=
  fun _ _ hs => over_of_started run step hs (by simp [still.1]) (by simp [still.2])

theorem atRest_of_stopReturns (run : (machine h).Run ({}, w) t e.before) (serial : Serial (t ++ [e]))
    (step : Does h e.move e.before e.answer e.calls e.after) (stop : StopReturns e) :
    e.before.1.AtRest := by
  have orderly := orderly_of_run run fun f hf => serial f (by simp [hf])
  have still := serial e (by simp)
  obtain ⟨x, m, answer, calls, x'⟩ := e
  dsimp only at run step orderly still
  intro i s hs
  have accounted := accounted_of_run run i s hs
  cases stop with
  | @joined j hm =>
    dsimp only at hm
    subst hm
    cases step with
    | @joined _ sh w hj exited =>
      replace orderly : sh.Orderly := orderly
      dsimp only at accounted
      cases orderly with
      | still still => simp [still.2] at hj
      | vacated _ ha => simp [ha] at hj
      | @awaited k hv ha empty =>
        rcases accounted with ended | held | vacated | awaited
        · exact ended
        · cases empty.symm.trans held
        · simp [hv] at vacated
        · obtain rfl : j = k := by simpa [ha] using hj
          obtain rfl : i = j := by simpa [ha] using awaited
          exact over_of_exited run hs (exited s hs)
  | vacant hm empty =>
    dsimp only at hm empty
    subst hm
    obtain ⟨hv, ha⟩ := still rfl
    rcases accounted with ended | held | vacated | awaited
    · exact ended
    · cases empty.symm.trans held
    · simp [hv] at vacated
    · simp [ha] at awaited

def LastAlone (sh : Shell) : Prop :=
  ∀ i s, sh.session? i = some s → i + 1 < sh.sessions.length → s.Over

theorem Does.lastAlone (step : Does h m x answer calls x') (alone : x.1.LastAlone)
    (rest : answer = .started true → x.1.AtRest) : x'.1.LastAlone := by
  intro i s hs earlier
  cases step with
  | refused | vacated | joined => exact alone i s hs earlier
  | @started table surface rate sh w =>
    refine rest rfl i s ?_
    simp only [List.length_append, List.length_singleton] at earlier
    simpa [session?, List.getElem?_append_left (show i < sh.sessions.length by omega)] using hs
  | dismissed | acted =>
    obtain ⟨s₀, hs₀, still⟩ := origin_of_modify hs
    exact still (alone i s₀ hs₀ (by simpa using earlier))

theorem StopReturns.not_started (stop : StopReturns e)
    (step : Does h e.move e.before e.answer e.calls e.after) : e.answer ≠ .started true := by
  intro started
  rw [started] at step
  obtain ⟨table, surface, rate, hm⟩ := step.start_of_started
  rcases stop with hm' | hm' <;> cases hm'.symm.trans hm

theorem atRest_before (run : (machine h).Run ({}, w) t e.before) (serial : Serial (t ++ [e]))
    (step : Does h e.move e.before e.answer e.calls e.after)
    (turn : StopReturns e ∨ e.answer = .started true) : e.before.1.AtRest := by
  rcases turn with stop | started
  · exact atRest_of_stopReturns run serial step stop
  · rw [started] at step
    obtain ⟨table, surface, rate, hm⟩ := step.start_of_started
    exact atRest_of_started run (serial e (by simp) (by rw [hm]; rfl)) step

theorem callsOf_silent (silent : e.calls = []) (i : Nat) : callsOf i [e] = [] := by
  by_cases mine : e.move.session? = some i
  · rw [callsOf_mine mine, silent]
  · exact callsOf_other mine

theorem turns_of_last {n : Nat} (mine : e.move.session? = some n) :
    (List.range (n + 1)).flatMap (callsOf · (t ++ [e])) =
      (List.range (n + 1)).flatMap (callsOf · t) ++ e.calls := by
  have others : (List.range n).flatMap (callsOf · (t ++ [e])) =
      (List.range n).flatMap (callsOf · t) := by
    refine congrArg List.flatten (List.map_congr_left fun j hj => ?_)
    have other : e.move.session? ≠ some j := by
      rw [mine]
      exact fun same => Nat.ne_of_gt (List.mem_range.1 hj) (Option.some.inj same)
    rw [callsOf_append, callsOf_other other, List.append_nil]
  rw [List.range_succ, List.flatMap_append, List.flatMap_append, others, List.flatMap_singleton,
    List.flatMap_singleton, callsOf_append, callsOf_mine mine, List.append_assoc]

theorem calls_in_turn (run : (machine h).Run ({}, w) t x) (serial : Serial t) :
    t.flatMap (·.calls) = (List.range x.1.sessions.length).flatMap (callsOf · t) := by
  refine (run_induction (Q := fun t x => Serial t → x.1.LastAlone ∧
    t.flatMap (·.calls) = (List.range x.1.sessions.length).flatMap (callsOf · t)) ?_ ?_ run serial).2
  · exact fun _ => ⟨by simp [LastAlone, session?], rfl⟩
  · rintro t x m answer calls x' earlier ih step serial
    obtain ⟨alone, same⟩ := ih fun e he => serial e (List.mem_append_left _ he)
    refine ⟨step.lastAlone alone fun started => ?_, ?_⟩
    · exact atRest_before (e := ⟨x, m, answer, calls, x'⟩) earlier serial step (.inr started)
    · have unseen := unseen_of_run earlier
      rw [List.flatMap_append, same, List.flatMap_singleton]
      cases step with
      | refused | vacated | joined | dismissed => simp [callsOf_append, callsOf_silent]
      | started => simp [callsOf_append, callsOf_silent, List.range_succ, unseen]
      | @acted i pm s sh w hs =>
        have bound : i < sh.sessions.length := (List.getElem?_eq_some_iff.1 hs).1
        simp only [List.length_modify]
        by_cases last : i + 1 = sh.sessions.length
        · rw [← last, turns_of_last rfl]
        · have ended := alone i s hs (by dsimp only; omega)
          have silent : s.shows h pm w = [] := (ended.next h pm w).2
          simp [callsOf_append, callsOf_silent, silent]

/-- If sessions are started and stopped one after another, no entry point is called from the return
of a stop to the next start. What the host sees of a session is the beginning of a life, and all of
it when a stop returns or the next session starts; so it sees one life after the other. -/
theorem sessions_live_in_turn (run : (machine h).Run ({}, w) t x) (serial : Serial t) :
    (∀ before e middle after, t = before ++ e :: (middle ++ after) → StopReturns e →
      (∀ f ∈ middle, f.answer ≠ .started true) → ∀ f ∈ middle, f.calls = []) ∧
    (∀ before e after, t = before ++ e :: after → StopReturns e ∨ e.answer = .started true →
      ∀ (i : Nat) (table : Table), (opened before)[i]? = some table →
        table.Life (callsOf i before) ∧ callsOf i (e :: after) = []) ∧
    (∀ (i : Nat) (table : Table), (opened t)[i]? = some table →
      ∃ later : List Call, table.Life (callsOf i t ++ later)) ∧
    t.flatMap (·.calls) = (List.range (opened t).length).flatMap (callsOf · t) := by
  have rests : ∀ before e after, t = before ++ e :: after →
      StopReturns e ∨ e.answer = .started true → e.before.1.AtRest ∧
        Does h e.move e.before e.answer e.calls e.after := by
    rintro before e after rfl turn
    obtain ⟨first, allowed, same, -⟩ := run.split
    have step := does h allowed
    rw [← same] at step
    refine ⟨atRest_before first (fun f hf => serial f ?_) step turn, step⟩
    rw [List.append_cons]
    exact List.mem_append_left _ hf
  refine ⟨?_, ?_, ?_, ?_⟩
  · rintro before e middle after rfl stop idle
    obtain ⟨rest, step⟩ := rests before e (middle ++ after) rfl (.inl stop)
    obtain ⟨-, -, -, later⟩ := run.split
    obtain ⟨x', next, -⟩ := later.cut
    exact uncalled_of_atRest next (step.atRest rest (stop.not_started step)).2 idle
  · rintro before e after rfl turn i table hi
    exact life_of_over run hi fun s hs => (rests before e after rfl turn).1 i s hs
  · intro i table hi
    obtain ⟨s, hs, rfl⟩ := session_of_opened run hi
    exact (Session.kept_of_run run hs).prefix_life
  · rw [← tables_of_run run, List.length_map]
    exact calls_in_turn run serial

open Lockstep in
theorem rom_picked_while_stopping :
    ∃ t x, (machine HostScript.program).Run ({}, {}) t x ∧ Serial t ∧ (opened t).length = 2 ∧
      ∃ before e after, t = before ++ e :: after ∧ StopReturns e ∧
        (callsOf 0 before).map Prod.fst =
          [.create 5, .runFrame 5 7, .loadRom 5 ⟨[97, 0]⟩, .destroy 5] ∧
        callsOf 0 (e :: after) = [] ∧ t.flatMap (·.calls) = callsOf 0 t ++ callsOf 1 t := by
  obtain ⟨t, x, run, serial, two, one, joins, calls⟩ : ∃ t x,
      (machine HostScript.program).Run ({}, {}) t x ∧ Serial t ∧ (opened t).length = 2 ∧
        0 < (opened (t.take 18)).length ∧ (t[18]?.any fun e => e.move matches .join 0) = true ∧
        (callsOf 0 (t.take 18)).map Prod.fst =
          [.create 5, .runFrame 5 7, .loadRom 5 ⟨[97, 0]⟩, .destroy 5] :=
    Machine.Run.of_decided
      (.start (some { userData := 5 }) 7 0 :: List.replicate 6 (.act 0 (.advance true)) ++
        [.vacate, .act 0 (.advance true), .act 0 (.load ⟨[97]⟩), .dismiss 0] ++
        List.replicate 7 (.act 0 (.advance true)) ++
        [.join 0, .act 0 (.load ⟨[98]⟩), .start (some {}) 7 0, .act 1 (.advance true)])
      (by decide +kernel)
  obtain ⟨e, he, hm⟩ := (Option.any_eq_true _ _).1 joins
  have stop : StopReturns e := by
    cases hm' : e.move with
    | join i => exact .joined hm'
    | _ => simp [hm'] at hm
  obtain ⟨-, whole, -, turns⟩ := sessions_live_in_turn run serial
  refine ⟨t, x, run, serial, two, _, e, _, eq_split_of_getElem? he, stop, calls, ?_, ?_⟩
  · exact (whole _ e _ (eq_split_of_getElem? he) (.inl stop) 0 _ (List.getElem?_eq_getElem one)).2
  · rw [turns, two]
    simp [List.range_succ]

end EmulatorHost.Foreign.Shell
