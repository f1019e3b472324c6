import EmulatorHost.Lockstep.Script
import EmulatorHost.Proofs.Pump.Schedule

namespace EmulatorHost

theorem Drawable.set_of_unchanged {d : Drawable} {size : Size} (h : (d.set size).1 = false) :
    (d.set size).2 = d := by
  unfold set at *
  split at h <;> simp_all

namespace Pump

def Answer.isVain : Answer → Bool
  | .resized (.ok changed) => !changed
  | .resized (.error (.invalidSize _)) => true
  | .picked (.ok .cancelled) | .picked (.error .emptyPath) | .picked (.error .stopped) => true
  | _ => false

variable {κ σ η ω : Type} {s : Surroundings κ σ η ω} {m : Move η} {answer : Answer}
  {calls : List (Activity κ σ η)} {x x' : Pump κ σ η × ω} {t : List (Entry κ σ η ω)}
  {e : Entry κ σ η ω}

theorem loadAnswer_isVain (path : Path) (outcome : CoreOutcome) :
    (Answer.picked (Coordinator.loadAnswer path outcome)).isVain = false := by
  cases outcome <;> rfl

theorem Serves.traceless (h : Serves s m x answer calls x') (vain : answer.isVain) :
    calls = [] ∧ x' = x := by
  cases h with
  | invisible | cancelled | unnamed | refused => exact ⟨rfl, rfl⟩
  | resized =>
    have unchanged := Drawable.set_of_unchanged (by simpa [Answer.isVain] using vain)
    exact ⟨rfl, by rw [unchanged]⟩
  | asked =>
    rw [loadAnswer_isVain] at vain
    cases vain
  | _ => cases vain

theorem silent_of_mem (run : (machine s).Run x t x') (he : e ∈ t) (thread : e.move.isAdvance) :
    e.answer = .silent := by
  obtain ⟨before, after, rfl⟩ := List.append_of_mem he
  obtain ⟨due, hm⟩ := Move.eq_advance thread
  rw [run.split.2.2.1, hm]
  rfl

theorem traceless_of_mem (run : (machine s).Run x t x') (he : e ∈ t) (vain : e.answer.isVain) :
    e.calls = [] ∧ e.after = e.before := by
  by_cases thread : e.move.isAdvance
  · rw [silent_of_mem run he thread] at vain
    cases vain
  · exact (serves_of_mem run he thread).traceless vain

def heeded (t : List (Entry κ σ η ω)) : List (Entry κ σ η ω) := t.filter (!·.answer.isVain)

theorem run_heeded (run : (machine s).Run x t x') : (machine s).Run x (heeded t) x' :=
  run.filter fun _ he kept => (traceless_of_mem run he (by simpa using kept)).2

theorem calls_heeded (run : (machine s).Run x t x') :
    (heeded t).flatMap (·.calls) = t.flatMap (·.calls) :=
  Machine.calls_filter fun _ he kept => (traceless_of_mem run he (by simpa using kept)).1

/-- Requests that come to nothing leave no trace. Without all of them the run reaches the same state
at each point, with the same calls made by then, and all else is answered as before. -/
theorem vain_requests_leave_no_trace {s : Surroundings κ σ η ω} {config : Config} {surface : σ}
    {subscriber : Option η} {w w' : ω} {t : List (Entry κ σ η ω)} {p : Pump κ σ η}
    (run : (machine s).Run (start config surface subscriber, w) t (p, w')) :
    (∀ e ∈ t, e.answer.isVain → e.calls = [] ∧ e.after = e.before) ∧
    (∀ before after, t = before ++ after → ∃ x,
      (machine s).Run (start config surface subscriber, w) before x ∧
      (machine s).Run (start config surface subscriber, w) (heeded before) x ∧
      (heeded before).flatMap (·.calls) = before.flatMap (·.calls) ∧
      (machine s).Run x (heeded after) (p, w')) ∧
    (start config surface subscriber).run? s.recorded ((heeded t).map (·.move)) ⟨w, []⟩ =
      some ((heeded t).map (·.answer), p, ⟨w', t.flatMap (·.calls)⟩) := by
  refine ⟨fun e he vain => traceless_of_mem run he vain, ?_, ?_⟩
  · rintro before after rfl
    obtain ⟨x, earlier, later⟩ := run.cut
    exact ⟨x, earlier, run_heeded earlier, calls_heeded earlier, run_heeded later⟩
  · rw [run?_of_machine (run_heeded run), calls_heeded run]

open Lockstep in
theorem eight_vain_requests_unnoticed :
    ∃ t p w, (machine Script.surroundings).Run (start {} 7 (some ⟨1, none⟩), {}) t (p, w) ∧
      (t.filter (·.answer.isVain)).length = 8 ∧ p.phase = .exited .requested ∧ p.frames = 1 ∧
      (∀ e ∈ t, e.answer.isVain → e.calls = [] ∧ e.after = e.before) ∧
      (start {} 7 (some ⟨1, none⟩)).run? Script.surroundings.recorded
          ((heeded t).map (·.move)) ⟨{}, []⟩ =
        some ((heeded t).map (·.answer), p, ⟨w, t.flatMap (·.calls)⟩) := by
  obtain ⟨t, p, w, ran, vain, exited, frames⟩ :
      ∃ t p w, (machine Script.surroundings).run?
          ([.resize ⟨0, 3⟩, .load ⟨[]⟩, .pick .cancelled, .load ⟨[97]⟩, .resize ⟨4, 3⟩,
              .resize ⟨4, 3⟩, .pick (.picked ⟨[]⟩)] ++ .replicate 10 (.advance true) ++
            [.resize ⟨4, 3⟩, .pick .cancelled, .stop] ++ .replicate 5 (.advance true) ++
            [.load ⟨[98]⟩]) (start {} 7 (some ⟨1, none⟩), {}) = some (t, p, w) ∧
        (t.filter (·.answer.isVain)).length = 8 ∧ p.phase = .exited .requested ∧ p.frames = 1 :=
    ⟨_, _, _, rfl, rfl, rfl, rfl⟩
  have run := Machine.Run.of_run? ran
  obtain ⟨traceless, -, same⟩ := vain_requests_leave_no_trace run
  exact ⟨t, p, w, run, vain, exited, frames, traceless, same⟩

end Pump

end EmulatorHost
