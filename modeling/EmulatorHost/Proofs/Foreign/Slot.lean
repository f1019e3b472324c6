import EmulatorHost.Proofs.Foreign.Lives

/-! A session whose core has not been dropped is in the slot, or a stop that is under way has it in
hand. So what a start finds in the slot and what a stop has waited for are all that could still call
the host. -/

namespace EmulatorHost.Foreign.Shell

variable {ω : Type} {h : HostProgram ω} {m : Move} {answer : Answer} {calls : List Call}
  {x x' : Shell × ω} {t : List (Entry ω)} {e : Entry ω} {i : Nat} {s : Session} {sh : Shell} {w : ω}

theorem Does.ended (step : Does h m x answer calls x') (hs : x.1.session? i = some s)
    (ended : s.Over) : (∃ s', x'.1.session? i = some s' ∧ s'.Over) ∧
      (m.session? = some i → calls = []) := by
  have touches := step.touches i
  rw [hs] at touches
  generalize x'.1.session? i = after at touches
  cases touches with
  | left other => exact ⟨⟨s, rfl, ended⟩, fun mine => absurd mine other⟩
  | @moved _ pm w mine shown =>
    obtain ⟨later, silent⟩ := ended.next h pm w
    exact ⟨⟨_, rfl, later⟩, fun _ => shown.trans silent⟩

theorem uncalled_of_over (run : (machine h).Run x t x') (hs : x.1.session? i = some s)
    (ended : s.Over) : callsOf i t = [] := by
  refine (run_induction (Q := fun t x' => callsOf i t = [] ∧
    ∃ s', x'.1.session? i = some s' ∧ s'.Over) ⟨rfl, s, hs, ended⟩ ?_ run).1
  rintro t x' m answer calls x'' - ⟨silent, s', hs', ended'⟩ step
  obtain ⟨later, quiet⟩ := step.ended hs' ended'
  refine ⟨?_, later⟩
  rw [callsOf_append, silent, List.nil_append]
  by_cases mine : m.session? = some i
  · rw [callsOf_mine mine, quiet mine]
  · exact callsOf_other mine

def opened (t : List (Entry ω)) : List Table :=
  t.filterMap fun e => match e.move, e.answer with
    | .start table .., .started true => table
    | _, _ => none

@[simp] theorem opened_append (t t' : List (Entry ω)) :
    opened (t ++ t') = opened t ++ opened t' := List.filterMap_append ..

theorem Does.tables (step : Does h m x answer calls x') :
    x'.1.sessions.map (·.table) =
      x.1.sessions.map (·.table) ++ opened [⟨x, m, answer, calls, x'⟩] := by
  have kept (sh : Shell) (j : Nat) (pm : Pump.Move Empty) (w : ω) :
      (sh.sessions.modify j (Session.next h pm w)).map (·.table) = sh.sessions.map (·.table) := by
    refine List.ext_getElem? fun k => ?_
    rw [List.getElem?_map, List.getElem?_map, List.getElem?_modify]
    cases sh.sessions[k]? with
    | none => rfl
    | some s => by_cases same : j = k <;> simp [same, Session.next]
  cases step with
  | refused | vacated | joined => simp [opened]
  | started => simp [opened, openSession]
  | dismissed | acted => simp [opened, kept]

theorem tables_of_run (run : (machine h).Run ({}, w) t x) :
    x.1.sessions.map (·.table) = opened t := by
  refine run_induction (Q := fun t x => x.1.sessions.map (·.table) = opened t) rfl ?_ run
  rintro t x m answer calls x' - same step
  rw [step.tables, same, opened_append]

theorem session_of_opened {table : Table} (run : (machine h).Run ({}, w) t x)
    (hi : (opened t)[i]? = some table) : ∃ s, x.1.session? i = some s ∧ s.table = table := by
  rw [← tables_of_run run, List.getElem?_map] at hi
  exact Option.map_eq_some_iff.1 hi

theorem unseen_of_run (run : (machine h).Run ({}, w) t x) : callsOf x.1.sessions.length t = [] :=
  (session_induction Session.kept_open (fun m w k => k.next h m w) run _).1
    (List.getElem?_eq_none (Nat.le_refl _))

def Accounted (sh : Shell) : Prop :=
  ∀ i s, sh.session? i = some s →
    s.Over ∨ sh.slot = some i ∨ i ∈ sh.vacated ∨ i ∈ sh.awaited

theorem over_of_exited (run : (machine h).Run ({}, w) t x) (hs : x.1.session? i = some s)
    (exited : s.pump.phase.isExited = true) : s.Over := by
  obtain ⟨reason, hp⟩ := Phase.exited_of_isExited exited
  refine (Session.kept_of_run run hs).ended ?_
  rw [hp]
  rfl

theorem origin_of_modify {j : Nat} {pm : Pump.Move Empty}
    (hs : (sh.sessions.modify j (Session.next h pm w))[i]? = some s) :
    ∃ s₀, sh.session? i = some s₀ ∧ (s₀.Over → s.Over) := by
  rw [List.getElem?_modify] at hs
  obtain ⟨s₀, hs₀, rfl⟩ := Option.map_eq_some_iff.1 hs
  refine ⟨s₀, hs₀, fun ended => ?_⟩
  split
  · exact (ended.next h pm w).1
  · exact ended

theorem Does.accounted (step : Does h m x answer calls x') (accounted : x.1.Accounted)
    (run : (machine h).Run ({}, w) t x) : x'.1.Accounted := by
  intro i s hs
  cases step with
  | refused => exact accounted i s hs
  | @started table surface rate sh w vacant =>
    simp only [session?, List.getElem?_append] at hs
    split at hs
    · rcases accounted i s hs with ended | held | stopping
      · exact .inl ended
      · have current : sh.current? = some s := by
          dsimp only at held
          rw [current?, held]
          exact hs
        exact .inl (over_of_exited run hs (vacant s current))
      · exact .inr (.inr stopping)
    · rename_i far
      have last : i - sh.sessions.length = 0 := by
        have bound := (List.getElem?_eq_some_iff.1 hs).1
        simpa using bound
      exact .inr (.inl (by dsimp only; congr 1; omega))
  | @vacated sh w =>
    rcases accounted i s hs with ended | held | vacated | awaited
    · exact .inl ended
    · dsimp only at held
      exact .inr (.inr (.inl (by simp [held])))
    · exact .inr (.inr (.inl (List.mem_append_left _ vacated)))
    · exact .inr (.inr (.inr awaited))
  | @joined j sh w hj exited =>
    rcases accounted i s hs with ended | held | vacated | awaited
    · exact .inl ended
    · exact .inr (.inl held)
    · exact .inr (.inr (.inl vacated))
    · by_cases same : i = j
      · subst same
        exact .inl (over_of_exited run hs (exited s hs))
      · exact .inr (.inr (.inr ((List.mem_erase_of_ne same).2 awaited)))
  | @dismissed j sh w hj =>
    obtain ⟨s₀, hs₀, still⟩ := origin_of_modify hs
    rcases accounted i s₀ hs₀ with ended | held | vacated | awaited
    · exact .inl (still ended)
    · exact .inr (.inl held)
    · by_cases same : i = j
      · exact .inr (.inr (.inr (by simp [same])))
      · exact .inr (.inr (.inl ((List.mem_erase_of_ne same).2 vacated)))
    · exact .inr (.inr (.inr (List.mem_append_left _ awaited)))
  | acted =>
    obtain ⟨s₀, hs₀, still⟩ := origin_of_modify hs
    exact (accounted i s₀ hs₀).imp_left still

theorem accounted_of_run (run : (machine h).Run ({}, w) t x) : x.1.Accounted := by
  refine run_induction (Q := fun _ x => x.1.Accounted) ?_ ?_ run
  · intro i s hs
    cases hs
  · intro t x m answer calls x' earlier accounted step
    exact step.accounted accounted earlier

theorem over_of_started (run : (machine h).Run ({}, w) t x)
    (step : Does h m x (.started true) calls x') (hs : x.1.session? i = some s)
    (unvacated : i ∉ x.1.vacated) (unawaited : i ∉ x.1.awaited) : s.Over := by
  rcases accounted_of_run run i s hs with ended | held | vacated | awaited
  · exact ended
  · cases step with
    | @started table surface rate sh w vacant =>
      have current : sh.current? = some s := by
        dsimp only at held
        rw [current?, held]
        exact hs
      exact over_of_exited run hs (vacant s current)
  · exact absurd vacated unvacated
  · exact absurd awaited unawaited

theorem life_of_over {before after : List (Entry ω)} {table : Table}
    (run : (machine h).Run ({}, w) (before ++ e :: after) x)
    (hi : (opened before)[i]? = some table)
    (ended : ∀ s, e.before.1.session? i = some s → s.Over) :
    table.Life (callsOf i before) ∧ callsOf i (e :: after) = [] := by
  obtain ⟨first, allowed, same, later⟩ := run.split
  obtain ⟨s, hs, rfl⟩ := session_of_opened first hi
  refine ⟨(Session.kept_of_run first hs).life (ended s hs), ?_⟩
  rw [same] at later ⊢
  exact uncalled_of_over (later.cons e.move allowed) hs (ended s hs)

end EmulatorHost.Foreign.Shell
