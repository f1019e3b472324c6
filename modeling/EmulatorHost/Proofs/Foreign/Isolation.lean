import EmulatorHost.Proofs.Foreign.Contract
import EmulatorHost.Proofs.Foreign.Exports

namespace EmulatorHost.Foreign

variable {ω ω' : Type}

namespace Shell

variable {h : HostProgram ω} {h' : HostProgram ω'} {t u : List (Entry ω)} {x : Shell × ω}
  {sh sh' : Shell} {i : Nat} {s : Session} {w w' : ω} {v v' : ω'}

def Free (sh : Shell) : Prop := ∀ s, sh.current? = some s → s.pump.phase.isExited = true

instance (sh : Shell) : Decidable sh.Free :=
  decidable_of_iff (∀ s ∈ sh.current?, s.pump.phase.isExited = true) Iff.rfl

theorem settled_of_run (run : (machine h).Run ({}, w) t x) (hs : x.1.session? i = some s) :
    s.pump.Settled :=
  (session_induction (P := fun s _ => s.pump.Settled) (fun _ _ _ => .start ..)
    (fun m w settled => Pump.Settled.episode (x := (_, w)) settled _ m) run i).2 s hs

theorem slot_of_current? (hs : sh.current? = some s) :
    ∃ i, sh.slot = some i ∧ sh.session? i = some s :=
  Option.bind_eq_some_iff.1 hs

theorem episode_start (h : HostProgram ω) (sh : Shell) (w : ω) (table : Option Table)
    (surface : UInt64) (rate : UInt32) :
    (machine h).episode (.start table surface rate) (sh, w) =
      ⟨(sh, w), .start table surface rate, .started (sh.start table surface rate).1, [],
        (sh.start table surface rate).2, w⟩ := rfl

theorem start_of_running (running : sh.isRunning = true) (table : Option Table) (surface : UInt64)
    (rate : UInt32) : sh.start table surface rate = (false, sh) := by
  cases table with
  | none => rfl
  | some table => exact if_pos running

theorem start_of_idle (idle : sh.isRunning = false) (table : Table) (surface : UInt64)
    (rate : UInt32) :
    sh.start (some table) surface rate =
      (true, { sh with
        sessions := sh.sessions ++ [openSession table surface rate]
        slot := some sh.sessions.length }) :=
  if_neg (Bool.eq_false_iff.1 idle)

theorem isRunning_iff (run : (machine h).Run ({}, w) t (sh, w')) :
    sh.isRunning = true ↔ ∃ s, sh.current? = some s ∧ s.pump.phase.hasEnded = false := by
  unfold isRunning
  cases hs : sh.current? with
  | none => simp
  | some s =>
    obtain ⟨i, -, there⟩ := slot_of_current? hs
    simp [(settled_of_run run there).running]

theorem isRunning_of_free (run : (machine h).Run ({}, w) t (sh, w')) (free : sh.Free) :
    sh.isRunning = false := by
  by_contra running
  obtain ⟨s, hs, busy⟩ := (isRunning_iff run).1 (by simpa using running)
  obtain ⟨reason, hp⟩ := Phase.exited_of_isExited (free s hs)
  rw [hp] at busy
  cases busy

theorem canStart_of_free (free : sh.Free) : sh.canStart = true := by
  unfold canStart
  cases hs : sh.current? with
  | none => rfl
  | some s => simp [free s hs]

def opening (table : Table) (surface : UInt64) (rate : UInt32) : Shell :=
  ⟨[openSession table surface rate], some 0, [], []⟩

theorem start_of_free (run : (machine h).Run ({}, w) t (sh, w')) (still : sh.Still)
    (free : sh.Free) (table : Table) (surface : UInt64) (rate : UInt32) :
    sh.start (some table) surface rate =
      (true, (opening table surface rate).behind sh.sessions) := by
  rw [start_of_idle (isRunning_of_free run free)]
  simp [opening, behind, still.1, still.2]

end Shell

structure Session.Fresh (s : Session) : Prop where
  running : s.pump.running = true
  frames : s.pump.frames = 0
  paused : s.pump.paused = false
  romLoaded : s.pump.coordinator.romLoaded = false
  parkedRom : s.pump.coordinator.parkedRom = none
  pending : s.pump.coordinator.drawable.pending = false

theorem Session.last_step {s : Session} {reason : StopReason}
    (hp : s.pump.phase = .announcingStop reason) (h : HostProgram ω) (due : Bool) (w : ω) :
    s.episode h (.advance due) w =
      ⟨(s.pump, w), .advance due, .silent, [], { s.pump with phase := .exited reason }, w⟩ := by
  have unheard : Pump.Tells (surroundings h s.table) (.pumpStopped reason) (s.pump.notifier, w) []
      (s.pump.notifier, w) := by
    rcases s.pump.notifier with ⟨_ | l⟩
    · exact .unheard
    · exact l.elim
  exact (Pump.Announces.stop hp).episode_eq unheard

namespace Shell

variable {h : HostProgram ω} {h' : HostProgram ω'} {t u : List (Entry ω)} {x : Shell × ω}
  {sh sh' : Shell} {w w' : ω} {v v' : ω'}

theorem start_law (h : HostProgram ω) (sh : Shell) (w : ω) (table : Option Table)
    (surface : UInt64) (rate : UInt32) :
    let e := (machine h).episode (.start table surface rate) (sh, w)
    e.answer = .started (table.isSome && !sh.isRunning) ∧ e.calls = [] ∧
      (e.answer = .started false → e.after = (sh, w)) ∧
      (e.answer = .started true → ∃ s, e.after.1.current? = some s ∧ table = some s.table ∧
        s.pump.surface = surface ∧ s.Fresh) := by
  rw [episode_start]
  cases running : sh.isRunning with
  | true =>
    rw [start_of_running running]
    exact ⟨by simp, rfl, fun _ => rfl, nofun⟩
  | false =>
    cases table with
    | none => exact ⟨rfl, rfl, fun _ => rfl, nofun⟩
    | some table =>
      rw [start_of_idle running]
      refine ⟨rfl, rfl, nofun, fun _ => ⟨openSession table surface rate, ?_, rfl, rfl, ?_⟩⟩
      · simp [current?, session?]
      · exact ⟨rfl, rfl, rfl, rfl, rfl, rfl⟩

theorem canStart_after_last_step (run : (machine h).Run ({}, w) t (sh, w')) :
    sh.canStart = true ∨ ∃ i, sh.slot = some i ∧ ∀ due,
      let e := (machine h).episode (.act i (.advance due)) (sh, w')
      sh.allows (.act i (.advance due)) = true ∧ e.calls = [] ∧ e.after.1.canStart = true ∧
        e.after.1.isRunning = false := by
  cases hs : sh.current? with
  | none => exact .inl (by simp [canStart, hs])
  | some s =>
    obtain ⟨i, held, there⟩ := slot_of_current? hs
    have settled := settled_of_run run there
    cases running : s.pump.running with
    | true => exact .inl (by simp [canStart, hs, running])
    | false =>
      have ended := settled.hasEnded running
      cases hp : s.pump.phase with
      | exited reason => exact .inl (by simp [canStart, hs, hp, Phase.isExited])
      | announcingStop reason =>
        refine .inr ⟨i, held, fun due => ⟨?_, ?_⟩⟩
        · simp [allows, isShared, there, Pump.allows, Pump.Move.needsCoordinator]
        · have last := s.last_step hp h due w'
          have left : current? { sh with
              sessions := sh.sessions.modify i (Session.next h (.advance due) w') } =
                some (s.next h (.advance due) w') := by
            simp [current?, session?, held, show sh.sessions[i]? = some s from there]
          simp only [Machine.episode, machine, answer, perform, act_recorded h there]
          refine ⟨?_, ?_, ?_⟩
          · simp [Session.shows, last]
          · rw [canStart, left]
            simp [Session.next, last, Phase.isExited]
          · rw [isRunning, left]
            simpa [Session.next, last] using running
      | _ =>
        rw [hp] at ended
        cases ended

structure Alike (h : HostProgram ω) (h' : HostProgram ω') (e : Entry ω) (e' : Entry ω') : Prop where
  answer : e'.answer = e.answer
  calls : e'.calls = e.calls
  exports : SameExports h h' e.after.1 e'.after.1

theorem SameTurn.alike_behind {e : Entry ω} {e' : Entry ω'} (same : SameTurn e e')
    (h : HostProgram ω) (h' : HostProgram ω') (old old' : List Session) :
    Alike h h' (e.behind old) (e'.behind old') where
  answer := same.answer
  calls := same.calls
  exports := by
    change SameExports h h' (e.after.1.behind old) (e'.after.1.behind old')
    rw [same.after]
    exact .of_behind ..

/-- A run with these moves, if the sessions that it starts are numbered from the first of them. -/
structure Onward (h : HostProgram ω) (x : Shell × ω) (moves : List Move) (u : List (Entry ω))
    (x' : Shell × ω) : Prop where
  run : (machine h).Run x u x'
  moves : u.map (·.move) = moves.map (Move.shift x.1.sessions.length)

theorem alike_after_start {table : Table} {surface : UInt64} {rate : UInt32} {moves : List Move}
    (opens : sh.start (some table) surface rate =
      (true, (opening table surface rate).behind sh.sessions))
    (opens' : sh'.start (some table) surface rate =
      (true, (opening table surface rate).behind sh'.sessions))
    (able : sh'.canStart = true)
    (onward : Onward h (sh, w) (.start (some table) surface rate :: moves) u x)
    (again : h'.replay? (u.flatMap (·.calls)) v = some v') :
    ∃ u' last, Onward h' (sh', v) (.start (some table) surface rate :: moves) u' (last, v') ∧
      List.Forall₂ (Alike h h') u u' := by
  obtain ⟨run, shifted⟩ := onward
  cases u with
  | nil => cases shifted
  | cons e rest =>
    obtain ⟨hm, others⟩ := List.cons.inj shifted
    obtain ⟨-, same, later⟩ := run.uncons
    rw [show e.move = .start (some table) surface rate from hm, episode_start, opens] at same
    subst same
    -- The rest is a run of the new session alone: it is taken to the other host there, and then
    -- behind the sessions that this one has had.
    obtain ⟨u₀, last, w', ran, moved, rfl, rfl⟩ := run_of_behind later others
    rw [List.flatMap_cons, List.nil_append, calls_behind] at again
    obtain ⟨u₁, ran', alike⟩ := run_replay ran again
    have turn := episode_start h' sh' v (some table) surface rate
    rw [opens'] at turn
    have allowed : (machine h').allows (sh', v) (.start (some table) surface rate) = true := by
      simp [machine, allows, able]
    have first := Machine.Run.single (Move.start (some table) surface rate) allowed
    rw [turn] at first
    refine ⟨_, _, ⟨first.trans (run_behind ran'), ?_⟩, .cons ⟨rfl, rfl, .of_behind ..⟩ ?_⟩
    · rw [List.map_append, moves_behind, moves_of_sameTurns alike, moved]
      rfl
    · refine List.forall₂_map_left_iff.2 (List.forall₂_map_right_iff.2 (alike.imp ?_))
      exact fun _ _ same => same.alike_behind h h' sh.sessions sh'.sessions

/-- Sessions are isolated. A start succeeds if there is a table and no pump in the slot that is
still running; it waits for nothing but the last step of a thread, and if it is refused nothing has
changed. Whatever came before it, once no stop is under way and the pump in the slot has exited, all
that follows a start is the same for a host that gives the same answers. -/
theorem sessions_are_isolated {h : HostProgram ω} {t : List (Entry ω)} {sh : Shell} {w v : ω}
    (run : (machine h).Run ({}, w) t (sh, v)) :
    (∀ table surface rate, let e := (machine h).episode (.start table surface rate) (sh, v)
      e.answer = .started (table.isSome && !sh.isRunning) ∧ e.calls = [] ∧
        (e.answer = .started false → e.after = (sh, v)) ∧
        (e.answer = .started true → ∃ s, e.after.1.current? = some s ∧ table = some s.table ∧
          s.pump.surface = surface ∧ s.Fresh)) ∧
    (sh.isRunning = true ↔ ∃ s, sh.current? = some s ∧ s.pump.phase.hasEnded = false) ∧
    (sh.canStart = true ∨ ∃ i, sh.slot = some i ∧ ∀ due,
      let e := (machine h).episode (.act i (.advance due)) (sh, v)
      sh.allows (.act i (.advance due)) = true ∧ e.calls = [] ∧ e.after.1.canStart = true ∧
        e.after.1.isRunning = false) ∧
    ∀ {ω' : Type} (h' : HostProgram ω') (w' v' : ω') (t' : List (Entry ω')) (sh' : Shell),
      (machine h').Run ({}, w') t' (sh', v') → sh.Still → sh.Free → sh'.Still → sh'.Free →
      ∀ (table : Table) (surface : UInt64) (rate : UInt32) (moves : List Move) (u : List (Entry ω))
        (x : Shell × ω) (last : ω'),
        Onward h (sh, v) (.start (some table) surface rate :: moves) u x →
        h'.replay? (u.flatMap (·.calls)) v' = some last →
        ∃ u' sh'', Onward h' (sh', v') (.start (some table) surface rate :: moves) u' (sh'', last) ∧
          List.Forall₂ (Alike h h') u u' := by
  refine ⟨start_law h sh v, isRunning_iff run, canStart_after_last_step run, ?_⟩
  intro ω' h' w' v' t' sh' run' still free still' free' table surface rate moves u x last onward
    again
  exact alike_after_start (start_of_free run still free table surface rate)
    (start_of_free run' still' free' table surface rate) (canStart_of_free free') onward again

def reluctant : HostProgram Nat where
  create _ n := (n ≠ 0, n + 1)
  destroy _ n := n
  runFrame _ _ n := (true, n)
  setOutputSize _ _ n := (true, n)
  loadRom _ _ n := (true, n)

open Lockstep in
theorem session_after_refused_core_as_after_stop :
    ∃ t sh v t' sh' v' u x u' x', (machine reluctant).Run ({}, 0) t (sh, v) ∧
      (machine HostScript.program).Run ({}, {}) t' (sh', v') ∧
      (machine reluctant).Run (sh, v) u x ∧ (machine HostScript.program).Run (sh', v') u' x' ∧
      sh.slot = some 0 ∧ sh'.slot = none ∧ List.Forall₂ (Alike reluctant HostScript.program) u u' ∧
      (u.flatMap (·.calls)).map Prod.fst =
        [.create 5, .loadRom 5 ⟨[98, 0]⟩, .setOutputSize 5 ⟨2, 2⟩, .runFrame 5 7] := by
  let table : Table := { userData := 5 }
  let past : List Move := [.start (some table) 7 0, .act 0 (.load ⟨[97]⟩),
    .act 0 (.resize ⟨4, 3⟩), .act 0 (.pause true)] ++ .replicate 6 (.act 0 (.advance true))
  let past' : List Move := .start (some table) 9 60 :: .replicate 7 (.act 0 (.advance true)) ++
    [.vacate, .dismiss 0] ++ .replicate 9 (.act 0 (.advance true)) ++ [.join 0]
  let moves : List Move := [.act 0 (.load ⟨[98]⟩), .act 0 (.resize ⟨2, 2⟩)] ++
    .replicate 8 (.act 0 (.advance true))
  have decided : ((machine reluctant).run? past ({}, 0)).any fun (_, sh, v) =>
      ((machine reluctant).run? ((.start (some table) 7 0 :: moves).map (Move.shift 1)) (sh, v)).any
        fun (u, _) => ((machine HostScript.program).run? past' ({}, {})).any fun (_, sh', v') =>
          (HostScript.program.replay? (u.flatMap (·.calls)) v').any fun _ =>
            decide (sh.Still ∧ sh.Free ∧ sh'.Still ∧ sh'.Free ∧ sh.sessions.length = 1 ∧
              sh.slot = some 0 ∧ sh'.slot = none ∧ (u.flatMap (·.calls)).map Prod.fst =
                [.create 5, .loadRom 5 ⟨[98, 0]⟩, .setOutputSize 5 ⟨2, 2⟩, .runFrame 5 7]) := by
    decide +kernel
  obtain ⟨⟨t, sh, v⟩, ran, decided⟩ := (Option.any_eq_true _ _).1 decided
  obtain ⟨⟨u, x⟩, onward, decided⟩ := (Option.any_eq_true _ _).1 decided
  obtain ⟨⟨t', sh', v'⟩, ran', decided⟩ := (Option.any_eq_true _ _).1 decided
  obtain ⟨last, again, decided⟩ := (Option.any_eq_true _ _).1 decided
  obtain ⟨still, free, still', free', one, slot, slot', calls⟩ := of_decide_eq_true decided
  obtain ⟨-, -, -, isolated⟩ := sessions_are_isolated (Machine.Run.of_run? ran)
  have shifted := Machine.Run.moves_of_run? onward
  rw [← one] at shifted
  obtain ⟨u', sh'', onward', alike⟩ := isolated HostScript.program {} v' t' sh'
    (Machine.Run.of_run? ran') still free still' free' table 7 0 moves u x last
    ⟨Machine.Run.of_run? onward, shifted⟩ again
  exact ⟨t, sh, v, t', sh', v', u, x, u', _, .of_run? ran, .of_run? ran', .of_run? onward,
    onward'.run, slot, slot', alike, calls⟩

end Shell

end EmulatorHost.Foreign
