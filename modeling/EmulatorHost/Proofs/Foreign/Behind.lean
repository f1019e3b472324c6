import EmulatorHost.Proofs.Foreign.History
import Mathlib.Data.List.Basic

/-! Sessions that nothing names any more change the numbers of those that come after them, and
nothing else. -/

namespace EmulatorHost.Foreign.Shell

variable {ω : Type} {old : List Session} {sh sh' : Shell} {m : Move} {i : Nat} {w w' : ω}
  {h : HostProgram ω} {pm : Pump.Move Empty} {t : List (Entry ω)}

def behind (old : List Session) (sh : Shell) : Shell where
  sessions := old ++ sh.sessions
  slot := sh.slot.map (old.length + ·)
  vacated := sh.vacated.map (old.length + ·)
  awaited := sh.awaited.map (old.length + ·)

def Move.shift (n : Nat) : Move → Move
  | .start table surface rate => .start table surface rate
  | .vacate => .vacate
  | .dismiss i => .dismiss (n + i)
  | .join i => .join (n + i)
  | .act i m => .act (n + i) m

@[simp] theorem session?_behind : (sh.behind old).session? (old.length + i) = sh.session? i := by
  simp [session?, behind, List.getElem?_append_right]

@[simp] theorem current?_behind : (sh.behind old).current? = sh.current? := by
  unfold current?
  cases held : sh.slot with
  | none => simp [behind, held]
  | some i =>
    rw [show (sh.behind old).slot = some (old.length + i) by simp [behind, held]]
    exact session?_behind

theorem erase_shifted (n i : Nat) (l : List Nat) :
    (l.map (n + ·)).erase (n + i) = (l.erase i).map (n + ·) :=
  (List.map_erase (fun _ _ same => Nat.add_left_cancel same) l).symm

theorem allows_behind : (sh.behind old).allows (m.shift old.length) = sh.allows m := by
  cases m with
  | start => simp [Move.shift, allows, canStart]
  | vacate => rfl
  | dismiss i => simp [Move.shift, allows, behind]
  | join i =>
    rw [Move.shift, allows, allows, session?_behind]
    simp [behind]
  | act i pm => simp [Move.shift, allows]

theorem act_behind : (sh.behind old).act h (old.length + i) pm w =
    Prod.map id (Prod.map (behind old) id) (sh.act h i pm w) := by
  unfold act
  rw [session?_behind]
  cases sh.session? i with
  | none => rfl
  | some s => simp [behind, List.set_append_right]

theorem perform_behind : (sh.behind old).perform h (m.shift old.length) w =
    Prod.map (behind old) id (sh.perform h m w) := by
  cases m with
  | start table surface rate =>
    cases table with
    | none => rfl
    | some table =>
      simp only [Move.shift, perform, start, current?_behind]
      split <;> simp [behind]
  | vacate => cases held : sh.slot <;> simp [Move.shift, perform, vacate, behind, held]
  | dismiss i =>
    -- The numbers move on before the pump is told, so `act_behind` applies to the shell in between.
    have told : ({ sh.behind old with
        vacated := (sh.behind old).vacated.erase (old.length + i)
        awaited := (sh.behind old).awaited ++ [old.length + i] } : Shell) =
      behind old { sh with vacated := sh.vacated.erase i, awaited := sh.awaited ++ [i] } := by
      simp [behind, erase_shifted]
    rw [Move.shift, perform, dismiss, told, act_behind]
    rfl
  | join i => simp [Move.shift, perform, join, behind, erase_shifted]
  | act i pm => simp [Move.shift, perform, act_behind]

theorem answer_behind : (sh.behind old).answer h (m.shift old.length) w = sh.answer h m w := by
  cases m with
  | start table surface rate =>
    cases table with
    | none => rfl
    | some table =>
      simp only [Move.shift, answer, start, current?_behind]
      split <;> rfl
  | act i pm => simp [Move.shift, answer, act_behind]
  | _ => rfl

def Entry.behind (old : List Session) (e : Entry ω) : Entry ω where
  before := Prod.map (Shell.behind old) id e.before
  move := e.move.shift old.length
  answer := e.answer
  calls := e.calls
  after := Prod.map (Shell.behind old) id e.after

theorem episode_behind (h : HostProgram ω) (old : List Session) (m : Move) (sh : Shell) (w : ω) :
    (machine h).episode (m.shift old.length) (sh.behind old, w) =
      Entry.behind old ((machine h).episode m (sh, w)) := by
  simp only [Machine.episode, machine, answer_behind, perform_behind]
  rfl

theorem calls_behind (old : List Session) (t : List (Entry ω)) :
    (t.map (Entry.behind old)).flatMap (·.calls) = t.flatMap (·.calls) :=
  List.flatMap_map ..

theorem moves_behind (old : List Session) (t : List (Entry ω)) :
    (t.map (Entry.behind old)).map (·.move) = (t.map (·.move)).map (Move.shift old.length) := by
  simp only [List.map_map]
  rfl

theorem run_behind (run : (machine h).Run (sh, w) t (sh', w')) :
    (machine h).Run (sh.behind old, w) (t.map (Entry.behind old)) (sh'.behind old, w') := by
  induction t generalizing sh w with
  | nil =>
    obtain ⟨rfl, rfl⟩ := Prod.mk.inj run.eq_of_nil
    exact .start
  | cons e rest ih =>
    obtain ⟨allowed, same, later⟩ := run.uncons
    have again := episode_behind h old e.move sh w
    rw [← same] at again
    rw [List.map_cons, ← again]
    refine .cons _ (allows_behind.trans allowed) ?_
    rw [again]
    exact ih later

theorem run_of_behind {x : Shell × ω} {moves : List Move}
    (run : (machine h).Run (sh.behind old, w) t x)
    (shifted : t.map (·.move) = moves.map (Move.shift old.length)) :
    ∃ t' sh' w', (machine h).Run (sh, w) t' (sh', w') ∧ t'.map (·.move) = moves ∧
      t = t'.map (Entry.behind old) ∧ x = (sh'.behind old, w') := by
  induction moves generalizing sh w t with
  | nil =>
    obtain rfl := List.map_eq_nil_iff.1 shifted
    exact ⟨[], sh, w, .start, rfl, rfl, run.eq_of_nil⟩
  | cons m moves ih =>
    cases t with
    | nil => cases shifted
    | cons e rest =>
      obtain ⟨hm, others⟩ := List.cons.inj shifted
      obtain ⟨allowed, same, later⟩ := run.uncons
      rw [show e.move = m.shift old.length from hm] at allowed same
      rw [episode_behind] at same
      subst same
      obtain ⟨t', sh', w', ran, moved, rfl, rfl⟩ := ih later others
      refine ⟨_ :: t', sh', w', ran.cons m (allows_behind.symm.trans allowed), ?_, rfl, rfl⟩
      rw [List.map_cons, moved]
      rfl

end EmulatorHost.Foreign.Shell
