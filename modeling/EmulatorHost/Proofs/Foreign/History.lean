import EmulatorHost.Foreign.Shell
import EmulatorHost.Proofs.Mirrors
import EmulatorHost.Proofs.Pump.History

/-! A host program as a machine: its threads and its sessions' pumps take turns. What one turn comes
to for a session is a step of the pump's own machine, whose calls the host sees through the
session's table. -/

namespace EmulatorHost.Foreign

variable {ω : Type}

abbrev Call := HostCall × Option Bool

def pathText? (path : Path) : Option CString :=
  (Utf8.decode? path.bytes).bind fun _ => CString.ofBytes? path.bytes

namespace Table

def isAsked (t : Table) : Bool := t.firstMissing?.isNone && t.offers .create

def seen (t : Table) : Activity Core UInt64 Empty → List Call
  | .created answer => if t.isAsked then [(.create t.userData, some answer.isOk)] else []
  | .frame core surface answer => [(.runFrame core.userData surface, some answer.accepted)]
  | .resized core size answer => [(.setOutputSize core.userData size, some answer.accepted)]
  | .loaded core path answer =>
    (pathText? path).toList.map fun text => (.loadRom core.userData text, some answer.accepted)
  | .dropped core => if core.hasDestroy then [(.destroy core.userData, none)] else []
  | .delivered l .. => l.elim
  | .released l => l.elim

end Table

def HostRecord.ofRecorded (t : Table) (past : List Call)
    (r : Recorded Core UInt64 Empty ω) : HostRecord ω :=
  ⟨r.world, past ++ r.activity.flatMap t.seen⟩

theorem accepted_outcome (e : CoreError) (answer : Bool) :
    (Core.outcome e answer).accepted = answer := by
  cases answer <;> rfl

theorem surroundings_mirrors (h : HostProgram ω) (t : Table) (past : List Call) :
    (surroundings h t).recorded.Mirrors (HostRecord.ofRecorded t past)
      (surroundings h.recorded t) where
  createCore r := by
    simp only [surroundings, Surroundings.recorded, Recorded.call, Core.create]
    cases missing : t.firstMissing? with
    | some e => simp [HostRecord.ofRecorded, Table.seen, Table.isAsked, missing, Prod.map]
    | none =>
      cases offered : t.offers .create with
      | false =>
        simp [HostRecord.ofRecorded, Table.seen, Table.isAsked, missing, offered, Prod.map]
      | true =>
        simp only [HostProgram.recorded, HostRecord.call, HostRecord.ofRecorded, if_true]
        rcases h.create t.userData r.world with ⟨_ | _, w⟩ <;>
          simp [Table.seen, Table.isAsked, missing, offered, Prod.map, HostRecord.ofRecorded,
            Except.isOk, Except.toBool]
  runFrame core surface r := by
    simp [surroundings, Surroundings.recorded, Recorded.call, Core.calls, Core.runFrame,
      HostProgram.recorded, HostRecord.call, HostRecord.ofRecorded, Table.seen, accepted_outcome,
      Prod.map]
  setOutputSize core size r := by
    simp [surroundings, Surroundings.recorded, Recorded.call, Core.calls, Core.setOutputSize,
      HostProgram.recorded, HostRecord.call, HostRecord.ofRecorded, Table.seen, accepted_outcome,
      Prod.map]
  loadRom core path r := by
    simp only [surroundings, Surroundings.recorded, Recorded.call, Core.calls, Core.loadRom]
    cases read : Utf8.decode? path.bytes with
    | none => simp [HostRecord.ofRecorded, Table.seen, pathText?, read, Prod.map]
    | some _ =>
      cases text : CString.ofBytes? path.bytes with
      | none => simp [HostRecord.ofRecorded, Table.seen, pathText?, read, text, Prod.map]
      | some s =>
        simp [HostProgram.recorded, HostRecord.call, HostRecord.ofRecorded, Table.seen, pathText?,
          read, text, accepted_outcome, Prod.map]
  drop core r := by
    simp only [surroundings, Surroundings.recorded, Recorded.note, Core.calls, Core.drop]
    cases owned : core.hasDestroy with
    | false => simp [HostRecord.ofRecorded, Table.seen, owned]
    | true =>
      simp [HostProgram.recorded, HostRecord.note, HostRecord.ofRecorded, Table.seen, owned]
  deliver l := l.elim
  release l := l.elim

namespace Session

def episode (h : HostProgram ω) (m : Pump.Move Empty) (w : ω) (s : Session) :
    Pump.Entry Core UInt64 Empty ω :=
  (Pump.machine (surroundings h s.table)).episode m (s.pump, w)

def next (h : HostProgram ω) (m : Pump.Move Empty) (w : ω) (s : Session) : Session :=
  { s with pump := (s.episode h m w).after.1 }

def shows (h : HostProgram ω) (m : Pump.Move Empty) (w : ω) (s : Session) : List Call :=
  (s.episode h m w).calls.flatMap s.table.seen

theorem perform_recorded (h : HostProgram ω) (m : Pump.Move Empty) (w : ω) (past : List Call)
    (s : Session) :
    s.pump.perform (surroundings h.recorded s.table) m ⟨w, past⟩ =
      ((s.episode h m w).answer, (s.next h m w).pump,
        ⟨(s.episode h m w).after.2, past ++ s.shows h m w⟩) := by
  have same : (⟨w, past⟩ : HostRecord ω) = HostRecord.ofRecorded s.table past ⟨w, []⟩ := by
    simp [HostRecord.ofRecorded]
  rw [same, Pump.perform_mirror (surroundings_mirrors h s.table past)]
  rfl

end Session

namespace Shell

inductive Answer where
  | silent
  | started (answer : Bool)
  | acted (answer : Pump.Answer)

def answer (h : HostProgram ω) (m : Move) (sh : Shell) (w : ω) : Answer :=
  match m with
  | .start table surface rate => .started (sh.start table surface rate).1
  | .act i m => .acted (sh.act h i m w).1
  | _ => .silent

def machine (h : HostProgram ω) : Machine (Shell × ω) Move Answer Call where
  allows x m := x.1.allows m
  perform m x :=
    let r := x.1.perform h.recorded m ⟨x.2, []⟩
    (x.1.answer h.recorded m ⟨x.2, []⟩, r.2.calls, r.1, r.2.world)

abbrev Entry (ω : Type) := Episode (Shell × ω) Move Answer Call

def Move.session? : Move → Option Nat
  | .dismiss i | .act i _ => some i
  | _ => none

def Move.pumpMove? (i : Nat) : Move → Option (Pump.Move Empty)
  | .dismiss j => if j = i then some .stop else none
  | .act j m => if j = i then some m else none
  | _ => none

theorem Move.session?_of_pumpMove? {m : Move} {i : Nat} {pm : Pump.Move Empty}
    (acts : m.pumpMove? i = some pm) : m.session? = some i := by
  cases m with
  | start | vacate | join => cases acts
  | dismiss j | act j _ =>
    simp only [pumpMove?] at acts
    split at acts
    · rename_i same
      exact congrArg some same
    · cases acts

theorem Move.pumpMove?_of_other {m : Move} {i : Nat} (other : m.session? ≠ some i) :
    m.pumpMove? i = none := by
  cases acts : m.pumpMove? i with
  | none => rfl
  | some pm => exact absurd (session?_of_pumpMove? acts) other

/-- What a turn can come to, if it can be taken. -/
inductive Does (h : HostProgram ω) : Move → Shell × ω → Answer → List Call → Shell × ω → Prop
  | refused {table : Option Table} {surface : UInt64} {rate : UInt32} {sh : Shell} {w : ω} :
      Does h (.start table surface rate) (sh, w) (.started false) [] (sh, w)
  | started {table : Table} {surface : UInt64} {rate : UInt32} {sh : Shell} {w : ω}
      (vacant : ∀ s, sh.current? = some s → s.pump.phase.isExited = true) :
      Does h (.start (some table) surface rate) (sh, w) (.started true) []
        ({ sh with
            sessions := sh.sessions ++ [openSession table surface rate]
            slot := some sh.sessions.length }, w)
  | vacated {sh : Shell} {w : ω} : Does h .vacate (sh, w) .silent []
      ({ sh with slot := none, vacated := sh.vacated ++ sh.slot.toList }, w)
  | dismissed {i : Nat} {sh : Shell} {w : ω} (hi : i ∈ sh.vacated) :
      Does h (.dismiss i) (sh, w) .silent []
        ({ sh with
            sessions := sh.sessions.modify i (Session.next h .stop w)
            vacated := sh.vacated.erase i
            awaited := sh.awaited ++ [i] }, w)
  | joined {i : Nat} {sh : Shell} {w : ω} (hi : i ∈ sh.awaited)
      (exited : ∀ s, sh.session? i = some s → s.pump.phase.isExited = true) :
      Does h (.join i) (sh, w) .silent [] ({ sh with awaited := sh.awaited.erase i }, w)
  | acted {i : Nat} {m : Pump.Move Empty} {s : Session} {sh : Shell} {w : ω}
      (hs : sh.session? i = some s) :
      Does h (.act i m) (sh, w) (.acted (s.episode h m w).answer) (s.shows h m w)
        ({ sh with sessions := sh.sessions.modify i (Session.next h m w) },
          (s.episode h m w).after.2)

theorem act_recorded (h : HostProgram ω) {i : Nat} {s : Session} {sh : Shell}
    (hs : sh.session? i = some s) (m : Pump.Move Empty) (w : ω) (past : List Call) :
    sh.act h.recorded i m ⟨w, past⟩ = ((s.episode h m w).answer,
      { sh with sessions := sh.sessions.modify i (Session.next h m w) },
      ⟨(s.episode h m w).after.2, past ++ s.shows h m w⟩) := by
  have set : sh.sessions.set i (s.next h m w) = sh.sessions.modify i (Session.next h m w) := by
    have hi : sh.sessions[i]? = some s := hs
    refine List.ext_getElem? fun j => ?_
    rw [List.getElem?_set, List.getElem?_modify]
    by_cases same : i = j
    · subst same
      simp [(List.getElem?_eq_some_iff.1 hi).1, (List.getElem?_eq_some_iff.1 hi).2]
    · simp [same]
  simp only [act, hs, Session.perform_recorded, ← set]
  rfl

theorem act_absent (h : HostProgram ω) {i : Nat} {sh : Shell} (hs : sh.session? i = none)
    (m : Pump.Move Empty) (w : ω) : sh.act h i m w = (.silent, sh, w) := by
  simp only [act, hs]

theorem does (h : HostProgram ω) {m : Move} {x : Shell × ω} (allowed : (machine h).allows x m) :
    Does h m x ((machine h).episode m x).answer ((machine h).episode m x).calls
      ((machine h).episode m x).after := by
  obtain ⟨sh, w⟩ := x
  cases m with
  | start table surface rate =>
    cases table with
    | none => exact .refused
    | some table =>
      simp only [Machine.episode, machine, answer, perform, start]
      split
      · exact .refused
      · rename_i idle
        refine .started fun s hs => ?_
        simp only [machine, allows, canStart, hs] at allowed
        simp only [hs, Option.any_some] at idle
        simpa [idle] using allowed
  | vacate => exact .vacated
  | dismiss i =>
    have hi : i ∈ sh.vacated := by simpa [machine, allows] using allowed
    simp only [Machine.episode, machine, answer, perform, dismiss]
    generalize told : ({ sh with
      vacated := sh.vacated.erase i, awaited := sh.awaited ++ [i] } : Shell) = sh'
    have goes := Does.dismissed (h := h) (w := w) hi
    have same : sh'.session? i = sh.session? i := by rw [← told]; rfl
    cases hs : sh.session? i with
    | none =>
      have gone : sh.sessions.modify i (Session.next h .stop w) = sh.sessions :=
        List.modify_eq_self (List.getElem?_eq_none_iff.1 hs)
      rw [gone, told] at goes
      rw [act_absent h.recorded (same.trans hs)]
      exact goes
    | some s =>
      rw [act_recorded h (same.trans hs), ← told]
      exact goes
  | join i =>
    obtain ⟨hi, exited⟩ : i ∈ sh.awaited ∧ (sh.session? i).all fun s => s.pump.phase.isExited := by
      simpa [machine, allows] using allowed
    exact .joined hi fun s hs => by simpa [hs] using exited
  | act i m =>
    obtain ⟨s, hs⟩ : ∃ s, sh.session? i = some s := by
      have able := allowed
      simp only [machine, allows, Bool.and_eq_true, Option.any_eq_true] at able
      exact able.2.imp fun s h => h.1
    simp only [Machine.episode, machine, answer, perform, act_recorded h hs]
    exact .acted hs

theorem perform_recorded (h : HostProgram ω) (m : Move) (sh : Shell) (w : ω) (past : List Call) :
    sh.perform h.recorded m ⟨w, past⟩ = (((machine h).episode m (sh, w)).after.1,
      ⟨((machine h).episode m (sh, w)).after.2, past ++ ((machine h).episode m (sh, w)).calls⟩) := by
  have acts (sh : Shell) (i : Nat) (pm : Pump.Move Empty) :
      (sh.act h.recorded i pm ⟨w, past⟩).2 =
        let r := (sh.act h.recorded i pm ⟨w, []⟩).2
        (r.1, ⟨r.2.world, past ++ r.2.calls⟩) := by
    cases hs : sh.session? i with
    | none => simp [act_absent h.recorded hs]
    | some s => simp [act_recorded h hs]
  simp only [Machine.episode, machine]
  cases m with
  | start table surface rate => simp [perform]
  | vacate => simp [perform]
  | dismiss i => exact acts _ i .stop
  | join i => simp [perform]
  | act i pm => exact acts sh i pm

theorem run?_concat (h : HostProgram ω) (moves : List Move) (m : Move) (sh : Shell) (w : ω) :
    run? h (moves ++ [m]) sh w =
      (run? h moves sh w).bind fun (sh, w) =>
        if sh.allows m then some (sh.perform h m w) else none := by
  induction moves generalizing sh w with
  | nil => simp [run?]
  | cons first rest ih =>
    simp only [List.cons_append, run?, ih]
    split <;> rfl

theorem run?_of_machine {h : HostProgram ω} {sh sh' : Shell} {w w' : ω} {t : List (Entry ω)}
    (run : (machine h).Run (sh, w) t (sh', w')) :
    run? h.recorded (t.map (·.move)) sh ⟨w, []⟩ = some (sh', ⟨w', t.flatMap (·.calls)⟩) := by
  generalize hx : (sh', w') = x at run
  induction run generalizing sh' w' with
  | start =>
    obtain ⟨rfl, rfl⟩ := Prod.mk.inj hx
    rfl
  | @next t x m _ allowed ih =>
    obtain ⟨sh₁, w₁⟩ := x
    simp only [List.map_append, List.map_cons, List.map_nil, run?_concat, ih rfl]
    rw [show ((machine h).episode m (sh₁, w₁)).move = m from rfl]
    simp only [Option.bind_some, perform_recorded, show sh₁.allows m = true from allowed]
    simp [← hx]

section Sessions

variable {h : HostProgram ω} {m : Move} {answer : Answer} {calls : List Call}
  {x x' : Shell × ω} {t : List (Entry ω)} {i : Nat} {s : Session}

inductive Touches (h : HostProgram ω) (m : Move) (calls : List Call) (i : Nat) :
    Option Session → Option Session → Prop
  | absent (silent : m.session? = some i → calls = []) : Touches h m calls i none none
  | opened {table : Table} {surface : UInt64} {rate : UInt32} (other : m.session? ≠ some i) :
      Touches h m calls i none (some (openSession table surface rate))
  | left {s : Session} (other : m.session? ≠ some i) : Touches h m calls i (some s) (some s)
  | moved {s : Session} {pm : Pump.Move Empty} {w : ω} (acts : m.pumpMove? i = some pm)
      (shown : calls = s.shows h pm w) : Touches h m calls i (some s) (some (s.next h pm w))

theorem touches_modify {sh : Shell} {j : Nat} {pm : Pump.Move Empty} {w : ω}
    (named : m.session? = some j) (acts : m.pumpMove? j = some pm)
    (silent : sh.session? j = none → calls = [])
    (shown : ∀ s, sh.session? j = some s → calls = s.shows h pm w) :
    Touches h m calls i (sh.session? i)
      ((sh.sessions.modify j (Session.next h pm w))[i]?) := by
  simp only [session?] at silent shown ⊢
  rw [List.getElem?_modify]
  by_cases mine : j = i
  · subst mine
    cases hs : sh.sessions[j]? with
    | none => simpa using .absent fun _ => silent hs
    | some s => simpa using .moved acts (shown s hs)
  · have other : m.session? ≠ some i := fun same => mine (Option.some.inj (named.symm.trans same))
    cases hs : sh.sessions[i]? with
    | none => simpa [mine] using .absent fun same => absurd same other
    | some s => simpa [mine] using .left other

theorem Does.touches (step : Does h m x answer calls x') (i : Nat) :
    Touches h m calls i (x.1.session? i) (x'.1.session? i) := by
  have same (sh : Shell) (m : Move) (nobody : m.session? = none) :
      Touches h m [] i (sh.session? i) (sh.session? i) := by
    cases sh.session? i with
    | none => exact .absent fun _ => rfl
    | some s => exact .left (by simp [nobody])
  cases step with
  | refused | vacated | joined => exact same _ _ rfl
  | @started table surface rate sh w =>
    simp only [session?, List.getElem?_append]
    split
    · exact same sh _ rfl
    · rename_i far
      rw [List.getElem?_eq_none (Nat.le_of_not_lt far), List.getElem?_singleton]
      split
      · exact .opened (by simp [Move.session?])
      · exact .absent fun _ => rfl
  | dismissed => exact touches_modify rfl (if_pos rfl) (fun _ => rfl) fun _ _ => rfl
  | @acted _ m s sh w hs =>
    refine touches_modify rfl (if_pos rfl) (fun gone => ?_) fun s' hs' => ?_
    · cases gone.symm.trans hs
    · obtain rfl := Option.some.inj (hs.symm.trans hs')
      rfl

def callsOf (i : Nat) (t : List (Entry ω)) : List Call :=
  (t.filter fun e => e.move.session? = some i).flatMap (·.calls)

theorem callsOf_append (i : Nat) (t t' : List (Entry ω)) :
    callsOf i (t ++ t') = callsOf i t ++ callsOf i t' := by
  simp [callsOf]

theorem callsOf_mine {e : Entry ω} (mine : e.move.session? = some i) :
    callsOf i [e] = e.calls := by
  simp [callsOf, mine]

theorem callsOf_other {e : Entry ω} (other : e.move.session? ≠ some i) : callsOf i [e] = [] := by
  simp [callsOf, other]

theorem run_induction {Q : List (Entry ω) → Shell × ω → Prop} (start : Q [] x)
    (next : ∀ {t x' m answer calls x''}, (machine h).Run x t x' → Q t x' →
      Does h m x' answer calls x'' → Q (t ++ [⟨x', m, answer, calls, x''⟩]) x'')
    (run : (machine h).Run x t x') : Q t x' := by
  induction run with
  | start => exact start
  | next m earlier allowed ih => exact next earlier ih (does h allowed)

def movesOf (i : Nat) (t : List (Entry ω)) : List (Pump.Move Empty) :=
  t.filterMap (·.move.pumpMove? i)

theorem movesOf_append (i : Nat) (t t' : List (Entry ω)) :
    movesOf i (t ++ t') = movesOf i t ++ movesOf i t' := List.filterMap_append

theorem movesOf_mine {e : Entry ω} {pm : Pump.Move Empty} (acts : e.move.pumpMove? i = some pm) :
    movesOf i [e] = [pm] := by
  simp [movesOf, acts]

theorem movesOf_other {e : Entry ω} (other : e.move.session? ≠ some i) : movesOf i [e] = [] := by
  simp [movesOf, Move.pumpMove?_of_other other]

/-- What holds of a fresh session, and is kept by its pump's steps in whatever world, holds of each
session after every run, with the steps that it was asked to take and what the host saw of them. -/
theorem course_induction {P : Session → List (Pump.Move Empty) → List Call → Prop} {w : ω}
    (opened : ∀ table surface rate moves, P (openSession table surface rate) moves [])
    (moved : ∀ {s moves past} m (w : ω), P s moves past →
      P (s.next h m w) (moves ++ [m]) (past ++ s.shows h m w))
    (run : (machine h).Run ({}, w) t x) (i : Nat) :
    (x.1.session? i = none → callsOf i t = []) ∧
      ∀ s, x.1.session? i = some s → P s (movesOf i t) (callsOf i t) := by
  refine run_induction (Q := fun t x => (x.1.session? i = none → callsOf i t = []) ∧
    ∀ s, x.1.session? i = some s → P s (movesOf i t) (callsOf i t)) ?_ ?_ run
  · exact ⟨fun _ => rfl, by simp [session?]⟩
  · rintro t x m answer calls x' - ⟨absent, present⟩ step
    have touches := step.touches i
    rw [callsOf_append, movesOf_append]
    generalize x.1.session? i = before at touches absent present
    generalize x'.1.session? i = after at touches
    cases touches with
    | absent silent =>
      refine ⟨fun _ => ?_, by simp⟩
      rw [absent rfl, List.nil_append]
      by_cases mine : m.session? = some i
      · rw [callsOf_mine mine, silent mine]
      · exact callsOf_other mine
    | opened other =>
      refine ⟨by simp, fun s hs => ?_⟩
      obtain rfl := Option.some.inj hs
      rw [absent rfl, callsOf_other other]
      exact opened ..
    | left other =>
      refine ⟨by simp, fun s hs => ?_⟩
      rw [callsOf_other other, movesOf_other other, List.append_nil, List.append_nil]
      exact present s hs
    | moved acts shown =>
      refine ⟨by simp, fun s hs => ?_⟩
      obtain rfl := Option.some.inj hs
      rw [callsOf_mine (Move.session?_of_pumpMove? acts), movesOf_mine acts]
      dsimp only
      rw [shown]
      exact moved _ _ (present _ rfl)

theorem session_induction {P : Session → List Call → Prop} {w : ω}
    (opened : ∀ table surface rate, P (openSession table surface rate) [])
    (moved : ∀ {s past} m (w : ω), P s past → P (s.next h m w) (past ++ s.shows h m w))
    (run : (machine h).Run ({}, w) t x) (i : Nat) :
    (x.1.session? i = none → callsOf i t = []) ∧
      ∀ s, x.1.session? i = some s → P s (callsOf i t) :=
  course_induction (P := fun s _ past => P s past) (fun _ _ _ _ => opened ..) moved run i

end Sessions

end Shell

end EmulatorHost.Foreign
