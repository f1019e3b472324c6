import EmulatorHost.Proofs.Foreign.History
import EmulatorHost.Proofs.Pump.Replay
import Mathlib.Data.List.Forall2

namespace EmulatorHost.Foreign

variable {ω ω' : Type}

namespace HostProgram

def reply (h : HostProgram ω) : HostCall → ω → Option Bool × ω
  | .create ud, w => Prod.map some id (h.create ud w)
  | .destroy ud, w => (none, h.destroy ud w)
  | .runFrame ud surface, w => Prod.map some id (h.runFrame ud surface w)
  | .setOutputSize ud size, w => Prod.map some id (h.setOutputSize ud size w)
  | .loadRom ud path, w => Prod.map some id (h.loadRom ud path w)

def replay? (h : HostProgram ω) : List Call → ω → Option ω
  | [], w => some w
  | (call, answer) :: rest, w =>
    if (h.reply call w).1 = answer then h.replay? rest (h.reply call w).2 else none

theorem replay?_append (h : HostProgram ω) (calls calls' : List Call) (w : ω) :
    h.replay? (calls ++ calls') w = (h.replay? calls w).bind (h.replay? calls') := by
  induction calls generalizing w with
  | nil => rfl
  | cons call rest ih =>
    simp only [List.cons_append, replay?, ih]
    split <;> rfl

theorem replay?_singleton {h : HostProgram ω} {call : HostCall} {answer : Option Bool} {w w' : ω} :
    h.replay? [(call, answer)] w = some w' ↔ h.reply call w = (answer, w') := by
  simp [replay?, Prod.ext_iff]

theorem reply_eq_some {f : ω → Bool × ω} {answer : Bool} {w w' : ω} :
    Prod.map some id (f w) = (some answer, w') ↔ f w = (answer, w') := by
  simp [Prod.ext_iff]

end HostProgram

def Table.made (t : Table) : Bool → Except CoreError Core
  | true => .ok ⟨t.userData, t.offers .destroy⟩
  | false => .error Core.refusal

theorem Table.isOk_made (t : Table) (answer : Bool) : (t.made answer).isOk = answer := by
  cases answer <;> rfl

namespace Core

theorem create_of_asked {t : Table} (asked : t.isAsked = true) (h : HostProgram ω) (w : ω) :
    create h t w = Prod.map t.made id (h.create t.userData w) := by
  obtain ⟨fit, offered⟩ : t.firstMissing? = none ∧ t.offers .create = true := by
    simpa [Table.isAsked] using asked
  simp only [create, fit, offered, if_true]
  rcases h.create t.userData w with ⟨_ | _, w'⟩ <;> rfl

theorem create_of_unasked {t : Table} (unasked : t.isAsked = false) :
    ∃ answer, ∀ {ω : Type} (h : HostProgram ω) (w : ω), create h t w = (answer, w) := by
  cases missing : t.firstMissing? with
  | some e => exact ⟨.error (.unsupported e.name), fun h w => by simp only [create, missing]⟩
  | none =>
    have own : t.offers .create = false := by simpa [Table.isAsked, missing] using unasked
    exact ⟨.ok ⟨t.userData, t.offers .destroy⟩, fun h w => by simp [create, missing, own]⟩

theorem loadRom_of_text {path : Path} {text : CString} (named : pathText? path = some text)
    (h : HostProgram ω) (c : Core) (w : ω) :
    loadRom h c path w =
      Prod.map (outcome (.loadFailed "host core rejected ROM")) id
        (h.loadRom c.userData text w) := by
  obtain ⟨_, read, text⟩ := Option.bind_eq_some_iff.1 named
  simp [loadRom, read, text, Prod.map]

theorem loadRom_of_no_text {path : Path} (unnamed : pathText? path = none) (c : Core) :
    ∃ answer, ∀ {ω : Type} (h : HostProgram ω) (w : ω), loadRom h c path w = (answer, w) := by
  cases read : Utf8.decode? path.bytes with
  | none =>
    exact ⟨.error (.loadFailed "path is not valid UTF-8"), fun h w => by simp only [loadRom, read]⟩
  | some _ =>
    have cut : CString.ofBytes? path.bytes = none := by simpa [pathText?, read] using unnamed
    exact ⟨.error (.loadFailed "path contains a NUL byte"),
      fun h w => by simp only [loadRom, read, cut]⟩

end Core

variable {h : HostProgram ω} {h' : HostProgram ω'} {t : Table} {w w' : ω} {v v' : ω'}

theorem HostProgram.answer_of_replay? {call : HostCall} {f : ω' → Bool × ω'} {answer : Bool}
    (asks : h'.reply call v = Prod.map some id (f v))
    (again : h'.replay? [(call, some answer)] v = some v') : f v = (answer, v') := by
  rw [HostProgram.replay?_singleton, asks] at again
  exact HostProgram.reply_eq_some.1 again

theorem answers_of_seen {act : Activity Core UInt64 Empty}
    (answered : (surroundings h t).Answers act w w') (again : h'.replay? (t.seen act) v = some v') :
    (surroundings h' t).Answers act v v' := by
  cases act with
  | created answer =>
    replace answered : Core.create h t w = (answer, w') := answered
    change Core.create h' t v = (answer, v')
    cases asked : t.isAsked with
    | false =>
      obtain ⟨alike, same⟩ := Core.create_of_unasked asked
      rw [same] at answered ⊢
      obtain ⟨rfl, -⟩ := Prod.mk.inj answered
      simpa [Table.seen, asked, HostProgram.replay?] using again
    | true =>
      rw [Core.create_of_asked asked] at answered ⊢
      obtain ⟨rfl, -⟩ := Prod.mk.inj answered
      simp only [Table.seen, asked, if_true, Table.isOk_made] at again
      have replied : h'.create t.userData v = _ := HostProgram.answer_of_replay? rfl again
      rw [replied]
      rfl
  | frame core surface answer =>
    obtain ⟨rfl, -⟩ := Prod.mk.inj answered
    have replied := HostProgram.answer_of_replay? rfl again
    simp [Surroundings.Answers, surroundings, Core.calls, Core.runFrame, replied, accepted_outcome]
  | resized core size answer =>
    obtain ⟨rfl, -⟩ := Prod.mk.inj answered
    have replied := HostProgram.answer_of_replay? rfl again
    simp [Surroundings.Answers, surroundings, Core.calls, Core.setOutputSize, replied,
      accepted_outcome]
  | loaded core path answer =>
    replace answered : Core.loadRom h core path w = (answer, w') := answered
    change Core.loadRom h' core path v = (answer, v')
    cases named : pathText? path with
    | none =>
      obtain ⟨alike, same⟩ := Core.loadRom_of_no_text named core
      rw [same] at answered ⊢
      obtain ⟨rfl, -⟩ := Prod.mk.inj answered
      simpa [Table.seen, named, HostProgram.replay?] using again
    | some text =>
      rw [Core.loadRom_of_text named] at answered ⊢
      obtain ⟨rfl, -⟩ := Prod.mk.inj answered
      simp only [Table.seen, named, Option.toList_some, List.map_cons, List.map_nil,
        accepted_outcome] at again
      have replied : h'.loadRom core.userData text v = _ := HostProgram.answer_of_replay? rfl again
      rw [replied]
      rfl
  | dropped core =>
    change Core.drop h' core v = v'
    cases owned : core.hasDestroy with
    | false => simpa [Core.drop, Table.seen, owned, HostProgram.replay?] using again
    | true =>
      simp only [Table.seen, owned, if_true] at again
      simpa [Core.drop, owned] using (Prod.mk.inj (HostProgram.replay?_singleton.1 again)).2
  | delivered l => exact l.elim
  | released l => exact l.elim

theorem replays_of_seen {acts : List (Activity Core UInt64 Empty)}
    (answered : (surroundings h t).Replays acts w w')
    (again : h'.replay? (acts.flatMap t.seen) v = some v') :
    (surroundings h' t).Replays acts v v' := by
  induction acts generalizing w v with
  | nil => exact Option.some.inj again
  | cons act acts ih =>
    obtain ⟨w₁, first, rest⟩ := answered
    rw [List.flatMap_cons, HostProgram.replay?_append] at again
    obtain ⟨v₁, early, late⟩ := Option.bind_eq_some_iff.1 again
    exact ⟨v₁, answers_of_seen first early, ih rest late⟩

theorem Session.episode_replay {s : Session} {m : Pump.Move Empty}
    (again : h'.replay? (s.shows h m w) v = some v') :
    s.episode h' m v = ⟨(s.pump, v), m, (s.episode h m w).answer, (s.episode h m w).calls,
      (s.episode h m w).after.1, v'⟩ :=
  Pump.episode_replay
    (replays_of_seen (Pump.replays_episode (surroundings h s.table) m (s.pump, w)) again)

namespace Shell

variable {m : Move} {sh : Shell} {i : Nat} {pm : Pump.Move Empty}

theorem act_replay
    (again : h'.replay? (sh.act h.recorded i pm ⟨w, []⟩).2.2.calls v = some v') :
    sh.act h'.recorded i pm ⟨v, []⟩ =
      ((sh.act h.recorded i pm ⟨w, []⟩).1, (sh.act h.recorded i pm ⟨w, []⟩).2.1,
        ⟨v', (sh.act h.recorded i pm ⟨w, []⟩).2.2.calls⟩) := by
  cases hs : sh.session? i with
  | none =>
    rw [act_absent h.recorded hs] at again ⊢
    rw [act_absent h'.recorded hs, Option.some.inj again]
  | some s =>
    simp only [act, hs, Session.perform_recorded, List.nil_append] at again ⊢
    have same := Session.episode_replay again
    simp only [Session.next, Session.shows, same]

theorem episode_replay (again : h'.replay? ((machine h).episode m (sh, w)).calls v = some v') :
    (machine h').episode m (sh, v) =
      ⟨(sh, v), m, ((machine h).episode m (sh, w)).answer, ((machine h).episode m (sh, w)).calls,
        ((machine h).episode m (sh, w)).after.1, v'⟩ := by
  simp only [Machine.episode, machine] at again ⊢
  cases m with
  | start | vacate | join =>
    obtain rfl := Option.some.inj again
    rfl
  | dismiss i =>
    have same := act_replay again
    simp only [perform, dismiss, answer, same]
  | act i pm =>
    have same := act_replay again
    simp only [perform, answer, same]

structure SameTurn (e : Entry ω) (e' : Entry ω') : Prop where
  move : e'.move = e.move
  answer : e'.answer = e.answer
  calls : e'.calls = e.calls
  before : e'.before.1 = e.before.1
  after : e'.after.1 = e.after.1

theorem moves_of_sameTurns {t : List (Entry ω)} {t' : List (Entry ω')}
    (same : List.Forall₂ SameTurn t t') : t'.map (·.move) = t.map (·.move) := by
  induction same with
  | nil => rfl
  | cons first _ ih => rw [List.map_cons, List.map_cons, first.move, ih]

theorem run_replay {sh' : Shell} {t : List (Entry ω)} (run : (machine h).Run (sh, w) t (sh', w'))
    (again : h'.replay? (t.flatMap (·.calls)) v = some v') :
    ∃ t', (machine h').Run (sh, v) t' (sh', v') ∧ List.Forall₂ SameTurn t t' := by
  induction t generalizing sh w v with
  | nil =>
    obtain ⟨rfl, -⟩ := Prod.mk.inj run.eq_of_nil
    obtain rfl := Option.some.inj again
    exact ⟨[], .start, .nil⟩
  | cons e rest ih =>
    obtain ⟨allowed, same, later⟩ := run.uncons
    rw [List.flatMap_cons, HostProgram.replay?_append] at again
    obtain ⟨v₁, early, late⟩ := Option.bind_eq_some_iff.1 again
    rw [same] at early
    have turn := episode_replay early
    rw [← same] at turn
    obtain ⟨t', ran, alike⟩ := ih later late
    have first : (machine h').Run ((machine h').episode e.move (sh, v)).after t' (sh', v') := by
      rw [turn]
      exact ran
    refine ⟨_, first.cons e.move allowed, .cons ?_ alike⟩
    rw [turn]
    exact ⟨rfl, rfl, rfl, by rw [same]; rfl, rfl⟩

end Shell

end EmulatorHost.Foreign
