import EmulatorHost.Lockstep.HostScript
import EmulatorHost.Proofs.Foreign.Replay
import EmulatorHost.Proofs.Pump.Deliveries
import EmulatorHost.Proofs.Text.Utf8

namespace EmulatorHost

def Path.Representable (p : Path) : Prop := Utf8.WellFormed p.bytes ∧ 0 ∉ p.bytes

instance : DecidablePred Path.Representable := fun p =>
  inferInstanceAs (Decidable (Utf8.WellFormed p.bytes ∧ 0 ∉ p.bytes))

namespace Foreign

namespace CString

theorem contents_terminated {bytes : List UInt8} (whole : 0 ∉ bytes) :
    (⟨bytes ++ [0]⟩ : CString).contents = bytes := by
  have kept : ∀ b ∈ bytes, decide (b ≠ 0) = true := fun b hb =>
    decide_eq_true fun zero => whole (zero ▸ hb)
  simp only [contents, List.takeWhile_append_of_pos kept]
  simp

theorem ofBytes?_eq_some {bytes : List UInt8} (whole : 0 ∉ bytes) :
    ofBytes? bytes = some ⟨bytes ++ [0]⟩ := by
  simp [ofBytes?, whole]

theorem ofBytes?_eq_none {bytes : List UInt8} (cut : 0 ∈ bytes) : ofBytes? bytes = none := by
  simp [ofBytes?, cut]

end CString

theorem pathText?_of_representable {p : Path} (able : p.Representable) :
    pathText? p = some ⟨p.bytes ++ [0]⟩ := by
  obtain ⟨cs, read⟩ := Option.isSome_iff_exists.1 (Utf8.isSome_decode?.2 able.1)
  rw [pathText?, read, Option.bind_some, CString.ofBytes?_eq_some able.2]

theorem pathText?_of_not_representable {p : Path} (unable : ¬ p.Representable) :
    pathText? p = none := by
  unfold pathText?
  by_cases formed : Utf8.WellFormed p.bytes
  · have cut : 0 ∈ p.bytes := by
      by_contra whole
      exact unable ⟨formed, whole⟩
    rw [CString.ofBytes?_eq_none cut, Option.bind_fun_none]
  · rw [Utf8.decode?_eq_none.2 formed, Option.bind_none]

variable {ω : Type} {h : HostProgram ω} {p : Path}

namespace Core

theorem loadRom_of_representable (able : p.Representable) (h : HostProgram ω) (c : Core) (w : ω) :
    loadRom h c p w =
      Prod.map (outcome (.loadFailed "host core rejected ROM")) id
        (h.loadRom c.userData ⟨p.bytes ++ [0]⟩ w) :=
  loadRom_of_text (pathText?_of_representable able) h c w

theorem loadRom_of_illFormed (ill : ¬ Utf8.WellFormed p.bytes) (h : HostProgram ω) (c : Core)
    (w : ω) : loadRom h c p w = (.error (.loadFailed "path is not valid UTF-8"), w) := by
  simp only [loadRom, Utf8.decode?_eq_none.2 ill]

theorem loadRom_of_cut (formed : Utf8.WellFormed p.bytes) (cut : 0 ∈ p.bytes) (h : HostProgram ω)
    (c : Core) (w : ω) :
    loadRom h c p w = (.error (.loadFailed "path contains a NUL byte"), w) := by
  obtain ⟨cs, read⟩ := Option.isSome_iff_exists.1 (Utf8.isSome_decode?.2 formed)
  simp only [loadRom, read, CString.ofBytes?_eq_none cut]

theorem representable_of_loadRom {c : Core} {w w' : ω} (loaded : loadRom h c p w = (.ok (), w')) :
    p.Representable := by
  by_cases formed : Utf8.WellFormed p.bytes
  · by_cases cut : 0 ∈ p.bytes
    · rw [loadRom_of_cut formed cut] at loaded
      cases loaded
    · exact ⟨formed, cut⟩
  · rw [loadRom_of_illFormed formed] at loaded
    cases loaded

end Core

def pathsRead (calls : List Call) : List Path :=
  calls.filterMap fun
    | (.loadRom _ text, _) => some ⟨text.contents⟩
    | _ => none

theorem pathsRead_append (calls calls' : List Call) :
    pathsRead (calls ++ calls') = pathsRead calls ++ pathsRead calls' := List.filterMap_append

theorem pathsRead_seen (t : Table) (act : Activity Core UInt64 Empty) :
    pathsRead (t.seen act) = act.loadedPath?.toList.filter (·.Representable) := by
  cases act with
  | created answer =>
    simp only [Table.seen]
    split <;> rfl
  | frame | resized => rfl
  | loaded core p answer =>
    simp only [Table.seen, Activity.loadedPath?, Option.toList_some]
    by_cases able : p.Representable
    · rw [pathText?_of_representable able]
      simp [pathsRead, able, CString.contents_terminated able.2]
    · rw [pathText?_of_not_representable able]
      simp [pathsRead, able]
  | dropped core =>
    simp only [Table.seen]
    split <;> rfl
  | delivered l | released l => exact l.elim

theorem pathsRead_flatMap (t : Table) (acts : List (Activity Core UInt64 Empty)) :
    pathsRead (acts.flatMap t.seen) = (Pump.loadedPaths acts).filter (·.Representable) := by
  induction acts with
  | nil => rfl
  | cons act acts ih =>
    rw [List.flatMap_cons, pathsRead_append, pathsRead_seen, ih, ← List.filter_append]
    cases hp : act.loadedPath? <;> simp [Pump.loadedPaths, hp]

def Session.Handed (s : Session) (moves : List (Pump.Move Empty)) (past : List Call) : Prop :=
  ∃ acts, past = acts.flatMap s.table.seen ∧
    Pump.Hands (moves.filterMap Pump.Move.path?) acts s.pump

theorem Session.Handed.next {s : Session} {moves : List (Pump.Move Empty)} {past : List Call}
    (k : s.Handed moves past) (h : HostProgram ω) (m : Pump.Move Empty) (w : ω) :
    (s.next h m w).Handed (moves ++ [m]) (past ++ s.shows h m w) := by
  obtain ⟨acts, rfl, hands⟩ := k
  have later := hands.episode (surroundings h s.table) m w
  refine ⟨acts ++ (s.episode h m w).calls, ?_, ?_⟩
  · rw [List.flatMap_append]
    rfl
  · have named : [m].filterMap Pump.Move.path? = m.path?.toList := by
      cases named : m.path? <;> simp [named]
    rw [List.filterMap_append, named]
    exact later

theorem Session.shows_pick (s : Session) (h : HostProgram ω) (p : Path) (w : ω) :
    let e := s.episode h (.pick (.picked p)) w
    (e.answer = .picked (.ok .loaded) → pathsRead (s.shows h (.pick (.picked p)) w) = [p]) ∧
      (e.answer = .picked (.ok .deferred) → s.shows h (.pick (.picked p)) w = []) := by
  have serves := Pump.serves (surroundings h s.table) (m := .pick (.picked p)) nofun (s.pump, w)
  dsimp only [shows, episode]
  generalize (Pump.machine (surroundings h s.table)).episode (.pick (.picked p)) (s.pump, w) = e
    at serves ⊢
  rcases e with ⟨_, _, answer, calls, after⟩
  cases serves with
  | unnamed | refused => exact ⟨nofun, nofun⟩
  | parked => exact ⟨nofun, fun _ => rfl⟩
  | @asked _ _ _ w' path core outcome hm _ _ _ hl =>
    cases hm
    cases outcome with
    | error e => exact ⟨nofun, nofun⟩
    | ok =>
      refine ⟨fun _ => ?_, nofun⟩
      rw [pathsRead_flatMap]
      simp [Pump.loadedPaths, Activity.loadedPath?, Core.representable_of_loadRom hl]

namespace Shell

variable {t : List (Entry ω)} {x : Shell × ω} {i : Nat} {w : ω} {sh : Shell} {text : CString}

def picksOf (i : Nat) (t : List (Entry ω)) : List Path := (movesOf i t).filterMap Pump.Move.path?

theorem pathsRead_sublist (run : (machine h).Run ({}, w) t x) (i : Nat) :
    (pathsRead (callsOf i t)).Sublist (picksOf i t) := by
  obtain ⟨absent, present⟩ := course_induction (P := Session.Handed)
    (fun table surface rate moves => ⟨[], rfl, .start ..⟩) (fun m w k => k.next h m w) run i
  cases hs : x.1.session? i with
  | none =>
    rw [absent hs]
    exact List.nil_sublist _
  | some s =>
    obtain ⟨acts, seen, hands⟩ := present s hs
    rw [seen, pathsRead_flatMap]
    exact List.filter_sublist.trans ((List.sublist_append_left _ _).trans hands.picked)

theorem act_of_idle {s : Session} (hs : sh.session? i = some s) {m : Pump.Move Empty}
    {answer : Pump.Answer}
    (idle : s.pump.perform (surroundings h s.table) m w = (answer, s.pump, w)) :
    sh.act h i m w = (answer, sh, w) := by
  obtain ⟨hi, rfl⟩ := List.getElem?_eq_some_iff.1 hs
  have same : sh.sessions.set i sh.sessions[i] = sh.sessions := List.set_getElem_self hi
  simp only [act, hs, idle]
  exact congrArg (fun sessions => (answer, { sh with sessions }, w)) same

theorem pickDocument_of_illFormed (ill : ¬ Utf8.WellFormed text.contents) (h : HostProgram ω)
    (sh : Shell) (w : ω) : sh.pickDocument h (some text) w = (false, sh, w) := by
  simp only [pickDocument, Utf8.decode?_eq_none.2 ill]

theorem pickDocument_of_wellFormed (formed : Utf8.WellFormed text.contents) (h : HostProgram ω)
    (sh : Shell) (w : ω) :
    (sh.pickDocument h (some text) w).2 =
      (sh.callCurrent h (.pick (.picked ⟨text.contents⟩)) w).2 := by
  obtain ⟨cs, read⟩ := Option.isSome_iff_exists.1 (Utf8.isSome_decode?.2 formed)
  simp only [pickDocument, read]
  split <;> simp_all

theorem callCurrent_unnamed (h : HostProgram ω) (sh : Shell) (w : ω) :
    ∃ answer, sh.callCurrent h (.pick (.picked ⟨[]⟩)) w = (answer, sh, w) ∧
      (answer = .silent ∨ answer = .picked (.error .emptyPath)) := by
  unfold callCurrent
  cases sh.slot with
  | none => exact ⟨_, rfl, .inl rfl⟩
  | some i =>
    cases hs : sh.session? i with
    | none => exact ⟨_, act_absent h hs _ w, .inl rfl⟩
    | some s => exact ⟨_, act_of_idle hs rfl, .inr rfl⟩

theorem pickDocument_of_empty (empty : text.contents = []) (h : HostProgram ω) (sh : Shell)
    (w : ω) : sh.pickDocument h (some text) w = (false, sh, w) := by
  obtain ⟨answer, same, refused⟩ := callCurrent_unnamed h sh w
  simp only [pickDocument, empty, same]
  rcases refused with rfl | rfl <;> rfl

theorem pathsRead_of_pick {e : Entry ω} (run : (machine h).Run ({}, w) t x) (he : e ∈ t)
    (hm : e.move = .act i (.pick (.picked p))) :
    (e.answer = .acted (.picked (.ok .loaded)) → pathsRead e.calls = [p]) ∧
      (e.answer = .acted (.picked (.ok .deferred)) → e.calls = []) := by
  obtain ⟨before, after, rfl⟩ := List.append_of_mem he
  obtain ⟨-, allowed, same, -⟩ := run.split
  have step := does h allowed
  rw [← same] at step
  generalize e.before = b, e.move = m, e.answer = answer, e.calls = calls, e.after = a at step hm ⊢
  subst hm
  cases step with
  | @acted _ _ s sh w hs =>
    have turn := s.shows_pick h p w
    exact ⟨fun loaded => turn.1 (Answer.acted.inj loaded),
      fun deferred => turn.2 (Answer.acted.inj deferred)⟩

theorem picks_read_once (run : (machine h).Run ({}, w) t x) {before after : List (Entry ω)}
    {e : Entry ω} (cut : t = before ++ e :: after) (hm : e.move = .act i (.pick (.picked p))) :
    ∃ first own last, pathsRead (callsOf i t) = first ++ (own ++ last) ∧
      first.Sublist (picksOf i before) ∧ (own = [] ∨ own = [p]) ∧
      last.Sublist (picksOf i after) := by
  have picks : picksOf i t = picksOf i before ++ ([p] ++ picksOf i after) := by
    simp [cut, picksOf, movesOf, hm, Move.pumpMove?, Pump.Move.path?]
  have read := pathsRead_sublist run i
  rw [picks] at read
  obtain ⟨first, rest, same, early, read⟩ := List.sublist_append_iff.1 read
  obtain ⟨own, last, rfl, mine, late⟩ := List.sublist_append_iff.1 read
  exact ⟨first, own, last, same, early, List.sublist_singleton.1 mine, late⟩

/-- A path crosses to a host whole or not at all, and what is picked is read once at most. -/
theorem paths_cross_whole (h : HostProgram ω) :
    (∀ (core : Core) (p : Path) (r : HostRecord ω),
      (p.Representable → ∃ text : CString, text.memory = p.bytes ++ [0] ∧ text.contents = p.bytes ∧
        ∃ answer world, h.loadRom core.userData text r.world = (answer, world) ∧
          core.loadRom h.recorded p r =
            (Core.outcome (.loadFailed "host core rejected ROM") answer,
              ⟨world, r.calls ++ [(.loadRom core.userData text, some answer)]⟩)) ∧
      (¬ Utf8.WellFormed p.bytes →
        core.loadRom h.recorded p r = (.error (.loadFailed "path is not valid UTF-8"), r)) ∧
      (Utf8.WellFormed p.bytes → 0 ∈ p.bytes →
        core.loadRom h.recorded p r = (.error (.loadFailed "path contains a NUL byte"), r))) ∧
    (∀ (text : CString) (sh : Shell) (w : ω),
      (text.contents = [] ∨ ¬ Utf8.WellFormed text.contents →
        sh.pickDocument h (some text) w = (false, sh, w)) ∧
      ∀ i, sh.slot = some i → Utf8.WellFormed text.contents →
        (sh.pickDocument h (some text) w).2 =
          sh.perform h (.act i (.pick (.picked ⟨text.contents⟩))) w) ∧
    ∀ {w : ω} {t : List (Entry ω)} {x : Shell × ω}, (machine h).Run ({}, w) t x → ∀ i,
      (pathsRead (callsOf i t)).Sublist (picksOf i t) ∧
      ∀ before e after p, t = before ++ e :: after → e.move = .act i (.pick (.picked p)) →
        (∃ first own last, pathsRead (callsOf i t) = first ++ (own ++ last) ∧
          first.Sublist (picksOf i before) ∧ (own = [] ∨ own = [p]) ∧
          last.Sublist (picksOf i after)) ∧
        (e.answer = .acted (.picked (.ok .loaded)) → pathsRead e.calls = [p]) ∧
        (e.answer = .acted (.picked (.ok .deferred)) → e.calls = []) := by
  refine ⟨fun core p r => ⟨fun able => ?_, fun ill => ?_, fun formed cut => ?_⟩,
    fun text sh w => ⟨?_, fun i hi formed => ?_⟩, fun run i => ⟨pathsRead_sublist run i, ?_⟩⟩
  · refine ⟨⟨p.bytes ++ [0]⟩, rfl, CString.contents_terminated able.2, _, _, rfl, ?_⟩
    exact Core.loadRom_of_representable able h.recorded core r
  · exact Core.loadRom_of_illFormed ill h.recorded core r
  · exact Core.loadRom_of_cut formed cut h.recorded core r
  · rintro (empty | ill)
    · exact pickDocument_of_empty empty h sh w
    · exact pickDocument_of_illFormed ill h sh w
  · rw [pickDocument_of_wellFormed formed, callCurrent, hi]
    rfl
  · intro before e after p cut hm
    exact ⟨picks_read_once run cut hm, pathsRead_of_pick run (by simp [cut]) hm⟩

open Lockstep in
theorem paths_cross_at_creation :
    (∃ (t : List (Entry HostScript)) (x : Shell × HostScript),
      (machine HostScript.program).Run ({}, {}) t x ∧
        pathsRead (callsOf 0 t) = [⟨[0xC3, 0xA9]⟩, ⟨[0x61]⟩] ∧
        (pathsRead (callsOf 0 t)).Sublist (picksOf 0 t)) ∧
    (∃ text : CString, text.contents = [0xC3, 0xA9] ∧
      (Core.loadRom HostScript.program.recorded ⟨5, true⟩ ⟨[0xC3, 0xA9]⟩ ⟨{}, []⟩).2.calls =
        [(.loadRom 5 text, some true)]) ∧
    (Core.loadRom HostScript.program.recorded ⟨5, true⟩ ⟨[0xED, 0xA0, 0x80, 0]⟩ ⟨{}, []⟩).1 =
      .error (.loadFailed "path is not valid UTF-8") ∧
    (Core.loadRom HostScript.program.recorded ⟨5, true⟩ ⟨[0x61, 0]⟩ ⟨{}, []⟩).1 =
      .error (.loadFailed "path contains a NUL byte") ∧
    (Shell.pickDocument HostScript.program (some ⟨[0xC0, 0xAF, 0]⟩) {} {}).1 = false := by
  obtain ⟨paths, picks, runs⟩ := paths_cross_whole HostScript.program
  refine ⟨?_, ?_, ?_, ?_, ?_⟩
  · obtain ⟨t, x, run, read⟩ : ∃ t x, (machine HostScript.program).Run ({}, {}) t x ∧
        pathsRead (callsOf 0 t) = [⟨[0xC3, 0xA9]⟩, ⟨[0x61]⟩] :=
      Machine.Run.of_decided
        [.start (some {}) 7 0, .act 0 (.pick (.picked ⟨[0xC3, 0xA9]⟩)), .act 0 (.advance true),
          .act 0 (.advance true), .act 0 (.load ⟨[0x61]⟩)] (by decide +kernel)
    exact ⟨t, x, run, read, (runs run 0).1⟩
  · obtain ⟨text, -, read, answer, world, answered, same⟩ :=
      (paths ⟨5, true⟩ ⟨[0xC3, 0xA9]⟩ ⟨{}, []⟩).1 (by decide)
    obtain ⟨rfl, rfl⟩ := Prod.mk.inj answered
    exact ⟨text, read, by rw [same]; rfl⟩
  · rw [(paths ⟨5, true⟩ ⟨[0xED, 0xA0, 0x80, 0]⟩ ⟨{}, []⟩).2.1 (by decide)]
  · rw [(paths ⟨5, true⟩ ⟨[0x61, 0]⟩ ⟨{}, []⟩).2.2 (by decide) (by decide)]
  · rw [(picks ⟨[0xC0, 0xAF, 0]⟩ {} {}).1 (.inr (by decide))]

end Shell

end Foreign

end EmulatorHost
