import EmulatorHost.Proofs.Foreign.History
import EmulatorHost.Proofs.Pump.Teardown

namespace EmulatorHost.Foreign

def HostCall.use? : HostCall → Option UInt64
  | .runFrame ud _ | .setOutputSize ud _ | .loadRom ud _ => some ud
  | .create _ | .destroy _ => none

namespace Table

variable {t : Table} {core : Core} {acts : List (Activity Core UInt64 Empty)}
  {custody : Custody Core}

def opening (t : Table) : List Call :=
  if t.offers .create then [(.create t.userData, some true)] else []

def closing (t : Table) : List Call :=
  if t.offers .destroy then [(.destroy t.userData, none)] else []

inductive Life (t : Table) : List Call → Prop
  | unfit (missing : t.firstMissing?.isSome) : Life t []
  | refused (fit : t.firstMissing? = none) (offered : t.offers .create = true) :
      Life t [(.create t.userData, some false)]
  | lived {uses : List Call} (fit : t.firstMissing? = none)
      (used : ∀ call ∈ uses, call.1.use? = some t.userData) :
      Life t (t.opening ++ uses ++ t.closing)

def Makes (t : Table) : Except CoreError Core → Prop
  | .ok core => t.firstMissing? = none ∧ core = ⟨t.userData, t.offers .destroy⟩
  | .error _ => t.firstMissing?.isSome ∨ t.firstMissing? = none ∧ t.offers .create = true

theorem makes {ω : Type} (h : HostProgram ω) (t : Table) (w : ω) :
    t.Makes (Core.create h t w).1 := by
  unfold Core.create
  cases missing : t.firstMissing? with
  | some e => exact .inl (by simp [missing])
  | none =>
    cases offered : t.offers .create with
    | false => exact ⟨missing, rfl⟩
    | true =>
      rcases h.create t.userData w with ⟨_ | _, w'⟩
      · exact .inr ⟨missing, offered⟩
      · exact ⟨missing, rfl⟩

theorem life_of_fit (fit : t.firstMissing? = none) : t.Life (t.opening ++ t.closing) := by
  simpa using Life.lived fit (List.forall_mem_nil _)

theorem use?_of_used (h : ∀ act ∈ acts, act.used? = some core) :
    ∀ call ∈ acts.flatMap t.seen, call.1.use? = some core.userData := by
  intro call hc
  obtain ⟨act, ha, hc⟩ := List.mem_flatMap.1 hc
  have used := h act ha
  cases act with
  | frame | resized =>
    obtain rfl := Option.some.inj used
    obtain rfl := List.mem_singleton.1 hc
    rfl
  | loaded =>
    obtain rfl := Option.some.inj used
    obtain ⟨text, -, rfl⟩ := List.mem_map.1 hc
    rfl
  | created | dropped | delivered | released => cases used

theorem seen_created_ok (fit : t.firstMissing? = none) (core : Core) :
    t.seen (.created (.ok core)) = t.opening := by
  simp [seen, isAsked, opening, fit, Except.isOk, Except.toBool]

theorem seen_dropped (hc : core = ⟨t.userData, t.offers .destroy⟩) :
    t.seen (.dropped core) = t.closing := by
  simp [seen, closing, hc]

theorem life_of_covers (h : custody.Covers acts)
    (made : ∀ answer, .created answer ∈ acts → t.Makes answer) :
    ∃ later : List Call, t.Life (acts.flatMap t.seen ++ later) ∧
      (custody.isOver = true → later = []) := by
  cases h with
  | awaited =>
    cases missing : t.firstMissing? with
    | some e => exact ⟨[], .unfit (by simp [missing]), fun _ => rfl⟩
    | none => exact ⟨_, life_of_fit missing, fun early => absurd early Bool.false_ne_true⟩
  | @denied e =>
    refine ⟨[], ?_, fun _ => rfl⟩
    rcases made (.error e) (by simp) with missing | ⟨fit, offered⟩
    · have unasked : t.isAsked = false := by
        simp [isAsked, Option.isNone_eq_false_iff.2 missing]
      simpa [seen, unasked] using Life.unfit missing
    · have asked : t.isAsked = true := by simp [isAsked, fit, offered]
      simpa [seen, asked, Except.isOk, Except.toBool] using Life.refused fit offered
  | @held core uses used =>
    obtain ⟨fit, hc⟩ := made (.ok core) (by simp)
    refine ⟨t.closing, ?_, fun early => absurd early Bool.false_ne_true⟩
    rw [List.flatMap_cons, seen_created_ok fit]
    have later := use?_of_used (t := t) used
    rw [hc] at later
    exact .lived fit later
  | @returned core uses used =>
    obtain ⟨fit, hc⟩ := made (.ok core) (by simp)
    refine ⟨[], ?_, fun _ => rfl⟩
    rw [List.append_nil, List.flatMap_append, List.flatMap_cons, seen_created_ok fit,
      List.flatMap_singleton, seen_dropped hc]
    have later := use?_of_used (t := t) used
    rw [hc] at later
    exact .lived fit later

end Table

namespace Session

variable {ω : Type} {h : HostProgram ω} {s : Session} {past : List Call}

def Kept (s : Session) (past : List Call) : Prop :=
  ∃ acts custody, past = acts.flatMap s.table.seen ∧ Pump.Keeps acts s.pump custody ∧
    ∀ answer, .created answer ∈ acts → s.table.Makes answer

theorem kept_open (table : Table) (surface : UInt64) (rate : UInt32) :
    (Shell.openSession table surface rate).Kept [] :=
  ⟨[], .awaited, rfl, .start .., by simp⟩

theorem Kept.next (k : s.Kept past) (h : HostProgram ω) (m : Pump.Move Empty) (w : ω) :
    (s.next h m w).Kept (past ++ s.shows h m w) := by
  obtain ⟨acts, custody, rfl, keeps, made⟩ := k
  obtain ⟨custody, later⟩ := keeps.episode (surroundings h s.table) m w
  refine ⟨_, custody, ?_, later, fun answer ha => ?_⟩
  · rw [List.flatMap_append]
    rfl
  · rcases List.mem_append.1 ha with ha | ha
    · exact made answer ha
    · rw [← Pump.createCore_of_created ha]
      exact s.table.makes h w

theorem kept_of_run {x : Shell × ω} {t : List (Shell.Entry ω)} {w : ω} {i : Nat}
    (run : (Shell.machine h).Run ({}, w) t x) (hs : x.1.session? i = some s) :
    s.Kept (Shell.callsOf i t) :=
  (Shell.session_induction kept_open (fun m w k => k.next h m w) run i).2 s hs

theorem toCore_eq (acts : List (Activity Core UInt64 Empty)) : Pump.toCore acts = acts := by
  refine List.filter_eq_self.2 fun act _ => ?_
  cases act with
  | delivered l | released l => exact l.elim
  | _ => rfl

theorem Kept.prefix_life (k : s.Kept past) : ∃ later, s.table.Life (past ++ later) := by
  obtain ⟨acts, custody, rfl, keeps, made⟩ := k
  obtain ⟨later, life, -⟩ := Table.life_of_covers (toCore_eq acts ▸ keeps.covers) made
  exact ⟨later, life⟩

structure Over (s : Session) : Prop where
  spent : s.pump.phase.isSpent = true
  core : s.pump.coordinator.core = none

theorem Kept.ended (k : s.Kept past) (spent : s.pump.phase.isSpent = true) : s.Over := by
  obtain ⟨acts, custody, -, keeps, -⟩ := k
  exact ⟨spent, (keeps.isOver spent).2⟩

theorem Kept.life (k : s.Kept past) (ended : s.Over) : s.table.Life past := by
  obtain ⟨acts, custody, rfl, keeps, made⟩ := k
  obtain ⟨later, life, done⟩ := Table.life_of_covers (toCore_eq acts ▸ keeps.covers) made
  rw [done (keeps.isOver ended.spent).1, List.append_nil] at life
  exact life

theorem Over.next (ended : s.Over) (h : HostProgram ω) (m : Pump.Move Empty) (w : ω) :
    (s.next h m w).Over ∧ s.shows h m w = [] := by
  obtain ⟨silent, spent, gone⟩ :=
    Pump.uncalled_of_isSpent ended.spent ended.core (surroundings h s.table) m w
  refine ⟨⟨spent, gone⟩, ?_⟩
  rw [toCore_eq] at silent
  simp [shows, episode, silent]

end Session

end EmulatorHost.Foreign
