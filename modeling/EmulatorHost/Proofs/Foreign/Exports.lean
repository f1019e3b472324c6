import EmulatorHost.Proofs.Foreign.Behind
import EmulatorHost.Proofs.Foreign.Replay

namespace EmulatorHost.Foreign

variable {ω ω' : Type} {h : HostProgram ω} {h' : HostProgram ω'} {w : ω} {v : ω'}

def LoadAlike (h : HostProgram ω) (h' : HostProgram ω') (w : ω) (v : ω') : Prop :=
  ∀ ud text, (h'.loadRom ud text v).1 = (h.loadRom ud text w).1

theorem Core.answer_loadRom (alike : LoadAlike h h' w v) (c : Core) (path : Path) :
    (loadRom h' c path v).1 = (loadRom h c path w).1 := by
  cases named : pathText? path with
  | none =>
    obtain ⟨answer, same⟩ := loadRom_of_no_text named c
    rw [same, same]
  | some text =>
    rw [loadRom_of_text named, loadRom_of_text named, Prod.map_fst, Prod.map_fst, alike]

theorem Session.answer_pick (alike : LoadAlike h h' w v) (s : Session) (path : Path) :
    (s.pump.perform (surroundings h' s.table) (.pick (.picked path)) v).1 =
      (s.pump.perform (surroundings h s.table) (.pick (.picked path)) w).1 := by
  simp only [Pump.perform, Pump.requestPick, Pump.requestLoad]
  split
  · rfl
  · simp only [Coordinator.answer_requestLoad]
    split
    · rfl
    · cases s.pump.coordinator.core with
      | none => rfl
      | some core =>
        have same : ((surroundings h' s.table).loadRom core path v).1 =
          ((surroundings h s.table).loadRom core path w).1 := Core.answer_loadRom alike core path
        simp only [same]

namespace Shell

variable {sh sh' : Shell} {old : List Session}

structure SameExports (h : HostProgram ω) (h' : HostProgram ω') (sh sh' : Shell) : Prop where
  isRunning : sh'.isRunning = sh.isRunning
  frameCount : sh'.frameCount = sh.frameCount
  hasRomLoaded : sh'.hasRomLoaded = sh.hasRomLoaded
  canStart : sh'.canStart = sh.canStart
  start : ∀ table surface rate, (sh'.start table surface rate).1 = (sh.start table surface rate).1
  setDrawableSize : ∀ size w v,
    (sh'.setDrawableSize h' size v).1 = (sh.setDrawableSize h size w).1
  pickDocument : ∀ path w v, LoadAlike h h' w v →
    (sh'.pickDocument h' path v).1 = (sh.pickDocument h path w).1

theorem start_behind (table : Option Table) (surface : UInt64) (rate : UInt32) :
    ((sh.behind old).start table surface rate).1 = (sh.start table surface rate).1 := by
  cases table with
  | none => rfl
  | some table =>
    simp only [start, current?_behind]
    split <;> rfl

theorem answer_callCurrent (h : HostProgram ω) (pm : Pump.Move Empty) (sh : Shell) (w : ω) :
    (sh.callCurrent h pm w).1 =
      match sh.current? with
      | none => .silent
      | some s => (s.pump.perform (surroundings h s.table) pm w).1 := by
  unfold callCurrent current?
  cases sh.slot with
  | none => rfl
  | some i =>
    simp only [act, Option.bind_some]
    cases sh.session? i <;> rfl

theorem setDrawableSize_of_answer {size : Size}
    (same : (sh'.callCurrent h' (.resize size) v).1 = (sh.callCurrent h (.resize size) w).1) :
    (sh'.setDrawableSize h' size v).1 = (sh.setDrawableSize h size w).1 := by
  unfold setDrawableSize
  generalize sh'.callCurrent h' (.resize size) v = r' at same ⊢
  generalize sh.callCurrent h (.resize size) w = r at same ⊢
  rcases r' with ⟨answer, r'⟩
  rcases r with ⟨_, r⟩
  obtain rfl : answer = _ := same
  rcases answer with _ | (_ | changed) | _ | _ <;> rfl

theorem pickDocument_of_answer {path : Option CString}
    (same : ∀ picked,
      (sh'.callCurrent h' (.pick picked) v).1 = (sh.callCurrent h (.pick picked) w).1) :
    (sh'.pickDocument h' path v).1 = (sh.pickDocument h path w).1 := by
  unfold pickDocument
  cases path with
  | none => rfl
  | some text =>
    cases read : Utf8.decode? text.contents with
    | none => simp only [read]
    | some _ =>
      have same := same (.picked ⟨text.contents⟩)
      simp only [read]
      generalize sh'.callCurrent h' (.pick (.picked ⟨text.contents⟩)) v = r' at same ⊢
      generalize sh.callCurrent h (.pick (.picked ⟨text.contents⟩)) w = r at same ⊢
      rcases r' with ⟨answer, r'⟩
      rcases r with ⟨_, r⟩
      obtain rfl : answer = _ := same
      rcases answer with _ | _ | (_ | _ | _ | _) | _ <;> rfl

theorem SameExports.of_behind (h : HostProgram ω) (h' : HostProgram ω') (sh : Shell)
    (old old' : List Session) : SameExports h h' (sh.behind old) (sh.behind old') where
  isRunning := by simp [Shell.isRunning]
  frameCount := by simp [Shell.frameCount]
  hasRomLoaded := by simp [Shell.hasRomLoaded]
  canStart := by simp [Shell.canStart]
  start table surface rate := (start_behind ..).trans (start_behind ..).symm
  setDrawableSize size w v := by
    refine setDrawableSize_of_answer ?_
    rw [answer_callCurrent, answer_callCurrent, current?_behind, current?_behind]
    cases sh.current? <;> rfl
  pickDocument path w v alike := by
    refine pickDocument_of_answer fun picked => ?_
    rw [answer_callCurrent, answer_callCurrent, current?_behind, current?_behind]
    cases sh.current? with
    | none => rfl
    | some s =>
      cases picked with
      | cancelled => rfl
      | picked path => exact s.answer_pick alike path

end Shell

end EmulatorHost.Foreign
