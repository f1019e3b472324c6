import EmulatorHost.Proofs.Calls
import EmulatorHost.Proofs.Machine
import EmulatorHost.Proofs.Mirrors

/-! The coordinator as a machine whose moves are its operations, with a record of the calls
that each operation makes. One equation for each thing that an operation can do. -/

namespace EmulatorHost.Coordinator

variable {κ σ η ω : Type}

def machine (s : Surroundings κ σ η ω) :
    Machine (Coordinator κ × ω) (Operation κ σ) (Result κ) (Activity κ σ η) where
  allows _ _ := true
  perform op x :=
    let r := x.1.perform s.recorded.toCores op ⟨x.2, []⟩
    (r.1, r.2.2.activity, r.2.1, r.2.2.world)

abbrev Entry (κ σ η ω : Type) :=
  Episode (Coordinator κ × ω) (Operation κ σ) (Result κ) (Activity κ σ η)

def loadAnswer (path : Path) : CoreOutcome → PickAnswer
  | .ok _ => .ok .loaded
  | .error e => .error (.loadFailed path e)

theorem answer_requestLoad (cores : Cores κ σ ω) (path : Path) (c : Coordinator κ) (w : ω) :
    (c.requestLoad cores path w).1 =
      if c.stopped then .error .stopped
      else match c.core with
        | none => .ok .deferred
        | some core => loadAnswer path (cores.loadRom core path w).1 := by
  unfold requestLoad
  split
  · rfl
  · cases c.core with
    | none => rfl
    | some core =>
      rcases hl : cores.loadRom core path w with ⟨_ | _, w'⟩ <;> simp [hl, loadAnswer]

section Equations

variable (s : Surroundings κ σ η ω) {c : Coordinator κ} {w w₁ w' : ω} {core : κ} {path : Path}
  {surface : σ} {push outcome : CoreOutcome}

theorem episode_setDrawableSize (size : Size) :
    (machine s).episode (.setDrawableSize size) (c, w) =
      ⟨(c, w), .setDrawableSize size, .changed (c.drawable.set size).1, [],
        { c with drawable := (c.drawable.set size).2 }, w⟩ := rfl

theorem episode_requestLoad_of_stopped (h : c.stopped = true) (path : Path) :
    (machine s).episode (.requestLoad path) (c, w) =
      ⟨(c, w), .requestLoad path, .picked (.error .stopped), [], c, w⟩ := by
  simp [Machine.episode, machine, perform, requestLoad, h]

theorem episode_requestLoad_of_absent (h : c.stopped = false) (hc : c.core = none) (path : Path) :
    (machine s).episode (.requestLoad path) (c, w) =
      ⟨(c, w), .requestLoad path, .picked (.ok .deferred), [],
        { c with parkedRom := some path }, w⟩ := by
  simp [Machine.episode, machine, perform, requestLoad, h, hc]

theorem episode_requestLoad_of_present (h : c.stopped = false) (hc : c.core = some core)
    (hl : s.loadRom core path w = (outcome, w')) :
    (machine s).episode (.requestLoad path) (c, w) =
      ⟨(c, w), .requestLoad path, .picked (loadAnswer path outcome), [.loaded core path outcome],
        { c with romLoaded := outcome.accepted }, w'⟩ := by
  cases outcome <;>
    simp [Machine.episode, machine, perform, requestLoad, h, hc, Surroundings.recorded,
      Recorded.call, hl, loadAnswer, CoreOutcome.accepted]

theorem episode_install_of_none (hp : c.parkedRom = none) (core : κ) :
    (machine s).episode (.install core) (c, w) =
      ⟨(c, w), .install core, .installed none, (c.core.map .dropped).toList,
        { c with core := some core }, c.discardCore s.toCores w⟩ := by
  cases hc : c.core <;>
    simp [Machine.episode, machine, perform, install, hp, hc, discardCore, Surroundings.recorded,
      Recorded.note]

theorem episode_install_of_parked (hp : c.parkedRom = some path)
    (hl : s.loadRom core path (c.discardCore s.toCores w) = (outcome, w')) :
    (machine s).episode (.install core) (c, w) =
      ⟨(c, w), .install core, .installed (some ⟨path, outcome⟩),
        (c.core.map .dropped).toList ++ [.loaded core path outcome],
        { c with core := some core, parkedRom := none, romLoaded := outcome.accepted }, w'⟩ := by
  cases hc : c.core <;> simp only [discardCore, hc] at hl <;>
    simp [Machine.episode, machine, perform, install, hp, hc, discardCore, Surroundings.recorded,
      Recorded.call, Recorded.note, hl]

theorem episode_pumpOnce_of_absent (hc : c.core = none) (surface : σ) :
    (machine s).episode (.pumpOnce surface) (c, w) =
      ⟨(c, w), .pumpOnce surface, .pumped none, [], c, w⟩ := by
  simp [Machine.episode, machine, perform, pumpOnce, hc]

theorem episode_pumpOnce_of_told (hc : c.core = some core) (hd : c.drawable.pending = false)
    (hr : s.runFrame core surface w = (outcome, w')) :
    (machine s).episode (.pumpOnce surface) (c, w) =
      ⟨(c, w), .pumpOnce surface, .pumped (some ⟨none, outcome⟩), [.frame core surface outcome],
        c, w'⟩ := by
  cases c
  simp_all [Machine.episode, machine, perform, pumpOnce, pushSize, Drawable.consume,
    Surroundings.recorded, Recorded.call]

theorem episode_pumpOnce_of_pending (hc : c.core = some core) (hd : c.drawable.pending = true)
    (hp : s.setOutputSize core c.drawable.size w = (push, w₁))
    (hr : s.runFrame core surface w₁ = (outcome, w')) :
    (machine s).episode (.pumpOnce surface) (c, w) =
      ⟨(c, w), .pumpOnce surface,
        .pumped (some ⟨some (push.map fun _ => c.drawable.size), outcome⟩),
        [.resized core c.drawable.size push, .frame core surface outcome],
        { c with drawable := ⟨c.drawable.size, !push.accepted⟩ }, w'⟩ := by
  cases push <;>
    simp [Machine.episode, machine, perform, pumpOnce, pushSize, Drawable.consume, hc, hd,
      Surroundings.recorded, Recorded.call, hp, hr, Drawable.restore, CoreOutcome.accepted,
      Except.map]

theorem episode_takeCore :
    (machine s).episode .takeCore (c, w) =
      ⟨(c, w), .takeCore, .taken c.core, (c.core.map .dropped).toList, c.takeCore.2,
        c.discardCore s.toCores w⟩ := by
  cases hc : c.core <;>
    simp [Machine.episode, machine, perform, takeCore, hc, discardCore, Surroundings.recorded,
      Recorded.note]

theorem episode_inspect :
    (machine s).episode .inspect (c, w) = ⟨(c, w), .inspect, .seen c.core, [], c, w⟩ := rfl

end Equations

def installed (t : List (Entry κ σ η ω)) : List κ :=
  t.filterMap fun e => match e.move with
    | .install core => some core
    | _ => none

@[simp] theorem installed_concat (t : List (Entry κ σ η ω)) (e : Entry κ σ η ω) :
    installed (t ++ [e]) = installed t ++ installed [e] := List.filterMap_append ..

/-- The core is called, or is there afterwards. -/
def Concerns (core : κ) (e : Entry κ σ η ω) : Prop :=
  e.after.1.core = some core ∨ ∃ call ∈ e.calls, call.core? = some core

theorem core_of_concerns (s : Surroundings κ σ η ω) {op : Operation κ σ} {x : Coordinator κ × ω}
    {core : κ} (h : Concerns core ((machine s).episode op x)) :
    x.1.core = some core ∨ op = .install core := by
  obtain ⟨c, w⟩ := x
  cases op with
  | setDrawableSize size => simpa [Concerns, episode_setDrawableSize] using h
  | requestLoad path =>
    cases hs : c.stopped with
    | true => simpa [Concerns, episode_requestLoad_of_stopped s hs] using h
    | false =>
      cases hc : c.core with
      | none => simp [Concerns, episode_requestLoad_of_absent s hs hc, hc] at h
      | some k =>
        simpa [Concerns, episode_requestLoad_of_present s hs hc rfl, hc, Activity.core?] using h
  | install k =>
    cases hp : c.parkedRom with
    | none =>
      rw [episode_install_of_none s hp] at h
      rcases h with h | ⟨call, hm, hk⟩
      · exact .inr (by rw [Option.some.inj h])
      · exact .inl (Activity.eq_of_mem_dropped hm hk)
    | some path =>
      rw [episode_install_of_parked s hp rfl] at h
      rcases h with h | ⟨call, hm, hk⟩
      · exact .inr (by rw [Option.some.inj h])
      · rcases List.mem_append.1 hm with hm | hm
        · exact .inl (Activity.eq_of_mem_dropped hm hk)
        · obtain rfl := List.mem_singleton.1 hm
          exact .inr (by rw [Option.some.inj hk])
  | pumpOnce surface =>
    cases hc : c.core with
    | none => simp [Concerns, episode_pumpOnce_of_absent s hc, hc] at h
    | some k =>
      cases hd : c.drawable.pending with
      | false => simpa [Concerns, episode_pumpOnce_of_told s hc hd rfl, hc, Activity.core?] using h
      | true =>
        simpa [Concerns, episode_pumpOnce_of_pending s hc hd rfl rfl, hc, Activity.core?] using h
  | takeCore =>
    rw [episode_takeCore] at h
    rcases h with h | ⟨call, hm, hk⟩
    · simp [takeCore] at h
    · exact .inl (Activity.eq_of_mem_dropped hm hk)
  | inspect => simpa [Concerns, episode_inspect] using h

section Runs

variable {s : Surroundings κ σ η ω} {w : ω} {t : List (Entry κ σ η ω)} {x : Coordinator κ × ω}
  {core : κ}

theorem core_mem_installed (run : (machine s).Run ({}, w) t x) (h : x.1.core = some core) :
    core ∈ installed t := by
  induction run with
  | start => simp at h
  | next op _ _ ih =>
    rw [installed_concat, List.mem_append]
    rcases core_of_concerns s (.inl h) with h | rfl
    · exact .inl (ih h)
    · exact .inr (by simp [installed, Machine.episode])

theorem mem_installed_of_concerns (run : (machine s).Run ({}, w) t x) :
    ∀ e ∈ t, Concerns core e → core ∈ installed t := by
  induction run with
  | start => simp
  | next op run _ ih =>
    intro e he h
    rw [installed_concat, List.mem_append]
    rcases List.mem_append.1 he with he | he
    · exact .inl (ih e he h)
    · obtain rfl := List.mem_singleton.1 he
      rcases core_of_concerns s h with h | rfl
      · exact .inl (core_mem_installed run h)
      · exact .inr (by simp [installed, Machine.episode])

end Runs

theorem perform_recorded (s : Surroundings κ σ η ω) (op : Operation κ σ) (c : Coordinator κ) (w : ω)
    (past : List (Activity κ σ η)) :
    c.perform s.recorded.toCores op ⟨w, past⟩ =
      (((machine s).episode op (c, w)).answer, ((machine s).episode op (c, w)).after.1,
        ⟨((machine s).episode op (c, w)).after.2,
          past ++ ((machine s).episode op (c, w)).calls⟩) := by
  rw [← Recorded.after_fresh, perform_mirror (s.recorded_mirrors past)]
  rfl

section Operations

variable {s : Surroundings κ σ η ω} {x : Coordinator κ × ω} {op : Operation κ σ}
  {c c' : Coordinator κ} {w w' : ω} {calls : List (Activity κ σ η)}

theorem requestLoad_of_episode {path : Path} {answer : PickAnswer}
    (h : (machine s).episode (.requestLoad path) (c, w) =
      ⟨x, op, .picked answer, calls, c', w'⟩) :
    c.requestLoad s.recorded.toCores path ⟨w, []⟩ = (answer, c', ⟨w', calls⟩) := by
  have same := perform_recorded s (.requestLoad path) c w []
  simpa [h, perform, Prod.ext_iff] using same

theorem install_of_episode {core : κ} {load : Option DeferredLoad}
    (h : (machine s).episode (.install core) (c, w) = ⟨x, op, .installed load, calls, c', w'⟩) :
    c.install s.recorded.toCores core ⟨w, []⟩ = (load, c', ⟨w', calls⟩) := by
  have same := perform_recorded s (.install core) c w []
  simpa [h, perform, Prod.ext_iff] using same

theorem pumpOnce_of_episode {surface : σ} {report : Option FrameReport}
    (h : (machine s).episode (.pumpOnce surface) (c, w) = ⟨x, op, .pumped report, calls, c', w'⟩) :
    c.pumpOnce s.recorded.toCores surface ⟨w, []⟩ = (report, c', ⟨w', calls⟩) := by
  have same := perform_recorded s (.pumpOnce surface) c w []
  simpa [h, perform, Prod.ext_iff] using same

end Operations

theorem run_concat (cores : Cores κ σ ω) (ops : List (Operation κ σ)) (op : Operation κ σ)
    (c : Coordinator κ) (w : ω) :
    c.run cores (ops ++ [op]) w =
      let (results, c, w) := c.run cores ops w
      let (result, c, w) := c.perform cores op w
      (results ++ [result], c, w) := by
  induction ops generalizing c w with
  | nil => simp [run]
  | cons first rest ih => simp [run, ih]

theorem run_of_machine {s : Surroundings κ σ η ω} {c c' : Coordinator κ} {w w' : ω}
    {t : List (Entry κ σ η ω)} (h : (machine s).Run (c, w) t (c', w')) :
    run s.recorded.toCores (t.map (·.move)) c ⟨w, []⟩ =
      (t.map (·.answer), c', ⟨w', t.flatMap (·.calls)⟩) := by
  generalize hx : (c', w') = x at h
  induction h generalizing c' w' with
  | start =>
    obtain ⟨rfl, rfl⟩ := Prod.mk.inj hx
    rfl
  | @next t x op _ _ ih =>
    obtain ⟨c₁, w₁⟩ := x
    simp only [List.map_append, List.map_cons, List.map_nil, run_concat, ih rfl]
    rw [show ((machine s).episode op (c₁, w₁)).move = op from rfl, perform_recorded]
    simp [← hx]

end EmulatorHost.Coordinator
