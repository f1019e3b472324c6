import EmulatorHost.Proofs.Calls
import EmulatorHost.Proofs.Software.History

namespace EmulatorHost.Screen

variable {failEvery : Option UInt64} {t : List Entry} {e : Entry} {s s₀ : Screen}

theorem framesSince_le (t : List Entry) : framesSince t ≤ t.countP (·.move.isFrame) :=
  (List.rtakeWhile_suffix _ t).sublist.countP_le

theorem Remembers.fails_iff {n : UInt64} (h : Remembers (some n) t s.core)
    (few : framesSince t + 1 < UInt64.size) :
    s.runFrame.1.accepted = false ↔ n.toNat ∣ framesSince t + 1 := by
  rw [accepted_runFrame, h.period, Bool.not_eq_false', SoftwareCore.fails_some, h.frame_add_one]
  rw [UInt64.toNat_ofNat', Nat.mod_eq_of_lt few]

theorem loadRom_failed (read : Path → Except String ByteArray) (path : Path) (s : Screen) :
    ((s.loadRom read path).1.accepted = false ↔ ¬ ∃ bytes, SoftwareCore.IsRom (read path) bytes) ∧
      ((s.loadRom read path).1.accepted = false → (s.loadRom read path).2 = s) := by
  have loads := s.core.loads (read path)
  unfold loadRom
  generalize s.core.load (read path) = loaded at loads
  cases loads with
  | taken rom => exact ⟨iff_of_false nofun fun useless => useless ⟨_, rom⟩, nofun⟩
  | refused useless => exact ⟨iff_of_true rfl useless, fun _ => rfl⟩

theorem useless_load {read : Path → Except String ByteArray} {path : Path}
    (run : machine.Run s₀ t s) (he : e ∈ t) (loads : e.move = .load read path) :
    (e.answer.accepted = false ↔ ∀ bytes, read path = .ok bytes → bytes.size = 0) ∧
      (e.answer.accepted = false → e.after = e.before) := by
  obtain ⟨before, after, rfl⟩ := List.append_of_mem he
  obtain ⟨-, -, same, -⟩ := run.split
  rw [loads] at same
  have answer : e.answer = (e.before.loadRom read path).1 := congrArg Episode.answer same
  have left : e.after = (e.before.loadRom read path).2 := congrArg Episode.after same
  obtain ⟨fails_iff, leaves⟩ := loadRom_failed read path e.before
  rw [answer, left, fails_iff]
  refine ⟨?_, fun useless => leaves (fails_iff.2 useless)⟩
  simp [SoftwareCore.IsRom]

def failsToLoad (e : Entry) : Bool :=
  match e.move with
  | .load .. => !e.answer.accepted
  | _ => false

theorem failsToLoad_eq_true (h : failsToLoad e = true) :
    ∃ read path, e.move = .load read path ∧ e.answer.accepted = false := by
  unfold failsToLoad at h
  split at h
  next read path loads => exact ⟨read, path, loads, by simpa using h⟩
  next => contradiction

/-- Every `n`th frame since a ROM last came in fails and all others are drawn. A file that is empty
or cannot be read is not loaded, which leaves everything as it was: the run without such requests
goes the same way. -/
theorem faults_periodic_and_failed_loads_unnoticed {n : UInt64} (period : 1 ≤ n)
    (run : machine.Run (s₀.create (some n)).2 t s)
    (few : t.countP (·.move.isFrame) < UInt64.size) :
    (∀ before e after, t = before ++ e :: after → e.move = .frame → 1 ≤ (lastSize before).width →
      (e.answer.accepted = false ↔ n.toNat ∣ framesSince (before ++ [e])) ∧
        e.after.crashed = e.before.crashed) ∧
    (∀ e ∈ t, ∀ read path, e.move = .load read path →
      (e.answer.accepted = false ↔ ∀ bytes, read path = .ok bytes → bytes.size = 0) ∧
        (e.answer.accepted = false → e.after = e.before)) ∧
    ∀ keep : Entry → Bool, (∀ e ∈ t, keep e = false → failsToLoad e = true) →
      machine.Run (s₀.create (some n)).2 (t.filter keep) s := by
  have given : some n ≠ some 0 := by
    rintro ⟨⟩
    exact absurd period (by decide)
  refine ⟨?_, fun e he read path => useless_load run he, fun keep failed => ?_⟩
  · rintro before e after rfl frame wide
    obtain ⟨kept, answer, left⟩ := Remembers.at_frame (core_create given s₀) run frame
    have columns : e.before.core.size.width ≠ 0 := by
      intro none
      rw [← kept.size, none] at wide
      exact absurd wide (by decide)
    have few : framesSince before + 1 < UInt64.size := by
      have all := framesSince_le before
      rw [List.countP_append, List.countP_cons_of_pos (by rw [frame]; rfl)] at few
      omega
    rw [framesSince_concat_frame frame, answer, left]
    exact ⟨kept.fails_iff few, crashed_runFrame _ columns⟩
  · refine run.filter fun e he dropped => ?_
    obtain ⟨read, path, loads, fails⟩ := failsToLoad_eq_true (failed e he dropped)
    exact (useless_load run he loads).2 fails

theorem second_frames_fail_past_failed_loads :
    ∃ t s, machine.Run (({} : Screen).create (some 2)).2 t s ∧
      t.map (·.answer.accepted) = [true, true, false, false, false, true, true, true, false] ∧
      2 ∣ framesSince (t.take 4) ∧ 2 ∣ framesSince t ∧
      ∃ u, machine.Run (({} : Screen).create (some 2)).2 u s ∧
        u.map (·.answer.accepted) = [true, true, false, true, true, true, false] := by
  obtain ⟨t, s, second, last, rest, ran, few, answers, cut, shorter, asked, wide, refused, cut',
      whole, asked', wide', refused', kept⟩ :
      ∃ t s second last rest,
        machine.run? [.resize ⟨2, 1⟩, .frame, .load (fun _ => .error "gone") ⟨[]⟩, .frame,
          .load (fun _ => .ok ⟨#[]⟩) ⟨[]⟩, .frame, .load (fun _ => .ok ⟨#[1]⟩) ⟨[]⟩, .frame, .frame]
          (({} : Screen).create (some 2)).2 = some (t, s) ∧
        t.countP (·.move.isFrame) = 5 ∧
        t.map (·.answer.accepted) = [true, true, false, false, false, true, true, true, false] ∧
        t = t.take 3 ++ second :: rest ∧ t.take 3 ++ [second] = t.take 4 ∧
        second.move = .frame ∧ (lastSize (t.take 3)).width = 2 ∧ second.answer.accepted = false ∧
        t = t.take 8 ++ [last] ∧ t.take 8 ++ [last] = t ∧
        last.move = .frame ∧ (lastSize (t.take 8)).width = 2 ∧ last.answer.accepted = false ∧
        (t.filter (!failsToLoad ·)).map (·.answer.accepted) =
          [true, true, false, true, true, true, false] :=
    ⟨_, _, _, _, _, rfl, rfl, rfl, rfl, rfl, rfl, rfl, rfl, rfl, rfl, rfl, rfl, rfl, rfl⟩
  have run := Machine.Run.of_run? ran
  obtain ⟨frames, -, without⟩ := faults_periodic_and_failed_loads_unnoticed (by decide) run
    (by rw [few]; decide)
  have once := (frames _ second _ cut asked (by rw [wide]; decide)).1.1 refused
  have again := (frames _ last _ cut' asked' (by rw [wide']; decide)).1.1 refused'
  rw [shorter] at once
  rw [whole] at again
  exact ⟨t, s, run, answers, once, again, t.filter (!failsToLoad ·),
    without _ fun e _ dropped => by simpa using dropped, kept⟩

end EmulatorHost.Screen
