import EmulatorHost.Lockstep.HostScript
import EmulatorHost.Proofs.Foreign.Slot

namespace EmulatorHost.Foreign.Shell

variable {ω : Type} {h : HostProgram ω} {m : Move} {answer : Answer} {calls : List Call}
  {x x' : Shell × ω} {t before after : List (Entry ω)} {e : Entry ω} {i : Nat} {sh : Shell} {w : ω}

/-- A stop has taken the session out of the slot and has not returned. -/
def Stopping (i : Nat) (t : List (Entry ω)) : Prop :=
  Since (fun e => e.move = .vacate ∧ e.before.1.slot = some i) (fun e => e.move = .join i) t

def inHand (sh : Shell) : List Nat := sh.slot.toList ++ (sh.vacated ++ sh.awaited)

structure Distinct (sh : Shell) : Prop where
  nodup : sh.inHand.Nodup
  bound : ∀ i ∈ sh.inHand, i < sh.sessions.length

theorem Distinct.of_perm (d : sh.Distinct) {sh' : Shell} (h : sh'.inHand.Perm sh.inHand)
    (same : sh'.sessions.length = sh.sessions.length) : sh'.Distinct where
  nodup := h.nodup_iff.2 d.nodup
  bound i hi := same ▸ d.bound i (h.subset hi)

theorem Does.distinct (step : Does h m x answer calls x') (d : x.1.Distinct) : x'.1.Distinct := by
  cases step with
  | refused => exact d
  | @started table surface rate sh w =>
    have kept : (sh.vacated ++ sh.awaited).Sublist sh.inHand := List.sublist_append_right ..
    have fresh : ∀ i ∈ sh.vacated ++ sh.awaited, i < sh.sessions.length :=
      fun i hi => d.bound i (kept.subset hi)
    constructor
    · refine List.nodup_cons.2 ⟨fun hi => Nat.lt_irrefl _ (fresh _ hi), d.nodup.sublist kept⟩
    · intro i hi
      rw [List.length_append, List.length_singleton]
      rcases List.mem_cons.1 hi with rfl | hi
      · exact Nat.lt_succ_self _
      · exact Nat.lt_succ_of_lt (fresh i hi)
  | @vacated sh w =>
    refine d.of_perm ?_ rfl
    simp only [inHand, Option.toList_none, List.nil_append]
    rw [List.append_assoc]
    exact List.perm_append_comm_assoc ..
  | @dismissed i sh w hi =>
    have told : (sh.vacated.erase i ++ (sh.awaited ++ [i])).Perm (sh.vacated ++ sh.awaited) := by
      rw [← List.append_assoc]
      exact (List.perm_append_singleton i _).trans ((List.perm_cons_erase hi).symm.append_right _)
    exact d.of_perm (told.append_left _) (List.length_modify ..)
  | @joined i sh w hi =>
    have left : (inHand { sh with awaited := sh.awaited.erase i }).Sublist sh.inHand :=
      ((List.erase_sublist ..).append_left _).append_left _
    exact ⟨d.nodup.sublist left, fun j hj => d.bound j (left.subset hj)⟩
  | acted => exact d.of_perm (List.Perm.refl _) (List.length_modify ..)

theorem distinct_of_run (run : (machine h).Run ({}, w) t x) : x.1.Distinct := by
  refine run_induction (Q := fun _ x => x.1.Distinct) ⟨?_, ?_⟩ ?_ run
  · exact List.nodup_nil
  · exact List.forall_mem_nil _
  · exact fun _ d step => step.distinct d

theorem Does.stopping (step : Does h m x answer calls x') (d : x.1.Distinct)
    (earlier : ∀ i ∈ x.1.vacated ++ x.1.awaited, Stopping i t) :
    ∀ i ∈ x'.1.vacated ++ x'.1.awaited, Stopping i (t ++ [⟨x, m, answer, calls, x'⟩]) := by
  intro i hi
  refine Since.concat_iff.2 ?_
  cases step with
  | refused | started | acted => exact .inr ⟨earlier i hi, nofun⟩
  | @vacated sh w =>
    simp only [List.mem_append, Option.mem_toList] at hi earlier
    rcases hi with (vacated | held) | awaited
    · exact .inr ⟨earlier i (.inl vacated), nofun⟩
    · exact .inl ⟨rfl, held⟩
    · exact .inr ⟨earlier i (.inr awaited), nofun⟩
  | @dismissed j sh w hj =>
    simp only [List.mem_append, List.mem_singleton] at hi earlier
    refine .inr ⟨earlier i ?_, nofun⟩
    rcases hi with vacated | awaited | rfl
    · exact .inl (List.mem_of_mem_erase vacated)
    · exact .inr awaited
    · exact .inl hj
  | @joined j sh w hj =>
    have nodup : (sh.vacated ++ sh.awaited).Nodup :=
      d.nodup.sublist (List.sublist_append_right ..)
    obtain ⟨-, once, apart⟩ := List.nodup_append.1 nodup
    simp only [List.mem_append] at hi earlier
    rcases hi with vacated | awaited
    · refine .inr ⟨earlier i (.inl vacated), fun same => ?_⟩
      obtain rfl := Move.join.inj same
      exact apart _ vacated _ hj rfl
    · refine .inr ⟨earlier i (.inr (List.mem_of_mem_erase awaited)), fun same => ?_⟩
      obtain rfl := Move.join.inj same
      exact once.not_mem_erase awaited

theorem stopping_of_run (run : (machine h).Run ({}, w) t x) :
    ∀ i ∈ x.1.vacated ++ x.1.awaited, Stopping i t := by
  refine run_induction (Q := fun t x => ∀ i ∈ x.1.vacated ++ x.1.awaited, Stopping i t) ?_ ?_ run
  · exact List.forall_mem_nil _
  · intro t x m answer calls x' run earlier step
    exact step.stopping (distinct_of_run run) earlier

/-- When a session starts, all earlier ones have lived their lives, but for those that a stop has
taken out of the slot and still waits for. -/
theorem starts_after_all_but_stopping (run : (machine h).Run ({}, w) t x) :
    ∀ before e after, t = before ++ e :: after → e.answer = .started true →
      (∀ (i : Nat) (table : Table), (opened before)[i]? = some table → ¬ Stopping i before →
        (∀ s, e.before.1.session? i = some s → s.Over) ∧
          table.Life (callsOf i before) ∧ callsOf i (e :: after) = []) ∧
      callsOf (opened before).length before = [] := by
  rintro before e after rfl started
  obtain ⟨first, allowed, same, -⟩ := run.split
  have step := does h allowed
  rw [← same, started] at step
  refine ⟨fun i table hi free => ?_, ?_⟩
  · have ended : ∀ s, e.before.1.session? i = some s → s.Over := fun s hs =>
      over_of_started first step hs
        (fun vacated => free (stopping_of_run first i (List.mem_append_left _ vacated)))
        (fun awaited => free (stopping_of_run first i (List.mem_append_right _ awaited)))
    exact ⟨ended, life_of_over run hi ended⟩
  · rw [← tables_of_run first, List.length_map]
    exact unseen_of_run first

theorem started_of_matches (h : (e.answer matches .started true) = true) :
    e.answer = .started true := by
  cases ha : e.answer with
  | started b => cases b <;> simp [ha] at h ⊢
  | _ => simp [ha] at h

open Lockstep in
theorem start_after_refused_core :
    ∃ t x before e after, (machine HostScript.program).Run ({}, { creates := false }) t x ∧
      t = before ++ e :: after ∧ e.answer = .started true ∧ ¬ Stopping 0 before ∧
      callsOf 0 before = [(.create 5, some false)] ∧ callsOf 0 (e :: after) = [] := by
  obtain ⟨t, x, run, starts, unstopped, one, calls⟩ : ∃ t x,
      (machine HostScript.program).Run ({}, { creates := false }) t x ∧
        (t[7]?.any fun e => e.answer matches .started true) = true ∧
        ((t.take 7).all fun e => !(e.move matches .vacate)) = true ∧
        0 < (opened (t.take 7)).length ∧ callsOf 0 (t.take 7) = [(.create 5, some false)] :=
    Machine.Run.of_decided
      (.start (some { userData := 5 }) 7 0 :: List.replicate 6 (.act 0 (.advance true)) ++
        [.start (some { userData := 5 }) 7 0, .act 1 (.advance true), .act 0 (.load ⟨[97]⟩)])
      (by decide +kernel)
  obtain ⟨e, he, answered⟩ := (Option.any_eq_true _ _).1 starts
  have started := started_of_matches answered
  have cut := eq_split_of_getElem? he
  have free : ¬ Stopping 0 (t.take 7) := by
    intro stopping
    obtain ⟨f, hf, vacates, -⟩ := stopping.mem
    simpa [vacates] using List.all_eq_true.1 unstopped f hf
  obtain ⟨earlier, -⟩ := starts_after_all_but_stopping run _ e _ cut started
  obtain ⟨-, -, silent⟩ := earlier 0 _ (List.getElem?_eq_getElem one) free
  exact ⟨t, x, _, e, _, run, cut, started, free, calls, silent⟩

open Lockstep in
/-- A start between the two steps of a stop does not wait: it says yes beside a running pump, and
two cores are created before the first is destroyed. -/
theorem core_created_beside_another :
    ∃ t x before e after s, (machine HostScript.program).Run ({}, {}) t x ∧
      t = before ++ e :: after ∧ e.answer = .started true ∧
      e.before.1.session? 0 = some s ∧ s.pump.running = true ∧
      s.pump.coordinator.core = some ⟨5, true⟩ ∧
      (t.flatMap (·.calls)).map Prod.fst =
        [.create 5, .runFrame 5 7, .create 5, .runFrame 5 7, .destroy 5] := by
  obtain ⟨t, x, run, starts, calls⟩ : ∃ t x, (machine HostScript.program).Run ({}, {}) t x ∧
      (t[8]?.any fun e => (e.answer matches .started true) &&
        (e.before.1.session? 0).any fun s =>
          s.pump.running && decide (s.pump.coordinator.core = some ⟨5, true⟩)) = true ∧
      (t.flatMap (·.calls)).map Prod.fst =
        [.create 5, .runFrame 5 7, .create 5, .runFrame 5 7, .destroy 5] :=
    Machine.Run.of_decided
      (.start (some { userData := 5 }) 7 0 :: List.replicate 6 (.act 0 (.advance true)) ++
        .vacate :: .start (some { userData := 5 }) 7 0 ::
        List.replicate 6 (.act 1 (.advance true)) ++
        .dismiss 0 :: List.replicate 6 (.act 0 (.advance true)))
      (by decide +kernel)
  obtain ⟨e, he, both⟩ := (Option.any_eq_true _ _).1 starts
  obtain ⟨answered, present⟩ := Bool.and_eq_true_iff.1 both
  obtain ⟨s, hs, live⟩ := (Option.any_eq_true _ _).1 present
  obtain ⟨running, core⟩ := Bool.and_eq_true_iff.1 live
  exact ⟨t, x, _, e, _, s, run, eq_split_of_getElem? he, started_of_matches answered, hs, running,
    of_decide_eq_true core, calls⟩

end EmulatorHost.Foreign.Shell
