import EmulatorHost.Proofs.Mirrors
import EmulatorHost.Proofs.Pump.History

namespace EmulatorHost.Pump

variable {κ σ η ω : Type}

theorem perform_recorded (s : Surroundings κ σ η ω) (m : Move η) (p : Pump κ σ η) (w : ω)
    (past : List (Activity κ σ η)) :
    p.perform s.recorded m ⟨w, past⟩ =
      (((machine s).episode m (p, w)).answer, ((machine s).episode m (p, w)).after.1,
        ⟨((machine s).episode m (p, w)).after.2,
          past ++ ((machine s).episode m (p, w)).calls⟩) := by
  rw [← Recorded.after_fresh, perform_mirror (s.recorded_mirrors past)]
  rfl

theorem run?_concat (s : Surroundings κ σ η ω) (moves : List (Move η)) (m : Move η)
    (p : Pump κ σ η) (w : ω) :
    p.run? s (moves ++ [m]) w =
      (p.run? s moves w).bind fun (answers, p, w) =>
        if p.allows m then
          let (answer, p, w) := p.perform s m w
          some (answers ++ [answer], p, w)
        else none := by
  induction moves generalizing p w with
  | nil => simp [run?]
  | cons first rest ih =>
    simp only [List.cons_append, run?]
    split
    · simp only [ih]
      cases (p.perform s first w).2.1.run? s rest (p.perform s first w).2.2 <;> simp
    · simp

theorem run?_of_machine {s : Surroundings κ σ η ω} {p p' : Pump κ σ η} {w w' : ω}
    {t : List (Entry κ σ η ω)} (h : (machine s).Run (p, w) t (p', w')) :
    p.run? s.recorded (t.map (·.move)) ⟨w, []⟩ =
      some (t.map (·.answer), p', ⟨w', t.flatMap (·.calls)⟩) := by
  generalize hx : (p', w') = x at h
  induction h generalizing p' w' with
  | start =>
    obtain ⟨rfl, rfl⟩ := Prod.mk.inj hx
    rfl
  | @next t x m _ allowed ih =>
    obtain ⟨p₁, w₁⟩ := x
    simp only [List.map_append, List.map_cons, List.map_nil, run?_concat, ih rfl]
    rw [show ((machine s).episode m (p₁, w₁)).move = m from rfl]
    simp only [Option.bind_some, perform_recorded, show p₁.allows m = true from allowed]
    simp [← hx]

end EmulatorHost.Pump
