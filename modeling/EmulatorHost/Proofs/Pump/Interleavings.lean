import EmulatorHost.Lockstep.Script
import EmulatorHost.Proofs.Pump.Replay

namespace EmulatorHost

namespace Drawable

def report (size : Size) (d : Drawable) : Except RequestError Bool × Drawable :=
  if size.isVisible then Prod.map .ok id (d.set size) else (.error (.invalidSize size), d)

def reportAll : List Size → Drawable → List (Except RequestError Bool) × Drawable
  | [], d => ([], d)
  | size :: rest, d =>
    let (answer, d) := d.report size
    let (answers, d) := reportAll rest d
    (answer :: answers, d)

end Drawable

namespace Pump

variable {κ σ η ω : Type} {s : Surroundings κ σ η ω} {due : Bool} {m : Move η} {answer : Answer}
  {calls : List (Activity κ σ η)} {p q : Pump κ σ η} {w w' : ω} {d : Drawable} {size : Size}
  {t t' : List (Entry κ σ η ω)} {x x' : Pump κ σ η × ω} {e : Entry κ σ η ω}

def withDrawable (d : Drawable) (p : Pump κ σ η) : Pump κ σ η :=
  { p with coordinator := { p.coordinator with drawable := d } }

def isReady : Phase κ → Bool
  | .ready => true
  | _ => false

theorem Announces.withDrawable {event : Notification} {next : Phase κ} (h : Announces p event next)
    (d : Drawable) : Announces (p.withDrawable d) event next := by
  cases h with
  | createFailed hp => exact .createFailed hp
  | core hp => exact .core hp
  | coreWithRom hp => exact .coreWithRom hp
  | rom hp => exact .rom hp
  | resize hp => exact .resize hp
  | failure hp => exact .failure (p := p.withDrawable d) hp
  | stop hp => exact .stop hp

theorem Passes.withDrawable {next : Phase κ} (h : Passes due p next) (d : Drawable) :
    Passes due (p.withDrawable d) next := by
  cases h with
  | toStop hp hs => exact .toStop hp hs
  | onwards hp hs => exact .onwards hp hs
  | paused hp held => exact .paused hp held
  | unpaced hp free hc => exact .unpaced hp free hc
  | paced hp free hc => exact .paced hp free hc
  | stopMeanwhile hp hs => exact .stopMeanwhile hp hs
  | due hp hs hd => exact .due hp hs hd
  | waits hp hs hd => exact .waits hp hs hd
  | rendered hp => exact .rendered hp
  | unresized hp => exact .unresized hp
  | coreless hp => exact .coreless hp

theorem Advances.withDrawable (h : Advances s due (p, w) calls (q, w'))
    (unready : isReady p.phase = false) (d : Drawable) :
    Advances s due (p.withDrawable d, w) calls (q.withDrawable d, w') ∧
      q.coordinator.drawable = p.coordinator.drawable := by
  cases h with
  | announced ha ht => exact ⟨.announced (ha.withDrawable d) ht, rfl⟩
  | passed hp => exact ⟨.passed (hp.withDrawable d), rfl⟩
  | missed hp | rendered hp | pushed hp =>
    rw [hp] at unready
    cases unready
  | created hp hc => exact ⟨.created hp hc, rfl⟩
  | refused hp hc => exact ⟨.refused hp hc, rfl⟩
  | installed hp hr => exact ⟨.installed (p := p.withDrawable d) hp hr, rfl⟩
  | loaded hp hr hl => exact ⟨.loaded (p := p.withDrawable d) hp hr hl, rfl⟩
  | counted hp => exact ⟨.counted (p := p.withDrawable d) hp, rfl⟩
  | failed hp => exact ⟨.failed (p := p.withDrawable d) hp, rfl⟩
  | tornDown hp => exact ⟨.tornDown (p := p.withDrawable d) hp, rfl⟩
  | dropped hp => exact ⟨.dropped (p := p.withDrawable d) hp, rfl⟩
  | ended hp => exact ⟨.ended (p := p.withDrawable d) hp, rfl⟩
  | rested hp => exact ⟨.rested (p := p.withDrawable d) hp, rfl⟩

theorem Serves.withDrawable (h : Serves s m (p, w) answer calls (q, w')) (other : m.size? = none)
    (d : Drawable) : Serves s m (p.withDrawable d, w) answer calls (q.withDrawable d, w') ∧
      q.coordinator.drawable = p.coordinator.drawable := by
  cases h with
  | invisible | resized => cases other
  | cancelled => exact ⟨.cancelled, rfl⟩
  | unnamed hm hn => exact ⟨.unnamed hm hn, rfl⟩
  | refused hm hn hs => exact ⟨.refused hm hn hs, rfl⟩
  | parked hm hn hs hc => exact ⟨.parked (p := p.withDrawable d) hm hn hs hc, rfl⟩
  | asked hm hn hs hc hl => exact ⟨.asked (p := p.withDrawable d) hm hn hs hc hl, rfl⟩
  | nothingToTell ho => exact ⟨.nothingToTell ho, rfl⟩
  | told ho ht => exact ⟨.told (p := p.withDrawable d) ho ht, rfl⟩
  | paused => exact ⟨.paused, rfl⟩
  | stopped => exact ⟨.stopped, rfl⟩
  | inspected => exact ⟨.inspected (p := p.withDrawable d), rfl⟩
  | subscribed => exact ⟨.subscribed (p := p.withDrawable d), rfl⟩
  | unsubscribed => exact ⟨.unsubscribed (p := p.withDrawable d), rfl⟩

theorem Move.eq_resize (h : m.size? = some size) : m = .resize size := by
  cases m with
  | resize z => exact congrArg Move.resize (Option.some.inj h)
  | _ => cases h

def startsFrame (e : Entry κ σ η ω) : Bool := e.move.isAdvance && isReady e.before.1.phase

def reports (e : Entry κ σ η ω) : Bool := e.move.size?.isSome

def sizesOf (t : List (Entry κ σ η ω)) : List Size := t.filterMap (·.move.size?)

theorem sizesOf_cons_of_some (hm : e.move.size? = some size) (t : List (Entry κ σ η ω)) :
    sizesOf (e :: t) = size :: sizesOf t :=
  List.filterMap_cons_some hm

theorem sizesOf_cons_of_none (hm : e.move.size? = none) (t : List (Entry κ σ η ω)) :
    sizesOf (e :: t) = sizesOf t :=
  List.filterMap_cons_none hm

def onDrawable (d : Drawable) (e : Entry κ σ η ω) : Entry κ σ η ω :=
  ⟨(e.before.1.withDrawable d, e.before.2), e.move, e.answer, e.calls,
    (e.after.1.withDrawable d, e.after.2)⟩

theorem of_reports (he : e = (machine s).episode e.move (p, w)) (hm : e.move.size? = some size) :
    e.answer = .resized (p.coordinator.drawable.report size).1 ∧ e.calls = [] ∧
      e.after = (p.withDrawable (p.coordinator.drawable.report size).2, w) := by
  rw [Move.eq_resize hm] at he
  cases hv : size.isVisible with
  | true =>
    rw [(Serves.resized hv).episode_eq] at he
    rw [he, Drawable.report, if_pos hv]
    exact ⟨rfl, rfl, rfl⟩
  | false =>
    rw [(Serves.invisible hv).episode_eq] at he
    rw [he, Drawable.report, if_neg (by simp [hv])]
    exact ⟨rfl, rfl, rfl⟩

theorem of_not_reports (he : e = (machine s).episode e.move (p, w)) (hm : e.move.size? = none)
    (unframed : startsFrame e = false) (d : Drawable) :
    (machine s).episode e.move (p.withDrawable d, w) = onDrawable d e ∧
      e.after.1.coordinator.drawable = p.coordinator.drawable := by
  have before : e.before = (p, w) := by rw [he]; rfl
  rw [startsFrame, before] at unframed
  generalize e.move = m at *
  by_cases host : m.isAdvance
  · obtain ⟨due, rfl⟩ := Move.eq_advance host
    obtain ⟨same, kept⟩ := (advances s due (p, w)).withDrawable (by simpa [host] using unframed) d
    rw [he]
    exact ⟨same.episode_eq, kept⟩
  · obtain ⟨same, kept⟩ := (serves s host (p, w)).withDrawable hm d
    rw [he]
    exact ⟨same.episode_eq, kept⟩

/-- Until a frame starts, a run is two: the drawable's, and that of the rest with any drawable. -/
theorem run_apart (run : (machine s).Run x t x') (unframed : ∀ e ∈ t, startsFrame e = false)
    (d : Drawable) :
    (machine s).Run (x.1.withDrawable d, x.2) ((t.filter (!reports ·)).map (onDrawable d))
        (x'.1.withDrawable d, x'.2) ∧
      ((t.filter reports).map (·.answer), x'.1.coordinator.drawable) =
        Prod.map (·.map .resized) id (x.1.coordinator.drawable.reportAll (sizesOf t)) := by
  induction t generalizing x with
  | nil =>
    obtain rfl := run.eq_of_nil
    exact ⟨.start, rfl⟩
  | cons e rest ih =>
    obtain ⟨p, w⟩ := x
    obtain ⟨allowed, he, later⟩ := run.uncons
    obtain ⟨runs, drawn⟩ := ih later fun e he => unframed e (List.mem_cons_of_mem _ he)
    cases hm : e.move.size? with
    | some size =>
      obtain ⟨answer, -, after⟩ := of_reports he hm
      have reporting : reports e = true := by simp [reports, hm]
      rw [after] at runs drawn
      obtain ⟨answers, drawable⟩ := Prod.mk.inj drawn
      rw [List.filter_cons_of_neg (by simp [reporting]), List.filter_cons_of_pos reporting,
        List.map_cons, answer, answers, drawable, sizesOf_cons_of_some hm]
      exact ⟨runs, rfl⟩
    | none =>
      obtain ⟨same, kept⟩ := of_not_reports he hm (unframed e List.mem_cons_self) d
      have other : reports e = false := by simp [reports, hm]
      rw [kept] at drawn
      rw [List.filter_cons_of_pos (by simp [other]), List.filter_cons_of_neg (by simp [other]),
        List.map_cons, ← same]
      refine ⟨.cons e.move allowed ?_, ?_⟩
      · rw [same]
        exact runs
      · rw [drawn, sizesOf_cons_of_none hm]

theorem calls_of_others (run : (machine s).Run x t x') :
    (t.filter (!reports ·)).flatMap (·.calls) = t.flatMap (·.calls) := by
  refine Machine.calls_filter fun e he reporting => ?_
  obtain ⟨before, after, rfl⟩ := List.append_of_mem he
  obtain ⟨size, hm⟩ := Option.isSome_iff_exists.1 (by simpa using reporting : reports e = true)
  exact (of_reports (p := e.before.1) (w := e.before.2) run.split.2.2.1 hm).2.1

structure Reordered (moves moves' : List (Move η)) : Prop where
  sizes : moves'.filterMap Move.size? = moves.filterMap Move.size?
  others : moves'.filter (·.size?.isNone) = moves.filter (·.size?.isNone)

structure AnsweredAlike (t t' : List (Entry κ σ η ω)) : Prop where
  sizes : (t'.filter reports).map (fun e => (e.move, e.answer)) =
    (t.filter reports).map (fun e => (e.move, e.answer))
  others : (t'.filter (!reports ·)).map (fun e => (e.move, e.answer, e.calls)) =
    (t.filter (!reports ·)).map (fun e => (e.move, e.answer, e.calls))
  calls : t'.flatMap (·.calls) = t.flatMap (·.calls)

theorem moves_of_reports (t : List (Entry κ σ η ω)) :
    (t.filter reports).map (·.move) = (sizesOf t).map .resize := by
  induction t with
  | nil => rfl
  | cons e t ih =>
    cases hm : e.move.size? with
    | some size =>
      rw [List.filter_cons_of_pos (by simp [reports, hm]), List.map_cons, ih,
        sizesOf_cons_of_some hm, Move.eq_resize hm, List.map_cons]
    | none => rw [List.filter_cons_of_neg (by simp [reports, hm]), ih, sizesOf_cons_of_none hm]

theorem moves_of_others (t : List (Entry κ σ η ω)) :
    ((t.filter (!reports ·)).map (onDrawable d)).map (·.move) =
      (t.map (·.move)).filter (·.size?.isNone) := by
  rw [List.map_map, List.filter_map]
  congr 1
  refine List.filter_congr fun e _ => ?_
  simp [reports]

theorem answeredAlike_of_reordered {x'' : Pump κ σ η × ω} (run : (machine s).Run x t x')
    (run' : (machine s).Run x t' x'') (unframed : ∀ e ∈ t, startsFrame e = false)
    (unframed' : ∀ e ∈ t', startsFrame e = false)
    (reordered : Reordered (t.map (·.move)) (t'.map (·.move))) : x'' = x' ∧ AnsweredAlike t t' := by
  have d := x.1.coordinator.drawable
  obtain ⟨runs, drawn⟩ := run_apart run unframed d
  obtain ⟨runs', drawn'⟩ := run_apart run' unframed' d
  have sizes : sizesOf t' = sizesOf t := by
    have same := reordered.sizes
    rw [List.filterMap_map, List.filterMap_map] at same
    exact same
  rw [sizes, ← drawn] at drawn'
  obtain ⟨answers, drawable⟩ := Prod.mk.inj drawn'
  obtain ⟨others, ends⟩ := runs'.unique runs (by
    rw [moves_of_others, moves_of_others, reordered.others])
  obtain ⟨pump, world⟩ := Prod.mk.inj ends
  have same {β : Type} (f : Entry κ σ η ω → β) (blind : ∀ e, f (onDrawable d e) = f e) :
      (t'.filter (!reports ·)).map f = (t.filter (!reports ·)).map f := by
    have mapped := congrArg (List.map f) others
    simpa [List.map_map, Function.comp_def, blind] using mapped
  refine ⟨Prod.ext ?_ world, ?_, same _ fun _ => rfl, ?_⟩
  · calc x''.1 = (x''.1.withDrawable d).withDrawable x''.1.coordinator.drawable := rfl
      _ = (x'.1.withDrawable d).withDrawable x'.1.coordinator.drawable := by rw [pump, drawable]
      _ = x'.1 := rfl
  · rw [← List.zip_map', ← List.zip_map', moves_of_reports, moves_of_reports, sizes, answers]
  · rw [← calls_of_others run', ← calls_of_others run, List.flatMap_def, List.flatMap_def,
      same _ fun _ => rfl]

theorem run_of_hosts (s : Surroundings κ σ η ω) {moves : List (Move η)}
    (host : ∀ m ∈ moves, ¬ m.isAdvance) (x : Pump κ σ η × ω)
    (allowed : ∀ m ∈ moves, x.1.allows m) :
    ∃ t x', (machine s).Run x t x' ∧ t.map (·.move) = moves := by
  induction moves generalizing x with
  | nil => exact ⟨[], x, .start, rfl⟩
  | cons m rest ih =>
    have phase := (serves s (host m List.mem_cons_self) x).untouched.phase
    obtain ⟨t, x', run, moves⟩ := ih (fun m hm => host m (List.mem_cons_of_mem _ hm))
      ((machine s).episode m x).after fun m hm => by
        rw [allows, phase]
        exact allowed m (List.mem_cons_of_mem _ hm)
    exact ⟨_, x', .cons m (allowed m List.mem_cons_self) run, by rw [List.map_cons, moves]; rfl⟩

theorem allows_of_hosts (run : (machine s).Run x t x') (host : ∀ e ∈ t, ¬ e.move.isAdvance) :
    ∀ e ∈ t, x.1.allows e.move := by
  induction t generalizing x with
  | nil => simp
  | cons e rest ih =>
    obtain ⟨allowed, he, later⟩ := run.uncons
    have phase := (serves s (host e List.mem_cons_self) x).untouched.phase
    rw [← he] at phase
    intro f hf
    rcases List.mem_cons.1 hf with rfl | hf
    · exact allowed
    · have able := ih later (fun e he => host e (List.mem_cons_of_mem _ he)) f hf
      rwa [allows, phase] at able

theorem Reordered.mem {moves moves' : List (Move η)} (h : Reordered moves moves')
    (hm : m ∈ moves') : m ∈ moves := by
  cases hz : m.size? with
  | some size =>
    have there : size ∈ moves.filterMap Move.size? := h.sizes ▸ List.mem_filterMap.2 ⟨m, hm, hz⟩
    obtain ⟨m', hm', hz'⟩ := List.mem_filterMap.1 there
    rwa [Move.eq_resize hz, ← Move.eq_resize hz']
  | none =>
    have there : m ∈ moves.filter (·.size?.isNone) :=
      h.others ▸ List.mem_filter.2 ⟨hm, by simp [hz]⟩
    exact (List.mem_filter.1 there).1

section Runs

variable {config : Config} {surface : σ} {subscriber : Option η}
  {before between after : List (Entry κ σ η ω)}

/-- Sizes and picks are independent. Until a frame starts, any other way to take the same sizes
and the same of all else leaves the same state, and so the same rest of the run; and as long as
only hosts move, all ways are open. -/
theorem sizes_and_picks_commute
    (run : (machine s).Run (Pump.start config surface subscriber, w)
      (before ++ (between ++ after)) x)
    (unframed : ∀ e ∈ between, startsFrame e = false) :
    ∃ y z, (machine s).Run (Pump.start config surface subscriber, w) before y ∧
      (machine s).Run y between z ∧
      (∀ between' z', (machine s).Run y between' z' → (∀ e ∈ between', startsFrame e = false) →
        Reordered (between.map (·.move)) (between'.map (·.move)) →
        z' = z ∧ AnsweredAlike between between' ∧
          (machine s).Run (Pump.start config surface subscriber, w)
            (before ++ (between' ++ after)) x) ∧
      ((∀ e ∈ between, ¬ e.move.isAdvance) →
        ∀ moves, Reordered (between.map (·.move)) moves →
          ∃ between', between'.map (·.move) = moves ∧ (machine s).Run y between' z ∧
            AnsweredAlike between between' ∧
            (machine s).Run (Pump.start config surface subscriber, w)
              (before ++ (between' ++ after)) x) := by
  obtain ⟨y, first, rest⟩ := run.cut
  obtain ⟨z, middle, last⟩ := rest.cut
  have other : ∀ between' z', (machine s).Run y between' z' →
      (∀ e ∈ between', startsFrame e = false) →
      Reordered (between.map (·.move)) (between'.map (·.move)) →
      z' = z ∧ AnsweredAlike between between' ∧
        (machine s).Run (Pump.start config surface subscriber, w)
          (before ++ (between' ++ after)) x := by
    intro between' z' run' unframed' reordered
    obtain ⟨rfl, alike⟩ := answeredAlike_of_reordered middle run' unframed unframed' reordered
    exact ⟨rfl, alike, first.trans (run'.trans last)⟩
  refine ⟨y, z, first, middle, other, fun host moves reordered => ?_⟩
  have hosts : ∀ m ∈ moves, ¬ m.isAdvance := fun m hm => by
    obtain ⟨e, he, rfl⟩ := List.mem_map.1 (reordered.mem hm)
    exact host e he
  have allowed : ∀ m ∈ moves, y.1.allows m := fun m hm => by
    obtain ⟨e, he, rfl⟩ := List.mem_map.1 (reordered.mem hm)
    exact allows_of_hosts middle host e he
  obtain ⟨between', z', run', rfl⟩ := run_of_hosts s hosts y allowed
  have unframed' : ∀ e ∈ between', startsFrame e = false := fun e he => by
    simp [startsFrame, hosts e.move (List.mem_map_of_mem he)]
  obtain ⟨rfl, alike, whole⟩ := other between' z' run' unframed' reordered
  exact ⟨between', rfl, run', alike, whole⟩

theorem sizes_and_parked_roms_commute :
    ∃ (t : List (Entry Nat UInt32 Lockstep.Subscriber Lockstep.Script))
      (x : Pump Nat UInt32 Lockstep.Subscriber × Lockstep.Script),
      (machine Lockstep.Script.surroundings).Run (Pump.start {} 7 (some ⟨1, none⟩), {}) t x ∧
      ∃ between', between'.map (·.move) =
          [.load ⟨[97]⟩, .pick (.picked ⟨[98]⟩), .resize ⟨640, 480⟩, .resize ⟨0, 480⟩,
            .resize ⟨320, 240⟩] ∧
        AnsweredAlike ((t.drop 1).take 5) between' ∧
        (machine Lockstep.Script.surroundings).Run (Pump.start {} 7 (some ⟨1, none⟩), {})
          (t.take 1 ++ (between' ++ t.drop 6)) x := by
  let requests : List (Move Lockstep.Subscriber) :=
    [.resize ⟨640, 480⟩, .load ⟨[97]⟩, .resize ⟨0, 480⟩, .resize ⟨320, 240⟩,
      .pick (.picked ⟨[98]⟩)]
  let frames : List (Move Lockstep.Subscriber) := .replicate 9 (.advance true)
  let moves := frames.take 1 ++ (requests ++ frames.drop 1)
  obtain ⟨⟨t, x⟩, ran⟩ := Option.isSome_iff_exists.1
    (show ((machine Lockstep.Script.surroundings).run? moves
      (Pump.start {} 7 (some ⟨1, none⟩), {})).isSome by decide +kernel)
  have run := Machine.Run.of_run? ran
  have whole : t.take 1 ++ ((t.drop 1).take 5 ++ t.drop 6) = t := by
    rw [show t.drop 6 = (t.drop 1).drop 5 by rw [List.drop_drop], List.take_append_drop,
      List.take_append_drop]
  have between : ((t.drop 1).take 5).map (·.move) = requests := by
    rw [List.map_take, List.map_drop, Machine.Run.moves_of_run? ran]
    rfl
  have hosts : ∀ e ∈ (t.drop 1).take 5, ¬ e.move.isAdvance := fun e he => by
    have there := List.mem_map_of_mem (f := (·.move)) he
    rw [between] at there
    exact (by decide : ∀ m ∈ requests, ¬ m.isAdvance) _ there
  rw [← whole] at run
  obtain ⟨y, z, -, -, -, orders⟩ := sizes_and_picks_commute run fun e he => by
    simp [startsFrame, hosts e he]
  obtain ⟨between', same, -, alike, later⟩ := orders hosts
    [.load ⟨[97]⟩, .pick (.picked ⟨[98]⟩), .resize ⟨640, 480⟩, .resize ⟨0, 480⟩, .resize ⟨320, 240⟩]
    ⟨by rw [between]; rfl, by rw [between]; rfl⟩
  exact ⟨t, x, whole ▸ run, between', same, alike, later⟩

end Runs

end Pump

end EmulatorHost
