import EmulatorHost.Proofs.Pump.History

/-! What a pump does depends on nothing but its moves and the answers to its calls. -/

namespace EmulatorHost

variable {κ σ η ω ω' : Type}

namespace Surroundings

def Answers (s : Surroundings κ σ η ω) : Activity κ σ η → ω → ω → Prop
  | .created answer, w, w' => s.createCore w = (answer, w')
  | .frame core surface answer, w, w' => s.runFrame core surface w = (answer, w')
  | .resized core size answer, w, w' => s.setOutputSize core size w = (answer, w')
  | .loaded core path answer, w, w' => s.loadRom core path w = (answer, w')
  | .dropped core, w, w' => s.drop core w = w'
  | .delivered l event heard, w, w' => s.deliver l event w = (heard, w')
  | .released l, w, w' => s.release l w = w'

def Replays (s : Surroundings κ σ η ω) : List (Activity κ σ η) → ω → ω → Prop
  | [], w, w' => w = w'
  | act :: acts, w, w' => ∃ w₁, s.Answers act w w₁ ∧ s.Replays acts w₁ w'

variable {s : Surroundings κ σ η ω} {act : Activity κ σ η} {acts acts' : List (Activity κ σ η)}
  {w w' : ω}

@[simp] theorem replays_nil : s.Replays [] w w' ↔ w = w' := Iff.rfl

@[simp] theorem replays_cons :
    s.Replays (act :: acts) w w' ↔ ∃ w₁, s.Answers act w w₁ ∧ s.Replays acts w₁ w' := Iff.rfl

theorem replays_singleton : s.Replays [act] w w' ↔ s.Answers act w w' := by
  simp

theorem replays_append :
    s.Replays (acts ++ acts') w w' ↔ ∃ w₁, s.Replays acts w w₁ ∧ s.Replays acts' w₁ w' := by
  induction acts generalizing w with
  | nil => simp
  | cons act acts ih =>
    simp only [List.cons_append, replays_cons, ih]
    constructor
    · rintro ⟨w₁, first, w₂, rest, later⟩
      exact ⟨w₂, ⟨w₁, first, rest⟩, later⟩
    · rintro ⟨w₂, ⟨w₁, first, rest⟩, later⟩
      exact ⟨w₁, first, w₂, rest, later⟩

theorem replays_discardCore {c : Coordinator κ} :
    s.Replays (c.core.map .dropped).toList w w' ↔ c.discardCore s.toCores w = w' := by
  cases hc : c.core <;> simp [Coordinator.discardCore, hc, Answers]

theorem replays_letGo {n : Notifier η} :
    s.Replays (n.subscriber.map .released).toList w w' ↔ n.letGo s.toListeners w = w' := by
  cases hn : n.subscriber <;> simp [Notifier.letGo, hn, Answers]

end Surroundings

namespace Pump

variable {s : Surroundings κ σ η ω} {s' : Surroundings κ σ η ω'} {due : Bool} {m : Move η}
  {answer : Answer} {calls : List (Activity κ σ η)} {x x' : Pump κ σ η × ω} {p q : Pump κ σ η}
  {w w' : ω} {v v' : ω'} {event : Notification} {next : Phase κ} {n n' : Notifier η}

theorem Tells.replays (h : Tells s event (n, w) calls (n', w')) : s.Replays calls w w' := by
  cases h with
  | unheard => rfl
  | heard hd => exact Surroundings.replays_singleton.2 hd
  | refused hd => exact ⟨_, hd, Surroundings.replays_singleton.2 rfl⟩

theorem Advances.replays (h : Advances s due x calls x') : s.Replays calls x.2 x'.2 := by
  cases h with
  | announced _ ht => exact ht.replays
  | created _ hc | refused _ hc => exact Surroundings.replays_singleton.2 hc
  | installed => exact Surroundings.replays_discardCore.2 rfl
  | loaded _ _ hl =>
    exact Surroundings.replays_append.2
      ⟨_, Surroundings.replays_discardCore.2 rfl, Surroundings.replays_singleton.2 hl⟩
  | rendered _ _ _ hr => exact Surroundings.replays_singleton.2 hr
  | pushed _ _ _ hp hr => exact ⟨_, hp, Surroundings.replays_singleton.2 hr⟩
  | dropped => exact Surroundings.replays_singleton.2 rfl
  | _ => rfl

theorem Serves.replays (h : Serves s m x answer calls x') : s.Replays calls x.2 x'.2 := by
  cases h with
  | asked _ _ _ _ hl => exact Surroundings.replays_singleton.2 hl
  | told _ ht => exact ht.replays
  | subscribed | unsubscribed => exact Surroundings.replays_letGo.2 rfl
  | _ => rfl

theorem Tells.replay (h : Tells s event (n, w) calls (n', w')) (again : s'.Replays calls v v') :
    Tells s' event (n, v) calls (n', v') := by
  cases h with
  | unheard =>
    obtain rfl := again
    exact .unheard
  | heard => exact .heard (Surroundings.replays_singleton.1 again)
  | refused =>
    obtain ⟨v₁, hd, hr⟩ := again
    obtain rfl := Surroundings.replays_singleton.1 hr
    exact .refused hd

theorem Advances.replay (h : Advances s due (p, w) calls (q, w')) (again : s'.Replays calls v v') :
    Advances s' due (p, v) calls (q, v') := by
  cases h with
  | announced ha ht => exact .announced ha (ht.replay again)
  | created hp => exact .created hp (Surroundings.replays_singleton.1 again)
  | refused hp => exact .refused hp (Surroundings.replays_singleton.1 again)
  | installed hp hr =>
    obtain rfl := Surroundings.replays_discardCore.1 again
    exact .installed hp hr
  | loaded hp hr =>
    obtain ⟨v₁, hd, hl⟩ := Surroundings.replays_append.1 again
    obtain rfl := Surroundings.replays_discardCore.1 hd
    exact .loaded hp hr (Surroundings.replays_singleton.1 hl)
  | rendered hp hc hd => exact .rendered hp hc hd (Surroundings.replays_singleton.1 again)
  | pushed hp hc hd =>
    obtain ⟨v₁, hpush, hr⟩ := again
    exact .pushed hp hc hd hpush (Surroundings.replays_singleton.1 hr)
  | dropped hp =>
    obtain rfl := Surroundings.replays_singleton.1 again
    exact .dropped hp
  | passed hp =>
    obtain rfl := again
    exact .passed hp
  | missed hp hc =>
    obtain rfl := again
    exact .missed hp hc
  | counted hp =>
    obtain rfl := again
    exact .counted hp
  | failed hp =>
    obtain rfl := again
    exact .failed hp
  | tornDown hp =>
    obtain rfl := again
    exact .tornDown hp
  | ended hp =>
    obtain rfl := again
    exact .ended hp
  | rested hp =>
    obtain rfl := again
    exact .rested hp

theorem Serves.replay (h : Serves s m (p, w) answer calls (q, w'))
    (again : s'.Replays calls v v') : Serves s' m (p, v) answer calls (q, v') := by
  cases h with
  | asked hm hn hs hc => exact .asked hm hn hs hc (Surroundings.replays_singleton.1 again)
  | told ho ht => exact .told ho (ht.replay again)
  | subscribed =>
    obtain rfl := Surroundings.replays_letGo.1 again
    exact .subscribed
  | unsubscribed =>
    obtain rfl := Surroundings.replays_letGo.1 again
    exact .unsubscribed
  | _ =>
    obtain rfl := again
    constructor <;> assumption

theorem Tells.broadcast_eq (h : Tells s event (n, w) calls (n', w')) :
    n.broadcast s.recorded.toListeners event ⟨w, []⟩ = (n', ⟨w', calls⟩) := by
  cases h with
  | unheard => rfl
  | heard hd | refused hd =>
    simp [Notifier.broadcast, Surroundings.recorded, Recorded.call, Recorded.note, hd]

theorem Announces.episode_eq (h : Announces p event next)
    (ht : Tells s event (p.notifier, w) calls (n, w')) :
    (machine s).episode (.advance due) (p, w) =
      ⟨(p, w), .advance due, .silent, calls, { p with notifier := n, phase := next }, w'⟩ := by
  have told := ht.broadcast_eq
  cases h <;> rename_i hp <;>
    simp [Machine.episode, machine, perform, step, hp, announce, broadcast, enter, told]

theorem Passes.episode_eq (h : Passes due p next) (s : Surroundings κ σ η ω) (w : ω) :
    (machine s).episode (.advance due) (p, w) =
      ⟨(p, w), .advance due, .silent, [], p.enter next, w⟩ := by
  cases h <;> simp_all [Machine.episode, machine, perform, step]

theorem Advances.episode_eq (h : Advances s due x calls x') :
    (machine s).episode (.advance due) x = ⟨x, .advance due, .silent, calls, x'⟩ := by
  cases h with
  | announced ha ht => exact ha.episode_eq ht
  | passed hp => exact hp.episode_eq ..
  | created hp hc | refused hp hc =>
    simp [Machine.episode, machine, perform, step, hp, Surroundings.recorded, Recorded.call, hc]
  | @installed p w core hp hr =>
    have same :=
      Coordinator.install_of_episode (Coordinator.episode_install_of_none s hr core (w := w))
    simp [Machine.episode, machine, perform, step, hp, same]
  | loaded hp hr hl =>
    have same := Coordinator.install_of_episode (Coordinator.episode_install_of_parked s hr hl)
    simp [Machine.episode, machine, perform, step, hp, same]
  | @missed p w hp hc =>
    have same := Coordinator.pumpOnce_of_episode
      (Coordinator.episode_pumpOnce_of_absent s hc p.surface (w := w))
    simp [Machine.episode, machine, perform, step, hp, same, enter]
  | rendered hp hc hd hr =>
    have same := Coordinator.pumpOnce_of_episode (Coordinator.episode_pumpOnce_of_told s hc hd hr)
    simp [Machine.episode, machine, perform, step, hp, same, enter]
  | pushed hp hc hd hpush hr =>
    have same :=
      Coordinator.pumpOnce_of_episode (Coordinator.episode_pumpOnce_of_pending s hc hd hpush hr)
    simp [Machine.episode, machine, perform, step, hp, same]
  | dropped hp =>
    simp [Machine.episode, machine, perform, step, hp, Surroundings.recorded, Recorded.note, enter]
  | tornDown hp =>
    simp [Machine.episode, machine, perform, step, hp, Coordinator.takeCore]
  | counted hp | failed hp | ended hp | rested hp =>
    simp [Machine.episode, machine, perform, step, hp]

theorem episode_of_requestLoad {path : Path} {answer : PickAnswer} (hm : m.path? = some path)
    (h : p.requestLoad s.recorded path ⟨w, []⟩ = (answer, q, ⟨w', calls⟩)) :
    (machine s).episode m (p, w) = ⟨(p, w), m, .picked answer, calls, q, w'⟩ := by
  have asks : m = .load path ∨ m = .pick (.picked path) := by
    unfold Move.path? at hm
    split at hm <;> cases hm <;> simp
  rcases asks with rfl | rfl <;> simp [Machine.episode, machine, perform, requestPick, h]

theorem Serves.episode_eq (h : Serves s m x answer calls x') :
    (machine s).episode m x = ⟨x, m, answer, calls, x'⟩ := by
  cases h with
  | unnamed hm hn => exact episode_of_requestLoad hm (by simp [requestLoad, hn])
  | @refused m p w path hm hn hs =>
    have same := Coordinator.requestLoad_of_episode
      (Coordinator.episode_requestLoad_of_stopped s hs path (w := w))
    exact episode_of_requestLoad hm (by simp [requestLoad, hn, same, loadNotice])
  | @parked m p w path hm hn hs hc =>
    have same := Coordinator.requestLoad_of_episode
      (Coordinator.episode_requestLoad_of_absent s hs hc path (w := w))
    exact episode_of_requestLoad hm (by simp [requestLoad, hn, same, loadNotice])
  | asked hm hn hs hc hl =>
    have same :=
      Coordinator.requestLoad_of_episode (Coordinator.episode_requestLoad_of_present s hs hc hl)
    exact episode_of_requestLoad hm (by simp [requestLoad, hn, same])
  | invisible hv | resized hv =>
    simp [Machine.episode, machine, perform, setDrawableSize, hv, Coordinator.setDrawableSize]
  | nothingToTell ho => simp [Machine.episode, machine, perform, sendNotice, ho]
  | told ho ht =>
    simp [Machine.episode, machine, perform, sendNotice, ho, broadcast, ht.broadcast_eq]
  | subscribed =>
    simp [Machine.episode, machine, perform, subscribe, Notifier.subscribe, letGo_recorded]
  | unsubscribed =>
    simp [Machine.episode, machine, perform, unsubscribe, Notifier.unsubscribe, letGo_recorded]
  | cancelled | paused | stopped | inspected => rfl

theorem episode_replay (again : s'.Replays ((machine s).episode m (p, w)).calls v v') :
    (machine s').episode m (p, v) =
      ⟨(p, v), m, ((machine s).episode m (p, w)).answer, ((machine s).episode m (p, w)).calls,
        ((machine s).episode m (p, w)).after.1, v'⟩ := by
  by_cases host : m.isAdvance
  · obtain ⟨due, rfl⟩ := Move.eq_advance host
    exact ((advances s due (p, w)).replay again).episode_eq
  · exact ((serves s host (p, w)).replay again).episode_eq

theorem replays_episode (s : Surroundings κ σ η ω) (m : Move η) (x : Pump κ σ η × ω) :
    s.Replays ((machine s).episode m x).calls x.2 ((machine s).episode m x).after.2 := by
  by_cases host : m.isAdvance
  · obtain ⟨due, rfl⟩ := Move.eq_advance host
    exact (advances s due x).replays
  · exact (serves s host x).replays

theorem replays_of_run {t : List (Entry κ σ η ω)} (run : (machine s).Run x t x') :
    s.Replays (t.flatMap (·.calls)) x.2 x'.2 := by
  induction run with
  | start => rfl
  | next m _ _ ih =>
    rw [List.flatMap_append, List.flatMap_singleton]
    exact Surroundings.replays_append.2 ⟨_, ih, replays_episode s m _⟩

end Pump

end EmulatorHost
