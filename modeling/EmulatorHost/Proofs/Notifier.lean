import Mathlib.Data.List.Nodup
import EmulatorHost.Lockstep.Script
import EmulatorHost.Proofs.Pump.History

namespace EmulatorHost

def Activity.listener? {κ σ η : Type} : Activity κ σ η → Option η
  | .delivered l .. | .released l => some l
  | _ => none

namespace Notifier

variable {κ σ η ω : Type}

inductive Operation (η : Type) where
  | broadcast (event : Notification)
  | subscribe (listener : η)
  | unsubscribe
  deriving DecidableEq

def perform (s : Surroundings κ σ η ω) (op : Operation η) (n : Notifier η) (w : ω) :
    Notifier η × ω :=
  match op with
  | .broadcast event => n.broadcast s.toListeners event w
  | .subscribe l => n.subscribe s.toListeners l w
  | .unsubscribe => n.unsubscribe s.toListeners w

def machine (s : Surroundings κ σ η ω) :
    Machine (Notifier η × ω) (Operation η) Unit (Activity κ σ η) where
  allows _ _ := true
  perform op x :=
    let r := x.1.perform s.recorded op ⟨x.2, []⟩
    ((), r.2.activity, r.1, r.2.world)

abbrev Entry (κ σ η ω : Type) := Episode (Notifier η × ω) (Operation η) Unit (Activity κ σ η)

def Operation.listener? : Operation η → Option η
  | .subscribe l => some l
  | _ => none

def subscribed (t : List (Entry κ σ η ω)) : List η := t.filterMap (·.move.listener?)

/-- A subscription ends when another takes its place, when it is unsubscribed, and when an event
is refused. -/
def Ends (e : Entry κ σ η ω) : Prop :=
  (∃ l, e.move = .subscribe l) ∨ e.move = .unsubscribe ∨ ∃ call ∈ e.calls, call.isRefused = true

def Standing (first : Option η) (t : List (Entry κ σ η ω)) (l : η) : Prop :=
  Since (fun e => e.move = .subscribe l) Ends t ∨ first = some l ∧ ∀ e ∈ t, ¬ Ends e

def Joins (first : Option η) (t : List (Entry κ σ η ω)) (l : η) (after : List (Entry κ σ η ω)) :
    Prop :=
  first = some l ∧ after = t ∨ ∃ before e, t = before ++ e :: after ∧ e.move = .subscribe l

/-- How a run goes on after a listener was subscribed, and the calls that the listener gets in it.
After it has been let go it gets none, whatever else happens. -/
inductive Stretch (l : η) : List (Entry κ σ η ω) → List (Activity κ σ η) → Prop
  | standing : Stretch l [] []
  | heard {e : Entry κ σ η ω} {rest : List (Entry κ σ η ω)} {calls : List (Activity κ σ η)}
      {event : Notification} (h : e.move = .broadcast event) (later : Stretch l rest calls) :
      Stretch l (e :: rest) (.delivered l event true :: calls)
  | refused {e : Entry κ σ η ω} {rest : List (Entry κ σ η ω)} {event : Notification}
      (h : e.move = .broadcast event) :
      Stretch l (e :: rest) [.delivered l event false, .released l]
  | parted {e : Entry κ σ η ω} {rest : List (Entry κ σ η ω)}
      (h : ∀ event, e.move ≠ .broadcast event) : Stretch l (e :: rest) [.released l]

variable {s : Surroundings κ σ η ω} {first : Option η} {n : Notifier η} {w : ω} {l l' : η}
  {x x' : Notifier η × ω} {t after : List (Entry κ σ η ω)} {e : Entry κ σ η ω}
  {event : Notification} {op : Operation η} {calls earlier later : List (Activity κ σ η)}

theorem Stretch.released_last (h : Stretch l t calls)
    (cut : calls = earlier ++ .released l :: later) : later = [] := by
  induction h generalizing earlier with
  | standing => simp at cut
  | heard _ _ ih =>
    cases earlier with
    | nil => cases List.head_eq_of_cons_eq cut
    | cons c earlier => exact ih (List.tail_eq_of_cons_eq cut)
  | refused | parted =>
    rcases earlier with _ | ⟨c, _ | ⟨d, earlier⟩⟩ <;> simp_all

inductive Does (s : Surroundings κ σ η ω) :
    Operation η → Notifier η × ω → List (Activity κ σ η) → Notifier η × ω → Prop
  | told {event : Notification} {x x' : Notifier η × ω} {calls : List (Activity κ σ η)}
      (h : Pump.Tells s event x calls x') : Does s (.broadcast event) x calls x'
  | subscribed {l : η} {n : Notifier η} {w : ω} :
      Does s (.subscribe l) (n, w) (n.subscriber.map .released).toList
        (⟨some l⟩, n.letGo s.toListeners w)
  | unsubscribed {n : Notifier η} {w : ω} :
      Does s .unsubscribe (n, w) (n.subscriber.map .released).toList
        (⟨none⟩, n.letGo s.toListeners w)

theorem does (s : Surroundings κ σ η ω) (op : Operation η) (x : Notifier η × ω) :
    Does s op x ((machine s).episode op x).calls ((machine s).episode op x).after := by
  obtain ⟨n, w⟩ := x
  have letsGo := Pump.letGo_recorded s n w
  cases op with
  | broadcast event => exact .told (Pump.tells s event n w)
  | subscribe l =>
    simp only [Machine.episode, machine, perform, subscribe, letsGo]
    exact .subscribed
  | unsubscribe =>
    simp only [Machine.episode, machine, perform, unsubscribe, letsGo]
    exact .unsubscribed

namespace Does

theorem listener_of_mem (h : Does s op x calls x') {call : Activity κ σ η} (hc : call ∈ calls) :
    call.listener? = x.1.subscriber := by
  have letGo (n : Notifier η)
      (hc : call ∈ (n.subscriber.map .released : Option (Activity κ σ η)).toList) :
      call.listener? = n.subscriber := by
    obtain ⟨l, hl, rfl⟩ : ∃ l, n.subscriber = some l ∧ Activity.released l = call := by
      simpa using hc
    exact hl.symm
  cases h with
  | told h =>
    cases h with
    | unheard => cases hc
    | heard | refused =>
      simp only [List.mem_cons, List.not_mem_nil, or_false] at hc
      rcases hc with rfl | rfl <;> rfl
  | subscribed | unsubscribed => exact letGo _ hc

theorem subscriber_iff (h : Does s op x calls x') : x'.1.subscriber = some l ↔
    op = .subscribe l ∨ x.1.subscriber = some l ∧ ¬ Ends ⟨x, op, (), calls, x'⟩ := by
  cases h with
  | told h => cases h <;> simp [Ends, Activity.isRefused]
  | subscribed | unsubscribed => simp [Ends]

theorem of_broadcast (h : Does s (.broadcast event) x calls x') :
    (∃ l heard, x.1.subscriber = some l ∧
      calls = .delivered l event heard :: if heard then [] else [.released l]) ∨
    x.1.subscriber = none ∧ calls = [] := by
  cases h with
  | told h =>
    cases h with
    | unheard => exact .inr ⟨rfl, rfl⟩
    | heard => exact .inl ⟨_, true, rfl, rfl⟩
    | refused => exact .inl ⟨_, false, rfl, rfl⟩

theorem of_subscribe (h : Does s (.subscribe l) x calls x') : ∃ w, x' = (⟨some l⟩, w) := by
  cases h
  exact ⟨_, rfl⟩

end Does

theorem does_of_cons (run : (machine s).Run x (e :: t) x') : ∃ op calls x₁,
    e = ⟨x, op, (), calls, x₁⟩ ∧ Does s op x calls x₁ ∧ (machine s).Run x₁ t x' := by
  obtain ⟨-, same, later⟩ := run.uncons
  rw [same] at later
  exact ⟨_, _, _, same, does s e.move x, later⟩

theorem mem_subscribed_cons :
    l ∈ subscribed (e :: t) ↔ e.move.listener? = some l ∨ l ∈ subscribed t := by
  simp [subscribed]

section Calls

variable [DecidableEq η]

def callsOn (l : η) (t : List (Entry κ σ η ω)) : List (Activity κ σ η) :=
  (t.flatMap (·.calls)).filter fun call => call.listener? = some l

theorem callsOn_append (l : η) (t t' : List (Entry κ σ η ω)) :
    callsOn l (t ++ t') = callsOn l t ++ callsOn l t' := by
  simp [callsOn]

theorem callsOn_cons (l : η) (e : Entry κ σ η ω) (t : List (Entry κ σ η ω)) :
    callsOn l (e :: t) = callsOn l [e] ++ callsOn l t :=
  callsOn_append l [e] t

theorem Does.callsOn_eq_calls (h : Does s op x calls x') (subscribed : x.1.subscriber = some l) :
    callsOn l [⟨x, op, (), calls, x'⟩] = calls := by
  simp only [callsOn, List.flatMap_singleton, List.filter_eq_self]
  intro call hc
  simpa [h.listener_of_mem hc] using subscribed

theorem Does.callsOn_eq_nil (h : Does s op x calls x') (other : x.1.subscriber ≠ some l) :
    callsOn l [⟨x, op, (), calls, x'⟩] = [] := by
  simp only [callsOn, List.flatMap_singleton, List.filter_eq_nil_iff]
  intro call hc
  simpa [h.listener_of_mem hc] using other

theorem callsOn_eq_nil (run : (machine s).Run x t x') (other : x.1.subscriber ≠ some l)
    (unasked : l ∉ subscribed t) : callsOn l t = [] := by
  induction t generalizing x with
  | nil => rfl
  | cons e t ih =>
    obtain ⟨op, calls, x₁, rfl, step, later⟩ := does_of_cons run
    rw [mem_subscribed_cons, not_or] at unasked
    have still : x₁.1.subscriber ≠ some l := by
      intro hl
      rcases step.subscriber_iff.1 hl with rfl | ⟨before, -⟩
      · exact unasked.1 rfl
      · exact other before
    rw [callsOn_cons, step.callsOn_eq_nil other, ih later still unasked.2, List.append_nil]

theorem stretch_of_run (run : (machine s).Run (⟨some l⟩, w) t x') (unasked : l ∉ subscribed t) :
    Stretch l t (callsOn l t) := by
  induction t generalizing w with
  | nil => exact .standing
  | cons e t ih =>
    obtain ⟨op, calls, x₁, rfl, step, later⟩ := does_of_cons run
    rw [mem_subscribed_cons, not_or] at unasked
    rw [callsOn_cons, step.callsOn_eq_calls rfl]
    cases step with
    | told h =>
      cases h with
      | heard => exact .heard rfl (ih later unasked.2)
      | refused =>
        rw [callsOn_eq_nil later nofun unasked.2]
        exact .refused rfl
    | subscribed =>
      rw [callsOn_eq_nil later unasked.1 unasked.2]
      exact .parted nofun
    | unsubscribed =>
      rw [callsOn_eq_nil later nofun unasked.2]
      exact .parted nofun

end Calls

theorem Standing.concat_iff : Standing first (t ++ [e]) l ↔
    e.move = .subscribe l ∨ Standing first t l ∧ ¬ Ends e := by
  unfold Standing
  rw [Since.concat_iff]
  constructor
  · rintro ((joins | ⟨since, goes⟩) | ⟨rfl, none⟩)
    · exact .inl joins
    · exact .inr ⟨.inl since, goes⟩
    · exact .inr ⟨.inr ⟨rfl, fun f hf => none f (by simp [hf])⟩, none e (by simp)⟩
  · rintro (joins | ⟨since | ⟨rfl, none⟩, goes⟩)
    · exact .inl (.inl joins)
    · exact .inl (.inr ⟨since, goes⟩)
    · refine .inr ⟨rfl, fun f hf => ?_⟩
      rcases List.mem_append.1 hf with hf | hf
      · exact none f hf
      · rwa [List.mem_singleton.1 hf]

theorem subscriber_iff (run : (machine s).Run (⟨first⟩, w) t x) :
    x.1.subscriber = some l ↔ Standing first t l := by
  induction run with
  | start => simp [Standing]
  | next op _ _ ih => rw [Standing.concat_iff, ← ih, (does s op _).subscriber_iff]; rfl

theorem Standing.mem (h : Standing first t l) : l ∈ first.toList ++ subscribed t := by
  rcases h with since | ⟨rfl, -⟩
  · obtain ⟨e, he, joins⟩ := since.mem
    exact List.mem_append_right _ (List.mem_filterMap.2 ⟨e, he, congrArg Operation.listener? joins⟩)
  · simp

theorem Joins.of_mem (h : l ∈ first.toList ++ subscribed t) : ∃ after, Joins first t l after := by
  rcases List.mem_append.1 h with initial | later
  · exact ⟨t, .inl ⟨Option.mem_toList.1 initial, rfl⟩⟩
  · obtain ⟨e, he, joins⟩ := List.mem_filterMap.1 later
    obtain ⟨before, after, rfl⟩ := List.append_of_mem he
    refine ⟨after, .inr ⟨before, e, rfl, ?_⟩⟩
    cases hm : e.move <;> simp_all [Operation.listener?]

theorem stretch_of_joins [DecidableEq η] (run : (machine s).Run (⟨first⟩, w) t x)
    (owned : (first.toList ++ subscribed t).Nodup) (joins : Joins first t l after) :
    Stretch l after (callsOn l t) := by
  rcases joins with ⟨rfl, rfl⟩ | ⟨before, e, rfl, hm⟩
  · exact stretch_of_run run (List.nodup_cons.1 owned).1
  · obtain ⟨earlier, -, -, -⟩ := run.split
    have onward := run.onward
    have parts :
        subscribed (before ++ e :: after) = subscribed before ++ l :: subscribed after := by
      simp [subscribed, hm, Operation.listener?]
    rw [parts, ← List.append_assoc, List.nodup_middle, List.nodup_cons, List.mem_append,
      not_or] at owned
    obtain ⟨⟨unknown, unasked⟩, -⟩ := owned
    have other : e.before.1.subscriber ≠ some l := fun hl =>
      unknown ((subscriber_iff earlier).1 hl).mem
    have silent : callsOn l before = [] := by
      refine callsOn_eq_nil earlier ?_ fun asked => unknown (List.mem_append_right _ asked)
      rintro rfl
      exact unknown (by simp)
    obtain ⟨op, calls, x₁, he, step, later⟩ := does_of_cons onward
    rw [he] at hm
    obtain rfl : op = .subscribe l := hm
    rw [callsOn_append, silent, callsOn_cons, he, step.callsOn_eq_nil other]
    obtain ⟨w, rfl⟩ := step.of_subscribe
    exact stretch_of_run later unasked

/-- A broadcast calls the listener whose subscription has not ended, and nobody else; if the event
is refused, the listener is let go. Every listener hears one stretch of the events, from its
subscription on, which ends when it refuses one, is replaced or is unsubscribed. After it has been
let go, which happens once at most, it gets no call. -/
theorem each_hears_one_stretch [DecidableEq η] {s : Surroundings κ σ η ω} {first : Option η}
    {w : ω} {t : List (Entry κ σ η ω)} {x : Notifier η × ω}
    (run : (machine s).Run (⟨first⟩, w) t x) (owned : (first.toList ++ subscribed t).Nodup) :
    (∀ before e after event, t = before ++ e :: after → e.move = .broadcast event →
      (∃ l heard, Standing first before l ∧
        e.calls = .delivered l event heard :: if heard then [] else [.released l]) ∨
      (∀ l, ¬ Standing first before l) ∧ e.calls = []) ∧
    (∀ l after, Joins first t l after → Stretch l after (callsOn l t)) ∧
    ∀ l earlier later, callsOn l t = earlier ++ .released l :: later → later = [] := by
  refine ⟨?_, fun l after => stretch_of_joins run owned, fun l earlier later cut => ?_⟩
  · rintro before e after event rfl hm
    obtain ⟨earlier, -, -, -⟩ := run.split
    have standing (l : η) : e.before.1.subscriber = some l ↔ Standing first before l :=
      subscriber_iff earlier
    obtain ⟨op, calls, x₁, he, step, -⟩ := does_of_cons run.onward
    rw [he] at hm ⊢
    obtain rfl : op = .broadcast event := hm
    rcases step.of_broadcast with ⟨l, heard, hl, called⟩ | ⟨none, silent⟩
    · exact .inl ⟨l, heard, (standing l).1 hl, called⟩
    · refine .inr ⟨fun l stands => ?_, silent⟩
      rw [← standing l, none] at stands
      cases stands
  · by_cases known : l ∈ first.toList ++ subscribed t
    · obtain ⟨after, joins⟩ := Joins.of_mem known
      exact (stretch_of_joins run owned joins).released_last cut
    · rw [List.mem_append, not_or] at known
      rw [callsOn_eq_nil run (fun initial => known.1 (Option.mem_toList.2 initial)) known.2] at cut
      simp at cut

open Lockstep in
theorem second_of_three_refuses :
    ∃ t x, (machine Script.surroundings).Run (⟨some ⟨1, none⟩⟩, {}) t x ∧
      t.map (·.move) =
        [.broadcast .coreCreated, .subscribe ⟨2, some 1⟩, .broadcast (.outputResized ⟨8, 6⟩),
          .broadcast (.outputResized ⟨9, 6⟩), .broadcast (.outputResized ⟨9, 7⟩),
          .subscribe ⟨3, none⟩, .broadcast (.pumpStopped .requested), .unsubscribe] ∧
      (([⟨1, none⟩] : List Subscriber) ++ subscribed t).Nodup ∧
      Stretch ⟨2, some 1⟩ (t.drop 2)
        [.delivered ⟨2, some 1⟩ (.outputResized ⟨8, 6⟩) true,
          .delivered ⟨2, some 1⟩ (.outputResized ⟨9, 6⟩) false, .released ⟨2, some 1⟩] := by
  obtain ⟨t, x, e, ran, moves, cut, joins, asked, called⟩ :
      ∃ t x e, (machine Script.surroundings).run?
          [.broadcast .coreCreated, .subscribe ⟨2, some 1⟩, .broadcast (.outputResized ⟨8, 6⟩),
            .broadcast (.outputResized ⟨9, 6⟩), .broadcast (.outputResized ⟨9, 7⟩),
            .subscribe ⟨3, none⟩, .broadcast (.pumpStopped .requested), .unsubscribe]
          (⟨some ⟨1, none⟩⟩, {}) = some (t, x) ∧
        t.map (·.move) =
          [.broadcast .coreCreated, .subscribe ⟨2, some 1⟩, .broadcast (.outputResized ⟨8, 6⟩),
            .broadcast (.outputResized ⟨9, 6⟩), .broadcast (.outputResized ⟨9, 7⟩),
            .subscribe ⟨3, none⟩, .broadcast (.pumpStopped .requested), .unsubscribe] ∧
        t = t.take 1 ++ e :: t.drop 2 ∧ e.move = .subscribe ⟨2, some 1⟩ ∧
        subscribed t = [⟨2, some 1⟩, ⟨3, none⟩] ∧
        callsOn ⟨2, some 1⟩ t =
          [.delivered ⟨2, some 1⟩ (.outputResized ⟨8, 6⟩) true,
            .delivered ⟨2, some 1⟩ (.outputResized ⟨9, 6⟩) false, .released ⟨2, some 1⟩] :=
    ⟨_, _, _, rfl, rfl, rfl, rfl, rfl, rfl⟩
  have run := Machine.Run.of_run? ran
  have owned : (([⟨1, none⟩] : List Subscriber) ++ subscribed t).Nodup := by
    rw [asked]
    decide
  obtain ⟨-, stretches, -⟩ := each_hears_one_stretch run owned
  have stretch := stretches ⟨2, some 1⟩ (t.drop 2) (.inr ⟨_, e, cut, joins⟩)
  rw [called] at stretch
  exact ⟨t, x, run, moves, owned, stretch⟩

end Notifier

end EmulatorHost
