import EmulatorHost.Notification

namespace EmulatorHost

structure Listeners (η ω : Type) where
  /-- Answers whether anyone is still there to hear. -/
  deliver : η → Notification → ω → Bool × ω
  release : η → ω → ω

structure Notifier (η : Type) where
  subscriber : Option η := none
  deriving DecidableEq, Repr

namespace Notifier

variable {η ω : Type}

def letGo (ls : Listeners η ω) (n : Notifier η) (w : ω) : ω :=
  match n.subscriber with
  | none => w
  | some l => ls.release l w

def subscribe (ls : Listeners η ω) (l : η) (n : Notifier η) (w : ω) : Notifier η × ω :=
  (⟨some l⟩, n.letGo ls w)

def unsubscribe (ls : Listeners η ω) (n : Notifier η) (w : ω) : Notifier η × ω :=
  (⟨none⟩, n.letGo ls w)

def broadcast (ls : Listeners η ω) (event : Notification) (n : Notifier η) (w : ω) :
    Notifier η × ω :=
  match n.subscriber with
  | none => (n, w)
  | some l =>
    match ls.deliver l event w with
    | (true, w) => (n, w)
    | (false, w) => (⟨none⟩, ls.release l w)

end Notifier

end EmulatorHost
