import EmulatorHost.Pump.Host
import EmulatorHost.Software.Core

namespace EmulatorHost.Headless

structure Venue (ω : Type) where
  surroundings : Surroundings Unit Unit Unit ω
  collect : ω → List Notification × ω
  checksum : ω → UInt32

def Venue.recorded {ω : Type} (v : Venue ω) : Venue (Recorded Unit Unit Unit ω) where
  surroundings := v.surroundings.recorded
  collect r := ((v.collect r.world).1, { r with world := (v.collect r.world).2 })
  checksum r := v.checksum r.world

structure Stage where
  screen : Screen := {}
  inbox : List Notification := []

namespace Stage

def onScreen {α : Type} (f : Screen → α × Screen) (s : Stage) : α × Stage :=
  ((f s.screen).1, { s with screen := (f s.screen).2 })

def venue (read : Path → Except String ByteArray) (failEvery : Option UInt64) : Venue Stage where
  surroundings :=
    { createCore := onScreen (Screen.create failEvery)
      runFrame := fun core surface => onScreen ((Screen.calls read).runFrame core surface)
      setOutputSize := fun core size => onScreen ((Screen.calls read).setOutputSize core size)
      loadRom := fun core path => onScreen ((Screen.calls read).loadRom core path)
      drop := fun core s => { s with screen := (Screen.calls read).drop core s.screen }
      deliver := fun _ event s => (true, { s with inbox := s.inbox ++ [event] })
      release := fun _ s => s }
  collect s := (s.inbox, { s with inbox := [] })
  checksum s := s.screen.framebuffer.checksum

end Stage

end EmulatorHost.Headless
