import EmulatorHost.Proofs.Machine
import EmulatorHost.Proofs.Software.Core
import EmulatorHost.Proofs.Software.Digest
import Mathlib.Data.List.DropRight

namespace EmulatorHost.Screen

inductive Request where
  | frame
  | resize (size : Size)
  | load (read : Path → Except String ByteArray) (path : Path)

def machine : Machine Screen Request CoreOutcome Empty where
  allows _ _ := true
  perform
    | .frame, s => (s.runFrame.1, [], s.runFrame.2)
    | .resize size, s => ((s.setOutputSize size).1, [], (s.setOutputSize size).2)
    | .load read path, s => ((s.loadRom read path).1, [], (s.loadRom read path).2)

abbrev Entry := Episode Screen Request CoreOutcome Empty

def Request.isFrame : Request → Bool
  | .frame => true
  | _ => false

def Request.size? : Request → Option Size
  | .resize size => some size
  | _ => none

def Request.image? : Request → Option ByteArray
  | .load read path => (read path).toOption
  | _ => none

def romOf? (e : Entry) : Option ByteArray := if e.answer.accepted then e.move.image? else none

def lastSize (t : List Entry) : Size := (t.filterMap (·.move.size?)).getLast?.getD ⟨400, 240⟩

def lastRom? (t : List Entry) : Option ByteArray := (t.filterMap romOf?).getLast?

/-- The first four bytes of the last ROM's digest, least significant first. -/
def lastSeed (t : List Entry) : Nat :=
  match lastRom? t with
  | some rom => Sha1.littleEndian ((Sha1.digest rom).bytes.take 4)
  | none => 0

/-- The frames that were asked for since a ROM last came in, failed ones included. -/
def framesSince (t : List Entry) : Nat :=
  (t.rtakeWhile fun e => (romOf? e).isNone).countP (·.move.isFrame)

section Concat

variable {t : List Entry} {e : Entry}

theorem lastSize_concat :
    lastSize (t ++ [e]) = e.move.size?.getD (lastSize t) := by
  cases size : e.move.size? with
  | none => simp [lastSize, size]
  | some size => simp [lastSize, size]

theorem lastRom?_concat : lastRom? (t ++ [e]) = (romOf? e).or (lastRom? t) := by
  cases rom : romOf? e with
  | none => simp [lastRom?, rom]
  | some rom => simp [lastRom?, rom]

theorem lastSeed_concat (none : romOf? e = none) : lastSeed (t ++ [e]) = lastSeed t := by
  rw [lastSeed, lastRom?_concat, none]
  rfl

theorem lastSeed_concat_rom {rom : ByteArray} (came : romOf? e = some rom) :
    lastSeed (t ++ [e]) = Sha1.littleEndian ((Sha1.digest rom).bytes.take 4) := by
  rw [lastSeed, lastRom?_concat, came]
  rfl

theorem framesSince_concat (none : romOf? e = none) :
    framesSince (t ++ [e]) = framesSince t + if e.move.isFrame then 1 else 0 := by
  rw [framesSince, List.rtakeWhile_concat, if_pos (by rw [none]; rfl), List.countP_append,
    List.countP_singleton]
  rfl

theorem romOf?_frame (frame : e.move = .frame) : romOf? e = none := by
  simp [romOf?, frame, Request.image?]

theorem framesSince_concat_frame (frame : e.move = .frame) :
    framesSince (t ++ [e]) = framesSince t + 1 := by
  rw [framesSince_concat (romOf?_frame frame), frame]
  rfl

theorem framesSince_concat_rom {rom : ByteArray} (came : romOf? e = some rom) :
    framesSince (t ++ [e]) = 0 := by
  rw [framesSince, List.rtakeWhile_concat, if_neg (by rw [came]; exact Bool.false_ne_true)]
  rfl

end Concat

structure Remembers (failEvery : Option UInt64) (t : List Entry) (core : SoftwareCore) : Prop where
  size : core.size = lastSize t
  seed : core.seed.toNat = lastSeed t
  frame : core.frame = UInt64.ofNat (framesSince t)
  period : core.failEvery = failEvery

namespace Remembers

variable {failEvery : Option UInt64} {t : List Entry} {e : Entry} {core : SoftwareCore}
  {s s₀ : Screen}

theorem start : Remembers failEvery [] { failEvery } := ⟨rfl, rfl, rfl, rfl⟩

theorem quiet (h : Remembers failEvery t core) (none : romOf? e = none)
    (undrawn : e.move.isFrame = false) :
    Remembers failEvery (t ++ [e]) { core with size := e.move.size?.getD core.size } where
  size := by rw [lastSize_concat, h.size]
  seed := by rw [lastSeed_concat none, h.seed]
  frame := by rw [framesSince_concat none, undrawn, h.frame]; rfl
  period := h.period

theorem frame_add_one (h : Remembers failEvery t core) :
    core.frame + 1 = UInt64.ofNat (framesSince t + 1) := by
  rw [h.frame, UInt64.ofNat_add]
  rfl

theorem drawn (h : Remembers failEvery t core) (frame : e.move = .frame) :
    Remembers failEvery (t ++ [e]) { core with frame := core.frame + 1 } where
  size := by rw [lastSize_concat, frame, h.size]; rfl
  seed := by rw [lastSeed_concat (romOf?_frame frame), h.seed]
  frame := by rw [framesSince_concat_frame frame, h.frame_add_one]
  period := h.period

theorem rom (h : Remembers failEvery t core) {rom : ByteArray}
    (came : romOf? e = some rom) (unsized : e.move.size? = none) :
    Remembers failEvery (t ++ [e])
      { core with seed := (Sha1.digest rom).firstWord, frame := 0 } where
  size := by rw [lastSize_concat, unsized, h.size]; rfl
  seed := by rw [lastSeed_concat_rom came, Sha1.State.toNat_firstWord]
  frame := by rw [framesSince_concat_rom came]; rfl
  period := h.period

theorem next (h : Remembers failEvery t s.core) (request : Request) :
    Remembers failEvery (t ++ [machine.episode request s])
      (machine.episode request s).after.core := by
  cases request with
  | frame =>
    have drawn : (machine.episode .frame s).after.core = _ := core_runFrame s
    rw [drawn]
    exact h.drawn rfl
  | resize size => exact h.quiet (e := machine.episode (.resize size) s) (ite_self _) rfl
  | load read path =>
    have loads := s.core.loads (read path)
    have answer : (machine.episode (.load read path) s).answer = (s.core.load (read path)).1 := rfl
    have left : (machine.episode (.load read path) s).after.core =
        (s.core.load (read path)).2 := rfl
    rw [left]
    generalize s.core.load (read path) = loaded at loads answer
    cases loads with
    | taken rom =>
      refine h.rom ?_ rfl
      rw [romOf?, answer]
      exact congrArg Except.toOption rom.1
    | refused =>
      refine h.quiet ?_ rfl
      rw [romOf?, answer]
      rfl

theorem of_run (made : s₀.core = { failEvery }) (run : machine.Run s₀ t s) :
    Remembers failEvery t s.core := by
  induction run with
  | start =>
    rw [made]
    exact start
  | next request _ _ ih => exact ih.next request

theorem at_frame {before after : List Entry} (made : s₀.core = { failEvery })
    (run : machine.Run s₀ (before ++ e :: after) s) (frame : e.move = .frame) :
    Remembers failEvery before e.before.core ∧
      e.answer = e.before.runFrame.1 ∧ e.after = e.before.runFrame.2 := by
  obtain ⟨earlier, -, same, -⟩ := run.split
  rw [frame] at same
  exact ⟨of_run made earlier, congrArg Episode.answer same, congrArg Episode.after same⟩

end Remembers

end EmulatorHost.Screen
