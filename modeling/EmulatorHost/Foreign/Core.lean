import EmulatorHost.Core.Calls
import EmulatorHost.Text.Utf8

/-! Cores that live in a host program and are driven through a table of its entry points. Every call
hands the table's user data back unchanged. -/

namespace EmulatorHost.Foreign

inductive EntryPoint where
  | create
  | destroy
  | runFrame
  | setOutputSize
  | loadRom
  deriving DecidableEq, Repr

def EntryPoint.name : EntryPoint → String
  | .create => "create"
  | .destroy => "destroy"
  | .runFrame => "run_frame"
  | .setOutputSize => "set_output_size"
  | .loadRom => "load_rom"

/-- Which entry points a host offers, and the word it wants to see in every call. -/
structure Table where
  userData : UInt64 := 0
  offers : EntryPoint → Bool := fun _ => true

def required : List EntryPoint := [.runFrame, .setOutputSize, .loadRom]

def Table.firstMissing? (t : Table) : Option EntryPoint := required.find? fun e => !t.offers e

/-- Text in memory: it ends before the first zero byte. -/
structure CString where
  memory : List UInt8
  deriving DecidableEq, Repr

namespace CString

def contents (s : CString) : List UInt8 := s.memory.takeWhile (· ≠ 0)

def ofBytes? (bytes : List UInt8) : Option CString :=
  if bytes.contains 0 then none else some ⟨bytes ++ [0]⟩

end CString

/-- A host program with state `ω`: what its entry points do, offered or not. -/
structure HostProgram (ω : Type) where
  create : UInt64 → ω → Bool × ω
  destroy : UInt64 → ω → ω
  runFrame : UInt64 → UInt64 → ω → Bool × ω
  setOutputSize : UInt64 → Size → ω → Bool × ω
  loadRom : UInt64 → CString → ω → Bool × ω

inductive HostCall where
  | create (userData : UInt64)
  | destroy (userData : UInt64)
  | runFrame (userData surface : UInt64)
  | setOutputSize (userData : UInt64) (size : Size)
  | loadRom (userData : UInt64) (path : CString)
  deriving DecidableEq, Repr

structure HostRecord (ω : Type) where
  world : ω
  calls : List (HostCall × Option Bool) := []

namespace HostRecord

variable {ω : Type}

def call (c : HostCall) (f : ω → Bool × ω) (r : HostRecord ω) : Bool × HostRecord ω :=
  ((f r.world).1, ⟨(f r.world).2, r.calls ++ [(c, some (f r.world).1)]⟩)

def note (c : HostCall) (f : ω → ω) (r : HostRecord ω) : HostRecord ω :=
  ⟨f r.world, r.calls ++ [(c, none)]⟩

end HostRecord

def HostProgram.recorded {ω : Type} (h : HostProgram ω) : HostProgram (HostRecord ω) where
  create ud := HostRecord.call (.create ud) (h.create ud)
  destroy ud := HostRecord.note (.destroy ud) (h.destroy ud)
  runFrame ud surface := HostRecord.call (.runFrame ud surface) (h.runFrame ud surface)
  setOutputSize ud size := HostRecord.call (.setOutputSize ud size) (h.setOutputSize ud size)
  loadRom ud path := HostRecord.call (.loadRom ud path) (h.loadRom ud path)

structure Core where
  userData : UInt64
  hasDestroy : Bool
  deriving DecidableEq, Repr

namespace Core

variable {ω : Type}

def refusal : CoreError := .createFailed "host core refused to initialize"

def create (h : HostProgram ω) (t : Table) (w : ω) : Except CoreError Core × ω :=
  match t.firstMissing? with
  | some e => (.error (.unsupported e.name), w)
  | none =>
    let core : Core := ⟨t.userData, t.offers .destroy⟩
    if t.offers .create then
      match h.create t.userData w with
      | (true, w) => (.ok core, w)
      | (false, w) => (.error refusal, w)
    else (.ok core, w)

def outcome (e : CoreError) : Bool → CoreOutcome
  | true => .ok ()
  | false => .error e

def runFrame (h : HostProgram ω) (c : Core) (surface : UInt64) (w : ω) : CoreOutcome × ω :=
  let (answer, w) := h.runFrame c.userData surface w
  (outcome (.renderFailed "host core reported a failed frame") answer, w)

def setOutputSize (h : HostProgram ω) (c : Core) (size : Size) (w : ω) : CoreOutcome × ω :=
  let (answer, w) := h.setOutputSize c.userData size w
  (outcome (.resizeFailed size "host core rejected size") answer, w)

def loadRom (h : HostProgram ω) (c : Core) (path : Path) (w : ω) : CoreOutcome × ω :=
  match Utf8.decode? path.bytes with
  | none => (.error (.loadFailed "path is not valid UTF-8"), w)
  | some _ =>
    match CString.ofBytes? path.bytes with
    | none => (.error (.loadFailed "path contains a NUL byte"), w)
    | some text =>
      let (answer, w) := h.loadRom c.userData text w
      (outcome (.loadFailed "host core rejected ROM") answer, w)

def drop (h : HostProgram ω) (c : Core) (w : ω) : ω :=
  if c.hasDestroy then h.destroy c.userData w else w

def calls (h : HostProgram ω) : Cores Core UInt64 ω where
  runFrame := runFrame h
  setOutputSize := setOutputSize h
  loadRom := loadRom h
  drop := drop h

end Core

end EmulatorHost.Foreign
