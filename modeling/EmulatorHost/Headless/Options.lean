import EmulatorHost.Pacing
import EmulatorHost.Path
import EmulatorHost.Size

namespace EmulatorHost.Headless

structure Options where
  roms : List Path := []
  frames : UInt64 := 600
  rate : Option UInt32 := none
  size : Size := ⟨400, 480⟩
  resizes : List Size := []
  cancelPick : Bool := false
  failEvery : Option UInt64 := none
  /-- None of them stops a run with limit zero. -/
  failureLimit : UInt32 := defaultFailureLimit
  log : String := "info"
  logFile : Option Path := none
  deriving DecidableEq, Repr

inductive OptionName where
  | rom
  | frames
  | rate
  | size
  | resize
  | cancelPick
  | failEvery
  | failureLimit
  | log
  | logFile
  | help
  | version
  deriving DecidableEq, Repr

namespace OptionName

def all : List OptionName :=
  [.rom, .frames, .rate, .size, .resize, .cancelPick, .failEvery, .failureLimit, .log, .logFile,
    .help, .version]

def word : OptionName → String
  | .rom => "rom"
  | .frames => "frames"
  | .rate => "fps"
  | .size => "size"
  | .resize => "resize"
  | .cancelPick => "cancel-pick"
  | .failEvery => "fail-render-every"
  | .failureLimit => "max-render-failures"
  | .log => "log"
  | .logFile => "log-file"
  | .help => "help"
  | .version => "version"

def takesValue : OptionName → Bool
  | .cancelPick | .help | .version => false
  | _ => true

def repeats : OptionName → Bool
  | .rom | .resize => true
  | _ => false

end OptionName

inductive Setting where
  | rom (path : Path)
  | frames (n : UInt64)
  | rate (n : UInt32)
  | size (size : Size)
  | resize (size : Size)
  | cancelPick
  | failEvery (n : UInt64)
  | failureLimit (n : UInt32)
  | log (filter : String)
  | logFile (path : Path)
  deriving DecidableEq, Repr

def Setting.name : Setting → OptionName
  | .rom _ => .rom
  | .frames _ => .frames
  | .rate _ => .rate
  | .size _ => .size
  | .resize _ => .resize
  | .cancelPick => .cancelPick
  | .failEvery _ => .failEvery
  | .failureLimit _ => .failureLimit
  | .log _ => .log
  | .logFile _ => .logFile

namespace Options

def apply (o : Options) : Setting → Options
  | .rom path => { o with roms := o.roms ++ [path] }
  | .frames n => { o with frames := n }
  | .rate n => { o with rate := some n }
  | .size size => { o with size }
  | .resize size => { o with resizes := o.resizes ++ [size] }
  | .cancelPick => { o with cancelPick := true }
  | .failEvery n => { o with failEvery := some n }
  | .failureLimit n => { o with failureLimit := n }
  | .log filter => { o with log := filter }
  | .logFile path => { o with logFile := some path }

def ofSettings (settings : List Setting) : Options := settings.foldl apply {}

def config (o : Options) : Config where
  pacing := (o.rate.map Pacing.ofRate).getD .unbounded
  failureLimit := if o.failureLimit = 0 then none else some o.failureLimit

end Options

end EmulatorHost.Headless
