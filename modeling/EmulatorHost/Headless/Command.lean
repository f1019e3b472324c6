import EmulatorHost.FileTree
import EmulatorHost.Headless.CommandLine
import EmulatorHost.Headless.LogFilter
import EmulatorHost.Headless.Elapsed
import EmulatorHost.Headless.Rota

namespace EmulatorHost.Headless

structure Outcome where
  exitCode : UInt8
  output : List String := []
  errors : List String := []
  deriving DecidableEq, Repr

namespace Outcome

def failure (message : String) : Outcome := ⟨1, [], ["Error: " ++ message]⟩

end Outcome

def OptionName.usage : OptionName → String × String
  | .rom => ("    --rom <ROMS>", "ROM files to pick, in order")
  | .frames =>
    ("    --frames <FRAMES>", "Stop after this many rendered frames [default: 600]")
  | .rate =>
    ("    --fps <FPS>", "Target frame rate; omit to render as fast as the core allows")
  | .size => ("    --size <SIZE>", "Initial drawable size [default: 400x480]")
  | .resize =>
    ("    --resize <RESIZES>", "Drawable sizes applied while running, spread evenly over the run")
  | .cancelPick =>
    ("    --cancel-pick", "Also dismiss the picker once without choosing a file")
  | .failEvery =>
    ("    --fail-render-every <FAIL_RENDER_EVERY>", "Make the software core fail every Nth frame")
  | .failureLimit =>
    ("    --max-render-failures <MAX_RENDER_FAILURES>",
      "Stop after this many failed frames in a row (0 = never) [default: 120]")
  | .log =>
    ("    --log <LOG>",
      "tracing filter directive, e.g. `framepump_runtime=debug` [default: info]")
  | .logFile => ("    --log-file <LOG_FILE>", "Write logs to this file instead of stderr")
  | .help => ("-h, --help", "Print help")
  | .version => ("-V, --version", "Print version")

def helpText : List String :=
  ["Drive the frame pump against a built-in software core, simulating a host view that " ++
      "resizes and a user picking ROM files",
    "", "Usage: framepump_headless [OPTIONS]", "", "Options:"] ++
    OptionName.all.flatMap fun o => ["  " ++ o.usage.1, "          " ++ o.usage.2]

def versionText : String := "framepump-headless 0.1.0"

def UsageError.outcome : UsageError → Outcome
  | .displayHelp => ⟨0, helpText, []⟩
  | .displayVersion => ⟨0, [versionText], []⟩
  | .unknownArgument => ⟨2, [], ["error: unexpected argument found"]⟩
  | .invalidValue => ⟨2, [], ["error: a value is required but none was supplied"]⟩
  | .valueValidation problem => ⟨2, [], ["error: invalid value: " ++ problem]⟩
  | .argumentConflict => ⟨2, [], ["error: the argument cannot be used multiple times"]⟩
  | .tooManyValues => ⟨2, [], ["error: unexpected value found"]⟩
  | .invalidUtf8 => ⟨2, [], ["error: invalid UTF-8 was detected in one or more arguments"]⟩

def hexText (n : UInt32) : String :=
  let digits := (Nat.toDigits 16 n.toNat).map Char.toUpper
  String.ofList (List.replicate (8 - digits.length) '0' ++ digits)

structure Summary where
  frames : String
  time : String
  rate : String
  failures : String
  roms : String
  resizes : String
  size : String
  checksum : String
  stop : Option String

def Report.summary (r : Report) (t : Elapsed) : Summary where
  frames := toString r.frames.toNat
  time := t.text
  rate := Decimal.oneDecimal (framesPerSecond r.frames t)
  failures := toString r.renderFailures.toNat
  roms := toString r.romsLoaded
  resizes := toString r.resizesPushed
  size := r.finalSize.text
  checksum := hexText r.checksum
  stop := r.stopReason.map StopReason.text

def Summary.rendered (s : Summary) : String := "Rendered " ++ s.frames ++ " frame(s)"

def Summary.lines (s : Summary) : List String :=
  [s.rendered ++ " in " ++ s.time ++ " (" ++ s.rate ++ " fps)",
    "Render failures: " ++ s.failures ++ ", ROMs loaded: " ++ s.roms ++ ", resizes pushed: " ++
      s.resizes,
    "Final drawable " ++ s.size ++ ", frame checksum " ++ s.checksum] ++
    (s.stop.map fun reason => "Pump stopped: " ++ reason).toList

/-- A part of a filter that cannot be cut out takes the program down. -/
def LogFilter.Fault.outcome : LogFilter.Fault → Outcome
  | .malformed => .failure "invalid --log filter"
  | .brokenCharacter => ⟨101, [], ["--log filter cut inside a character"]⟩

namespace Command

def check (arguments : List Argument) : Except Outcome Options :=
  match CommandLine.parse arguments with
  | .error e => .error e.outcome
  | .ok o =>
    match LogFilter.checkFilter o.log with
    | .error fault => .error fault.outcome
    | .ok _ => .ok o

def namelessLogFile : Outcome := .failure "--log-file must name a file"

def lostLogFile : Outcome :=
  ⟨101, [], ["initializing rolling file appender failed"]⟩

def openLog (base : List Name) (o : Options) (files : FileTree) : Except Outcome Unit × FileTree :=
  match o.logFile with
  | none => (.ok (), files)
  | some path =>
    let files := files.remove base path
    match path.fileName? with
    | none => (.error namelessLogFile, files)
    | some name =>
      match files.openFile? base path.directory name with
      | none => (.error lostLogFile, files)
      | some files => (.ok (), files)

inductive Ending where
  | early (outcome : Outcome)
  | reported (report : Report)
  | endless

def Ending.ofRun : Option (Except RunError Report) → Ending
  | none => .endless
  | some (.error e) => .early (.failure e.message)
  | some (.ok r) => .reported r

def reader (base : List Name) (files : FileTree) (path : Path) : Except String ByteArray :=
  (files.read base path).mapError FileTree.Problem.message

def run (base : List Name) (arguments : List Argument) (files : FileTree) : Ending × FileTree :=
  match check arguments with
  | .error outcome => (.early outcome, files)
  | .ok o =>
    match openLog base o files with
    | (.error outcome, files) => (.early outcome, files)
    | (.ok _, files) => (.ofRun (App.run (reader base files) o), files)

end Command

end EmulatorHost.Headless
