import EmulatorHost.Headless.Options
import EmulatorHost.Headless.SizeText
import EmulatorHost.Text.Utf8

/-! An option's value is looked at when the next option begins or the line ends, so a mistake
further on may be found first. -/

namespace EmulatorHost.Headless

abbrev Argument := List UInt8

inductive UsageError where
  | unknownArgument
  | invalidValue
  | valueValidation (problem : String)
  | argumentConflict
  | tooManyValues
  | invalidUtf8
  | displayHelp
  | displayVersion
  deriving DecidableEq, Repr

namespace CommandLine

def bytes (s : String) : Argument := Utf8.encode s.toList

def option? (word : Argument) : Option OptionName :=
  OptionName.all.find? fun o => bytes o.word = word

def asText (value : Argument) : Except UsageError (List Char) :=
  match Utf8.decode? value with
  | none => .error .invalidUtf8
  | some text => .ok text

def asPath (value : Argument) : Except UsageError Path :=
  if value.isEmpty then .error .invalidValue else .ok ⟨value⟩

def asWord64 (value : Argument) : Except UsageError UInt64 := do
  match Numeral.readNat (UInt64.size - 1) (← asText value) with
  | .error problem => .error (.valueValidation problem.message)
  | .ok n => .ok n.toUInt64

/-- A smaller word is read as a signed number of 64 bits first, and its range checked then. -/
def asWord32 (value : Argument) : Except UsageError UInt32 := do
  match Numeral.readInt (UInt64.size / 2 - 1) (← asText value) with
  | .error problem => .error (.valueValidation problem.message)
  | .ok n =>
    if 0 ≤ n ∧ n ≤ 4294967295 then .ok n.toNat.toUInt32
    else .error (.valueValidation (toString n ++ " is not in 0..=4294967295"))

def asSize (value : Argument) : Except UsageError Size := do
  match SizeText.read (← asText value) with
  | .error problem => .error (.valueValidation problem.message)
  | .ok size => .ok size

def setting (value : Argument) : OptionName → Except UsageError Setting
  | .rom => (asPath value).map .rom
  | .frames => (asWord64 value).map .frames
  | .rate => (asWord32 value).map .rate
  | .size => (asSize value).map .size
  | .resize => (asSize value).map .resize
  | .failEvery => (asWord64 value).map .failEvery
  | .failureLimit => (asWord32 value).map .failureLimit
  | .log => (asText value).map fun text => .log (String.ofList text)
  | .logFile => (asPath value).map .logFile
  | .cancelPick => .ok .cancelPick
  | .help => .error .displayHelp
  | .version => .error .displayVersion

inductive Pending where
  | none
  | awaiting (option : OptionName)
  | holding (option : OptionName) (value : Argument)
  deriving DecidableEq, Repr

structure State where
  settings : List Setting := []
  pending : Pending := .none
  /-- After two dashes that stand alone nothing is an option. -/
  trailing : Bool := false
  deriving DecidableEq, Repr

namespace State

def add (option : OptionName) (value : Argument) (s : State) : Except UsageError State :=
  if !option.repeats && s.settings.any fun x => x.name = option then .error .argumentConflict
  else (setting value option).map fun x => { s with settings := s.settings ++ [x] }

def resolve (s : State) : Except UsageError State :=
  match s.pending with
  | .none => .ok s
  | .awaiting _ => .error .invalidValue
  | .holding option value => { s with pending := .none }.add option value

def readLong (word : Argument) (value : Option Argument) (s : State) : Except UsageError State :=
  match option? word with
  | none => .error .unknownArgument
  | some option =>
    match value with
    | none => do
      let s ← s.resolve
      if option.takesValue then .ok { s with pending := .awaiting option } else s.add option []
    | some value =>
      if option.takesValue then s.resolve >>= add option value else .error .tooManyValues

def readShort (letter : UInt8) (s : State) : Except UsageError State :=
  if letter = 0x68 then s.resolve >>= add .help []
  else if letter = 0x56 then s.resolve >>= add .version []
  else .error .unknownArgument

def readPlain (argument : Argument) (s : State) : Except UsageError State :=
  match s.pending with
  | .awaiting option => .ok { s with pending := .holding option argument }
  | _ => .error .unknownArgument

end State

def dash : UInt8 := 0x2D

def equalsSign : UInt8 := 0x3D

def splitValue (argument : Argument) : Argument × Option Argument :=
  match argument.dropWhile (· ≠ equalsSign) with
  | [] => (argument, none)
  | _ :: value => (argument.takeWhile (· ≠ equalsSign), some value)

def State.read (s : State) (argument : Argument) : Except UsageError State :=
  if s.trailing then .error .unknownArgument
  else match argument with
    | [0x2D, 0x2D] => .ok { s with trailing := true }
    | 0x2D :: 0x2D :: rest => s.readLong (splitValue rest).1 (splitValue rest).2
    | 0x2D :: letter :: _ => s.readShort letter
    | _ => s.readPlain argument

def settings (arguments : List Argument) : Except UsageError (List Setting) := do
  let s ← arguments.foldlM State.read {}
  let s ← s.resolve
  return s.settings

def parse (arguments : List Argument) : Except UsageError Options :=
  (settings arguments).map Options.ofSettings

end CommandLine

end EmulatorHost.Headless
