import EmulatorHost.Headless.Command

namespace EmulatorHost.Headless

def readFile (path : Path) : IO (Except String ByteArray) := do
  match path.text? with
  | none => return .error "file name is not text"
  | some name =>
    try return .ok (← IO.FS.readBinFile name)
    catch e => return .error (toString e)

def readRoms (o : Options) : IO (List (Path × Except String ByteArray)) :=
  o.roms.mapM fun path => return (path, ← readFile path)

def finish (outcome : Outcome) : IO UInt32 := do
  outcome.output.forM IO.println
  outcome.errors.forM IO.eprintln
  return outcome.exitCode.toUInt32

def openLogFile (o : Options) : IO (Except Outcome Unit) := do
  match o.logFile with
  | none => return .ok ()
  | some path =>
    match path.fileName?, path.text? with
    | none, _ => return .error Command.namelessLogFile
    | _, none => return .error Command.lostLogFile
    | some _, some name =>
      try
        if let some directory := path.directory.text? then
          unless directory.isEmpty do IO.FS.createDirAll directory
        IO.FS.writeFile name ""
        return .ok ()
      catch _ => return .error Command.lostLogFile

def elapsedSince (start : Nat) : IO Elapsed := do
  let nanoseconds := (← IO.monoNanosNow) - start
  return ⟨(nanoseconds / 1000000000).toUInt64, (nanoseconds % 1000000000).toUInt32⟩

def runOptions (o : Options) : IO UInt32 := do
  match ← openLogFile o with
  | .error outcome => finish outcome
  | .ok _ =>
    let roms ← readRoms o
    let start ← IO.monoNanosNow
    match Command.Ending.ofRun (App.run (fun path => (roms.lookup path).getD (.error "")) o) with
    | .early outcome => finish outcome
    | .reported r => finish ⟨0, (r.summary (← elapsedSince start)).lines, []⟩
    | .endless => finish (.failure "the run does not end")

end EmulatorHost.Headless

open EmulatorHost EmulatorHost.Headless in
def main (arguments : List String) : IO UInt32 := do
  match Command.check (arguments.map CommandLine.bytes) with
  | .error outcome => finish outcome
  | .ok o => runOptions o
