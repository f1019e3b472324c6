import EmulatorHost.Text.Alphanumeric
import EmulatorHost.Pattern.Bracket

/-! Which patterns are well formed: every group is closed, what is repeated is there, every
part may stand where it does, names of groups differ, and nothing is nested too deeply. -/

namespace EmulatorHost.Pattern

structure Part where
  depth : Nat := 0
  repeatable : Bool := true
  deriving DecidableEq, Repr

structure Level where
  branches : List Nat := []
  parts : List Part := []
  deriving DecidableEq, Repr

namespace Level

def add (part : Part) (l : Level) : Level := { l with parts := part :: l.parts }

def branchDepth (l : Level) : Nat := Depth.joined (l.parts.map Part.depth)

def branch (l : Level) : Level := ⟨l.branchDepth :: l.branches, []⟩

def depth (l : Level) : Nat := Depth.joined (l.branchDepth :: l.branches)

def repeat? (l : Level) : Option Level :=
  match l.parts with
  | part :: parts =>
    if part.repeatable then some { l with parts := ⟨1 + part.depth, true⟩ :: parts } else none
  | [] => none

end Level

structure Reading where
  mode : Mode := {}
  level : Level := {}
  outer : List (Mode × Level) := []
  names : List (List Char) := []
  deriving DecidableEq, Repr

namespace Reading

def add (part : Part) (r : Reading) : Reading := { r with level := r.level.add part }

def enter (mode : Mode) (r : Reading) : Reading :=
  { r with mode := mode, level := {}, outer := (r.mode, r.level) :: r.outer }

def leave? (r : Reading) : Option Reading :=
  match r.outer with
  | [] => none
  | (mode, level) :: outer =>
    some { r with mode := mode, level := level.add ⟨1 + r.level.depth, true⟩, outer := outer }

def isName : List Char → Bool
  | [] => false
  | c :: rest =>
    (c = '_' || Alphanumeric.isLetter c) &&
      rest.all fun c => ['_', '.', '[', ']'].contains c || Alphanumeric.isAlphanumeric c

def enterNamed? (r : Reading) (cs : List Char) : Option (Reading × List Char) :=
  let name := cs.takeWhile (· ≠ '>')
  match cs.dropWhile (· ≠ '>') with
  | [] => none
  | _ :: rest =>
    if isName name ∧ name ∉ r.names then
      some ({ r.enter r.mode with names := name :: r.names }, rest)
    else none

def readGroup? (r : Reading) (cs : List Char) : Option (Reading × List Char) :=
  match r.mode.skip cs with
  | '?' :: 'P' :: '<' :: rest | '?' :: '<' :: rest => r.enterNamed? rest
  | '?' :: rest =>
    (r.mode.readSwitches? [] rest).map fun (mode, mark, rest) =>
      (if mark = ':' then r.enter mode else { r.add ⟨0, false⟩ with mode := mode }, rest)
  | rest => some (r.enter r.mode, rest)

def repetitionSigns : List Char := ['?', '*', '+']

def dropMark : List Char → List Char
  | '?' :: rest | rest => rest

/-- Reads the next part. No repetition is counted in braces: a pattern has no brace that
would close them. -/
def step? (r : Reading) : List Char → Option (Reading × List Char)
  | [] => none
  | c :: rest =>
    if c = '(' then r.readGroup? rest
    else if c = ')' then r.leave?.map fun r => (r, rest)
    else if c = '|' then some ({ r with level := r.level.branch }, rest)
    else if c = '[' then
      (Bracket.read? r.mode rest).map fun (depth, rest) => (r.add ⟨depth, true⟩, rest)
    else if repetitionSigns.contains c then
      r.level.repeat?.map fun level => ({ r with level := level }, dropMark rest)
    else if c = '\x7b' then none
    else match Atom.read? r.mode (c :: rest) with
      | none => none
      | some (atom, rest) => if atom.isAllowed r.mode then some (r.add {}, rest) else none

def finish? (r : Reading) : Nat → List Char → Option Nat
  | 0, _ => none
  | fuel + 1, cs =>
    match r.mode.skip cs with
    | [] => if r.outer = [] then some r.level.depth else none
    | cs => (r.step? cs).bind fun (r, rest) => r.finish? fuel rest

end Reading

def isWellFormed (cs : List Char) : Bool :=
  (({} : Reading).finish? (cs.length + 1) cs).any (· ≤ Depth.limit)

end EmulatorHost.Pattern
