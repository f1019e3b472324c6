import EmulatorHost.Pattern.Atom
import EmulatorHost.Pattern.Depth

namespace EmulatorHost.Pattern.Bracket

def setNames : List String :=
  ["alnum", "alpha", "ascii", "blank", "cntrl", "digit", "graph", "lower", "print", "punct",
    "space", "upper", "word", "xdigit"]

def readNamed? : List Char → Option (Bool × List Char)
  | ':' :: '^' :: rest => (readName? rest).map fun rest => (true, rest)
  | ':' :: rest => (readName? rest).map fun rest => (false, rest)
  | _ => none
where
  readName? (cs : List Char) : Option (List Char) :=
    match cs.dropWhile (· ≠ ':') with
    | ':' :: ']' :: rest =>
      if setNames.contains (String.ofList (cs.takeWhile (· ≠ ':'))) then some rest else none
    | _ => none

/-- Letters of both cases belong to a caseless set, and a negated one has all other characters. -/
def allowsNamed (m : Mode) (negated : Bool) : Bool := if m.unicode then !m.caseless else !negated

structure Level where
  fresh : Bool := true
  /-- The depth of what stands before the last operator. -/
  left : Option Nat := none
  members : List Nat := []
  deriving DecidableEq, Repr

def Level.add (depth : Nat) (l : Level) : Level :=
  { l with fresh := false, members := depth :: l.members }

def Level.addDash (l : Level) : Level := { l with members := 0 :: l.members }

def Level.depth (l : Level) : Nat :=
  match l.left with
  | none => Depth.joined l.members
  | some left => 1 + max left (Depth.joined l.members)

def Level.operate (l : Level) : Level := ⟨false, some l.depth, []⟩

inductive Token where
  | dash
  | member
  | operator
  | opened
  | closed
  deriving DecidableEq, Repr

def readRange? (m : Mode) (cs : List Char) : Option (List Char) :=
  match Atom.readPlain? m cs with
  | none => none
  | some (first, rest) =>
    match m.skip rest with
    | '-' :: after =>
      if m.peek? after = some ']' ∨ m.peek? after = some '-' then
        if first.isMember m then some ('-' :: after) else none
      else match first, Atom.readPlain? m (m.skip after) with
        | .literal low _, some (.literal high byte, rest) =>
          if first.isMember m ∧ (Atom.literal high byte).isMember m ∧ low ≤ high then some rest
          else none
        | _, _ => none
    | rest => if first.isMember m then some rest else none

def operators : List Char := ['&', '-', '~']

def readOpening? (m : Mode) (cs : List Char) : Option (List Char) :=
  match m.skip cs with
  | '^' :: rest => if m.unicode then some rest else none
  | rest => some rest

def Level.read? (m : Mode) (l : Level) : List Char → Option (Token × List Char)
  | [] => none
  | c :: rest =>
    if l.fresh ∧ c = '-' then
      if (Atom.literal c false).isMember m then some (.dash, rest) else none
    else if l.fresh ∧ l.members = [] ∧ c = ']' then
      if (Atom.literal c false).isMember m then some (.member, rest) else none
    else if c = '[' then
      match readNamed? rest with
      | some (negated, rest) => if allowsNamed m negated then some (.member, rest) else none
      | none => (readOpening? m rest).map fun rest => (.opened, rest)
    else if c = ']' then some (.closed, rest)
    else if operators.contains c ∧ rest.head? = some c then some (.operator, rest.tail)
    else (readRange? m (c :: rest)).map fun rest => (.member, rest)

def readLevels? (m : Mode) (l : Level) (outer : List Level) :
    Nat → List Char → Option (Nat × List Char)
  | 0, _ => none
  | fuel + 1, cs =>
    match l.read? m (m.skip cs) with
    | none => none
    | some (.dash, rest) => readLevels? m l.addDash outer fuel rest
    | some (.member, rest) => readLevels? m (l.add 0) outer fuel rest
    | some (.operator, rest) => readLevels? m l.operate outer fuel rest
    | some (.opened, rest) => readLevels? m {} (l :: outer) fuel rest
    | some (.closed, rest) =>
      match outer with
      | [] => some (1 + l.depth, rest)
      | next :: outer => readLevels? m (next.add (1 + l.depth)) outer fuel rest

def read? (m : Mode) (cs : List Char) : Option (Nat × List Char) :=
  (readOpening? m cs).bind fun rest => readLevels? m {} [] (rest.length + 1) rest

end EmulatorHost.Pattern.Bracket
