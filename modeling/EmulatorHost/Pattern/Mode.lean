import EmulatorHost.Text.Blank

/-! A switch that is turned inside a group of a pattern holds up to the end of that group. -/

namespace EmulatorHost.Pattern

structure Mode where
  caseless : Bool := false
  unicode : Bool := true
  spaced : Bool := false
  deriving DecidableEq, Repr

def dropComments (inComment : Bool) : List Char → List Char
  | [] => []
  | c :: rest =>
    if inComment then dropComments (c ≠ '\n') rest
    else if c = '#' then dropComments true rest
    else if Blank.isBlank c then dropComments false rest
    else c :: rest

namespace Mode

def skip (m : Mode) (cs : List Char) : List Char :=
  if m.spaced then dropComments false cs else cs

/-- What a dash in a bracket is followed by. Of a comment only the sign and blanks are passed. -/
def peek? (m : Mode) (cs : List Char) : Option Char :=
  if m.spaced then
    match cs.dropWhile Blank.isBlank with
    | '#' :: rest => (rest.dropWhile Blank.isBlank).head?
    | rest => rest.head?
  else cs.head?

def switchLetters : List Char := ['i', 'm', 's', 'U', 'u', 'R', 'x']

def turn (m : Mode) (letter : Char) (value : Bool) : Mode :=
  match letter with
  | 'i' => { m with caseless := value }
  | 'u' => { m with unicode := value }
  | 'x' => { m with spaced := value }
  | _ => m

/-- Reads the switches of a group up to the `:` or `)` after them, which is given back.
Each letter comes once; those behind the only dash are turned off, and there has to be one. -/
def readSwitches? (m : Mode) (seen : List Char) : List Char → Option (Mode × Char × List Char)
  | [] => none
  | c :: rest =>
    if c = ':' ∨ c = ')' then
      if seen.head? = some '-' ∨ (c = ')' ∧ seen = []) then none else some (m, c, rest)
    else if seen.contains c then none
    else if c = '-' then readSwitches? m (c :: seen) rest
    else if switchLetters.contains c then
      readSwitches? (m.turn c (!seen.contains '-')) (c :: seen) rest
    else none

end Mode

end EmulatorHost.Pattern
