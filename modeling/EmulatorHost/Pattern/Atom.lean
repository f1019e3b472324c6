import EmulatorHost.Pattern.Mode

/-! A pattern matches text, so no part may match a byte that is not a character, and there are no
tables of letters for the parts that would need them. -/

namespace EmulatorHost.Pattern

inductive Atom where
  | literal (c : Char) (byte : Bool)
  | anyCharacter
  | anchor
  | wordEdge
  | shorthand (negated : Bool)
  deriving DecidableEq, Repr

namespace Atom

def isAscii (c : Char) : Bool := c.toNat < 0x80

def isAllowed (m : Mode) : Atom → Bool
  | .literal c byte => if m.unicode then !m.caseless else !byte || isAscii c
  | .anyCharacter => m.unicode
  | .anchor => true
  | .wordEdge => !m.unicode
  | .shorthand negated => !m.unicode && !negated

def isMember (m : Mode) : Atom → Bool
  | .literal c _ => if m.unicode then !m.caseless else isAscii c
  | .shorthand negated => !m.unicode && !negated
  | _ => false

def hexDigit? (c : Char) : Option Nat :=
  if c.isDigit then some (c.toNat - '0'.toNat)
  else if 'a' ≤ c ∧ c ≤ 'f' then some (c.toNat - 'a'.toNat + 10)
  else if 'A' ≤ c ∧ c ≤ 'F' then some (c.toNat - 'A'.toNat + 10)
  else none

def readHex? (m : Mode) (value : Nat) : Nat → List Char → Option (Nat × List Char)
  | 0, cs => some (value, cs)
  | digits + 1, cs =>
    match m.skip cs with
    | [] => none
    | c :: rest => (hexDigit? c).bind fun d => readHex? m (value * 16 + d) digits rest

def readCodePoint? (m : Mode) (digits : Nat) (cs : List Char) : Option (Atom × List Char) :=
  (readHex? m 0 digits cs).bind fun (value, rest) =>
    if value.isValidChar then some (.literal (Char.ofNat value) (digits = 2), rest) else none

def controls : List (Char × Char) :=
  [('a', '\x07'), ('f', '\x0C'), ('t', '\t'), ('n', '\n'), ('r', '\r'), ('v', '\x0B')]

def ofEscape? (c : Char) : Option Atom :=
  if c = 'd' ∨ c = 's' ∨ c = 'w' then some (.shorthand false)
  else if c = 'D' ∨ c = 'S' ∨ c = 'W' then some (.shorthand true)
  else if c = 'A' ∨ c = 'z' then some .anchor
  else if c = 'b' ∨ c = 'B' ∨ c = '<' ∨ c = '>' then some .wordEdge
  else if isAscii c ∧ !c.isAlphanum then some (.literal c false)
  else (controls.lookup c).map fun control => .literal control false

def readEscape? (m : Mode) : List Char → Option (Atom × List Char)
  | [] => none
  | 'x' :: rest => readCodePoint? m 2 rest
  | 'u' :: rest => readCodePoint? m 4 rest
  | 'U' :: rest => readCodePoint? m 8 rest
  | c :: rest => (ofEscape? c).map fun a => (a, rest)

def readPlain? (m : Mode) : List Char → Option (Atom × List Char)
  | [] => none
  | '\\' :: rest => readEscape? m rest
  | c :: rest => some (.literal c false, rest)

def read? (m : Mode) : List Char → Option (Atom × List Char)
  | '.' :: rest => some (.anyCharacter, rest)
  | '^' :: rest | '$' :: rest => some (.anchor, rest)
  | cs => readPlain? m cs

end Atom

end EmulatorHost.Pattern
