import EmulatorHost.Text.Alphanumeric
import EmulatorHost.Text.Blank
import EmulatorHost.Text.Floating
import EmulatorHost.Text.Numeral
import EmulatorHost.Pattern.WellFormed

/-! A directive of a log filter is read without the blanks around it, but its parts are cut out of
the text with those blanks, at the byte positions that they have in the text without them. -/

namespace EmulatorHost.Headless.LogFilter

inductive Fault where
  | malformed
  | brokenCharacter
  deriving DecidableEq, Repr

def dropBytes? : Nat → List Char → Option (List Char)
  | 0, cs => some cs
  | _ + 1, [] => none
  | n + 1, c :: cs => if c.utf8Size ≤ n + 1 then dropBytes? (n + 1 - c.utf8Size) cs else none

def takeBytes? : Nat → List Char → Option (List Char)
  | 0, _ => some []
  | _ + 1, [] => none
  | n + 1, c :: cs =>
    if c.utf8Size ≤ n + 1 then (takeBytes? (n + 1 - c.utf8Size) cs).map (c :: ·) else none

def dropBytes (start : Nat) (text : List Char) : Except Fault (List Char) :=
  match dropBytes? start text with
  | some cs => .ok cs
  | none => .error .brokenCharacter

def cut (text : List Char) (start stop : Nat) : Except Fault (List Char) :=
  match (dropBytes? start text).bind (takeBytes? (stop - start)) with
  | some cs => .ok cs
  | none => .error .brokenCharacter

def isInitial (c : Char) : Bool :=
  c = '-' || c = ':' || c = '_' || Alphanumeric.isAlphanumeric c

def levelWords : List String := ["off", "error", "warn", "info", "debug", "trace"]

/-- A level is a word, in any case, or a number up to five; none at all is one too. -/
def isLevel (text : List Char) : Bool :=
  text.isEmpty || levelWords.contains (String.ofList (text.map Char.toLower)) ||
    match Numeral.readNat (UInt64.size - 1) text with
    | .ok n => n ≤ 5
    | .error _ => false

def isValue (text : List Char) : Bool := Floating.isNumber text || Pattern.isWellFormed text

def value? (field : List Char) : Option (List Char) :=
  match field.dropWhile (· ≠ '=') with
  | [] => none
  | _ :: rest => some (rest.takeWhile (· ≠ '='))

def isField (field : List Char) : Bool := !field.isEmpty && (value? field).all isValue

inductive State where
  | start
  | levelOrTarget
  | span (first : Nat)
  | field (first : Nat)
  | fields
  | target
  | level (first : Nat)
  deriving DecidableEq, Repr

def check (holds : Bool) : Except Fault Unit := if holds then .ok () else .error .malformed

def State.next (text : List Char) (position : Nat) : State → Char → Except Fault State
  | .start, c =>
    if c = '[' then .ok (.span (position + 1))
    else (check (isInitial c)).map fun _ => .levelOrTarget
  | .levelOrTarget, c =>
    if c = '=' then (cut text 0 position).map fun _ => .level (position + 1)
    else if c = '[' then (cut text 0 position).map fun _ => .span (position + 1)
    else .ok .levelOrTarget
  | .span first, c =>
    if c = ']' then (cut text first position).map fun _ => .target
    else if c = '\x7b' then (cut text first position).map fun _ => .field (position + 1)
    else .ok (.span first)
  | .field first, c =>
    if c = '\x7d' then
      (cut text first position).bind fun field => (check (isField field)).map fun _ => .fields
    else .ok (.field first)
  | .fields, c => (check (c = ']')).map fun _ => .target
  | .target, c => (check (c = '=')).map fun _ => .level (position + 1)
  | .level first, _ => .ok (.level first)

def State.finish (text : List Char) : State → Except Fault Unit
  | .levelOrTarget | .target => .ok ()
  | .level first => (dropBytes first text).bind fun level => check (isLevel level)
  | _ => .error .malformed

def State.read (text : List Char) : Nat → State → List Char → Except Fault Unit
  | _, s, [] => s.finish text
  | position, s, c :: rest =>
    (s.next text position c).bind fun s => s.read text (position + c.utf8Size) rest

def checkDirective (text : List Char) : Except Fault Unit :=
  State.start.read text 0 (Blank.trim text)

def split (text : List Char) : List (List Char) :=
  text.foldr
    (fun c pieces =>
      if c = ',' then [] :: pieces
      else match pieces with
        | [] => [[c]]
        | piece :: rest => (c :: piece) :: rest)
    [[]]

def checkFilter (text : String) : Except Fault Unit :=
  ((split text.toList).filter fun piece => !piece.isEmpty).forM checkDirective

end EmulatorHost.Headless.LogFilter
