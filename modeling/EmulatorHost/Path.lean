import EmulatorHost.Text.Utf8

/-! Paths are byte strings: nothing is normalised, and only showing one needs text. -/

namespace EmulatorHost

structure Path where
  bytes : List UInt8
  deriving DecidableEq, Repr, Inhabited

namespace Path

def ofText (s : String) : Path := ⟨Utf8.encode s.toList⟩

def text? (p : Path) : Option String := (Utf8.decode? p.bytes).map String.ofList

def display (p : Path) : String := Utf8.display p.bytes

def isEmpty (p : Path) : Bool := p.bytes.isEmpty

def splitAt (sep : UInt8 → Bool) : List UInt8 → List (List UInt8)
  | [] => [[]]
  | b :: rest =>
    if sep b then [] :: splitAt sep rest
    else match splitAt sep rest with
      | [] => [[b]]
      | piece :: pieces => (b :: piece) :: pieces

def separator : UInt8 := 0x2F

def here : List UInt8 := [0x2E]

def above : List UInt8 := [0x2E, 0x2E]

def isAbsolute (p : Path) : Bool := p.bytes.head? = some separator

def pieces (p : Path) : List (List UInt8) := splitAt (· = separator) p.bytes

/-- The names of a path. Repeated separators and each `.` but a leading one mean nothing. -/
def names (p : Path) : List (List UInt8) :=
  match p.pieces with
  | [] => []
  | first :: rest =>
    let rest := rest.filter fun n => n ≠ [] ∧ n ≠ here
    if first = [] then rest else first :: rest

def fileName? (p : Path) : Option (List UInt8) :=
  p.names.getLast?.filter fun n => n ≠ above ∧ n ≠ here

def trimPieces : List (List UInt8) → List (List UInt8)
  | [] => []
  | first :: rest => first :: (rest.reverse.dropWhile fun n => n = [] ∨ n = here).reverse

def directory (p : Path) : Path :=
  match trimPieces (trimPieces p.pieces).dropLast with
  | [[]] => ⟨[separator]⟩
  | pieces => ⟨List.intercalate [separator] pieces⟩

def join (directory : Path) (name : List UInt8) : Path :=
  if directory.isEmpty ∨ directory.bytes.getLast? = some separator then
    ⟨directory.bytes ++ name⟩
  else ⟨directory.bytes ++ separator :: name⟩

end Path

end EmulatorHost
