import EmulatorHost.Size
import EmulatorHost.Text.Blank
import EmulatorHost.Text.Numeral

namespace EmulatorHost.Headless.SizeText

inductive Problem where
  | noSeparator (text : String)
  | badWidth (raw : String) (problem : Numeral.Problem)
  | badHeight (raw : String) (problem : Numeral.Problem)
  | zero (size : Size)
  deriving DecidableEq, Repr

def Problem.message : Problem → String
  | .noSeparator text => "expected WIDTHxHEIGHT, got `" ++ text ++ "`"
  | .badWidth raw problem => "bad width `" ++ raw ++ "`: " ++ problem.message
  | .badHeight raw problem => "bad height `" ++ raw ++ "`: " ++ problem.message
  | .zero size => "size must be non-zero, got " ++ size.text

def isSeparator (c : Char) : Bool := c = 'x' || c = 'X'

def split? : List Char → Option (List Char × List Char)
  | [] => none
  | c :: rest =>
    if isSeparator c then some ([], rest)
    else (split? rest).map fun (before, after) => (c :: before, after)

def readSide (text : List Char) : Except Numeral.Problem UInt32 :=
  (Numeral.readNat (UInt32.size - 1) (Blank.trim text)).map Nat.toUInt32

def read (text : List Char) : Except Problem Size :=
  match split? text with
  | none => .error (.noSeparator (String.ofList text))
  | some (before, after) =>
    match readSide before, readSide after with
    | .error problem, _ => .error (.badWidth (String.ofList before) problem)
    | .ok _, .error problem => .error (.badHeight (String.ofList after) problem)
    | .ok width, .ok height =>
      if width = 0 ∨ height = 0 then .error (.zero ⟨width, height⟩) else .ok ⟨width, height⟩

end EmulatorHost.Headless.SizeText
