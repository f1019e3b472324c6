namespace EmulatorHost.Floating

def nonFiniteWords : List String := ["inf", "infinity", "nan"]

def dropSign : List Char → List Char
  | '+' :: rest | '-' :: rest | rest => rest

def isExponent : List Char → Bool
  | [] => true
  | e :: rest =>
    (e = 'e' || e = 'E') && !(dropSign rest).isEmpty && (dropSign rest).all Char.isDigit

def isDecimal (cs : List Char) : Bool :=
  let whole := cs.takeWhile Char.isDigit
  match cs.dropWhile Char.isDigit with
  | '.' :: rest =>
    (!whole.isEmpty || rest.head?.any Char.isDigit) && isExponent (rest.dropWhile Char.isDigit)
  | rest => !whole.isEmpty && isExponent rest

def isNumber (cs : List Char) : Bool :=
  nonFiniteWords.contains (String.ofList ((dropSign cs).map Char.toLower)) ||
    isDecimal (dropSign cs)

end EmulatorHost.Floating
