/-! Two parts side by side are nested in what joins them; a part alone is not. -/

namespace EmulatorHost.Pattern.Depth

def limit : Nat := 250

def joined : List Nat → Nat
  | [] => 0
  | [depth] => depth
  | depths => 1 + depths.foldl max 0

end EmulatorHost.Pattern.Depth
