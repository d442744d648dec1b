import FleetControl.Text.Lower.Table

namespace FleetControl.Text.Lower

def Run.image? (r : Run) (n : Nat) : Option Nat :=
  if r.first ≤ n ∧ n ≤ r.last ∧ (n - r.first) % r.step = 0 then some (r.image + (n - r.first))
  else none

def within (table : List (Nat × Nat)) (c : Char) : Bool :=
  table.any fun (first, last) => first ≤ c.toNat && c.toNat ≤ last

def char (c : Char) : List Char :=
  if c.toNat < 0x80 then [c.toLower]
  else if c.toNat = 0x130 then ['i', '\u0307']
  else [Char.ofNat ((runs.findSome? fun r => r.image? c.toNat).getD c.toNat)]

/-- A sigma is final if a letter with case comes before it and none after it, characters of the
ignorable class left out of account. `before` is read from the sigma backwards. -/
def sigmaIsFinal (before after : List Char) : Bool :=
  let nearest (cs : List Char) := ((cs.dropWhile (within ignorable)).head?.map (within cased)).getD false
  nearest before && !nearest after

def charsFrom (before : List Char) : List Char → List Char
  | [] => []
  | c :: rest =>
    (if c = 'Σ' then [if sigmaIsFinal before rest then 'ς' else 'σ'] else char c) ++
      charsFrom (c :: before) rest

end FleetControl.Text.Lower

namespace FleetControl.Text

def lower (s : String) : String := String.ofList (Lower.charsFrom [] s.toList)

end FleetControl.Text
