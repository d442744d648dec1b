namespace FleetControl.Text

inductive BadCut
  | belowStart
  | insideCharacter
deriving DecidableEq, Repr

def isCut (s : String) (n : Nat) : Bool := (String.Pos.Raw.mk n).isValid s

def lastCut? (s : String) : Nat → Except BadCut Nat
  | 0 => if isCut s 0 then .ok 0 else .error .belowStart
  | n + 1 => if isCut s (n + 1) then .ok (n + 1) else lastCut? s n

def before? (s : String) (n : Nat) : Except BadCut String :=
  if h : (String.Pos.Raw.mk n).IsValid s then .ok (s.sliceTo ⟨⟨n⟩, h⟩).copy else .error .insideCharacter

end FleetControl.Text
