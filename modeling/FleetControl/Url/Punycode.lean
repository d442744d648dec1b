/-!
Bootstring encoding of labels with characters outside ASCII, with the parameters of Punycode. The
ASCII characters come first; the others follow as differences in ascending order of code point.
-/
namespace FleetControl.Url.Punycode

def digit (n : Nat) : Char := if n < 26 then Char.ofNat (0x61 + n) else Char.ofNat (0x30 + (n - 26))

def digitValue? (c : Char) : Option Nat :=
  let n := c.toNat
  if 0x61 ≤ n ∧ n ≤ 0x7A then some (n - 0x61)
  else if 0x41 ≤ n ∧ n ≤ 0x5A then some (n - 0x41)
  else if 0x30 ≤ n ∧ n ≤ 0x39 then some (n - 0x30 + 26)
  else none

def threshold (k bias : Nat) : Nat := if k ≤ bias then 1 else min (k - bias) 26

theorem threshold_pos (k bias : Nat) : 1 ≤ threshold k bias := by
  unfold threshold
  split <;> omega

theorem threshold_le (k bias : Nat) : threshold k bias ≤ 26 := by
  unfold threshold
  split <;> omega

def settle (delta k : Nat) : Nat :=
  if 455 < delta then settle (delta / 35) (k + 36) else k + 36 * delta / (delta + 38)
termination_by delta
decreasing_by omega

def adapt (delta points : Nat) (first : Bool) : Nat :=
  let d := if first then delta / 700 else delta / 2
  settle (d + d / points) 0

def digits (q bias k : Nat) : List Char :=
  let t := threshold k bias
  if q < t then [digit q]
  else digit (t + (q - t) % (36 - t)) :: digits ((q - t) / (36 - t)) bias (k + 36)
termination_by q
decreasing_by
  have h1 := threshold_pos k bias
  have h2 := threshold_le k bias
  have : (q - threshold k bias) / (36 - threshold k bias) ≤ q - threshold k bias := Nat.div_le_self _ _
  omega

structure State where
  delta : Nat
  bias : Nat
  written : Nat
  basic : Nat
  out : List Char

def encodeAt (point : Nat) (s : State) (c : Char) : State :=
  if c.toNat < point then { s with delta := s.delta + 1 }
  else if c.toNat = point then
    { s with
      delta := 0
      bias := adapt s.delta (s.written + 1) (s.written == s.basic)
      written := s.written + 1
      out := s.out ++ digits s.delta s.bias 36 }
  else s

def rounds (label : List Char) : List Nat → Nat → State → State
  | [], _, s => s
  | point :: rest, reached, s =>
    let s := { s with delta := s.delta + (point - reached) * (s.written + 1) }
    let s := label.foldl (encodeAt point) s
    rounds label rest (point + 1) { s with delta := s.delta + 1 }

def insertPoint (n : Nat) : List Nat → List Nat
  | [] => [n]
  | m :: rest => if n < m then n :: m :: rest else if n = m then m :: rest else m :: insertPoint n rest

def encode (label : List Char) : List Char :=
  let basic := label.filter fun c => c.toNat < 0x80
  let points := ((label.filter fun c => 0x80 ≤ c.toNat).map Char.toNat).foldr insertPoint []
  let s := rounds label points 0x80 ⟨0, 72, basic.length, basic.length, []⟩
  (if basic.isEmpty then [] else basic ++ ['-']) ++ s.out

def number? (bias : Nat) : List Char → (i w k : Nat) → Option (Nat × List Char)
  | [], _, _, _ => none
  | c :: rest, i, w, k =>
    match digitValue? c with
    | none => none
    | some d =>
      let t := threshold k bias
      if d < t then some (i + d * w, rest) else number? bias rest (i + d * w) (w * (36 - t)) (k + 36)

/-- Every difference takes at least one digit, so as many rounds as digits suffice. -/
def insertAll (fuel : Nat) (out : List Char) (point i bias : Nat) (first : Bool) :
    List Char → Option (List Char)
  | [] => some out
  | c :: rest =>
    match fuel, number? bias (c :: rest) i 1 36 with
    | fuel + 1, some (j, rest) =>
      let count := out.length + 1
      let point := point + j / count
      if h : point.isValidChar then
        insertAll fuel (out.insertIdx (j % count) (Char.ofNatAux point h)) point (j % count + 1)
          (adapt (j - i) count first) false rest
      else none
    | _, _ => none

def decode? (text : List Char) : Option (List Char) :=
  let back := text.reverse
  let basic := (back.dropWhile (· != '-')).drop 1 |>.reverse
  let rest := (back.takeWhile (· != '-')).reverse
  if basic.all fun c => c.toNat < 0x80 then insertAll rest.length basic 0x80 0 72 true rest else none

end FleetControl.Url.Punycode
