import FleetControl.Url.Percent
import FleetControl.Yaml.Token

namespace FleetControl.Yaml

inductive Gap
  | blanks (text : List Char)
  | lines (first : Option Char) (more : List Char)

namespace Gap

def none : Gap := blanks []

def addBlank (c : Char) : Gap → Gap
  | blanks text => blanks (text ++ [c])
  | g => g

def addBreak (c : Char) : Gap → Gap
  | blanks _ => lines (some c) []
  | lines first more => lines first (more ++ [c])

def text : Gap → List Char
  | blanks text => text
  | lines .none more => more
  | lines (some '\n') [] => [' ']
  | lines (some '\n') more => more
  | lines (some c) more => c :: more

def isEmpty : Gap → Bool
  | blanks [] => true
  | _ => false

def isBroken : Gap → Bool
  | blanks _ => false
  | lines _ _ => true

end Gap

structure Scan where
  text : List Char
  broken : Bool
  position : Position
  rest : List Char

def isFlowMark (c : Char) : Bool := c == ',' || c == '[' || c == ']' || c == '\x7b' || c == '\x7d'

def isLostColon (flow : Bool) (c : Char) (rest : List Char) : Bool :=
  flow && c == ':' && ((rest.head?).map fun d => isFlowMark d || d == '?').getD false

def endsPlain (flow : Bool) (c : Char) (rest : List Char) : Bool :=
  (c == ':' && endsWord rest) || (flow && isFlowMark c)

def scanPlain (flow : Bool) (indent : Nat) (p : Position) (text : List Char) (gap : Gap) :
    List Char → Option Scan
  | [] => some ⟨text, gap.isBroken, p, []⟩
  | c :: rest =>
    if isBlank c then
      if gap.isBroken ∧ c = '\t' ∧ p.column < indent then none
      else scanPlain flow indent (p.right 1) text (gap.addBlank c) rest
    else if isBreak c then scanPlain flow indent p.nextLine text (gap.addBreak c) rest
    else if isDocumentMark p (c :: rest) ∨
        (!gap.isEmpty && (c == '#' || (!flow && p.column < indent))) then
      some ⟨text, gap.isBroken, p, c :: rest⟩
    else if isLostColon flow c rest then none
    else if endsPlain flow c rest then some ⟨text, gap.isBroken, p, c :: rest⟩
    else scanPlain flow indent (p.right 1) (text ++ gap.text ++ [c]) .none rest

def escape? : Char → Option (Char ⊕ Nat)
  | '0' => some (.inl '\x00')
  | 'a' => some (.inl '\x07')
  | 'b' => some (.inl '\x08')
  | 't' => some (.inl '\t')
  | '\t' => some (.inl '\t')
  | 'n' => some (.inl '\n')
  | 'v' => some (.inl '\x0b')
  | 'f' => some (.inl '\x0c')
  | 'r' => some (.inl '\r')
  | 'e' => some (.inl '\x1b')
  | ' ' => some (.inl ' ')
  | '"' => some (.inl '"')
  | '/' => some (.inl '/')
  | '\\' => some (.inl '\\')
  | 'N' => some (.inl '\u0085')
  | '_' => some (.inl '\u00a0')
  | 'L' => some (.inl '\u2028')
  | 'P' => some (.inl '\u2029')
  | 'x' => some (.inr 2)
  | 'u' => some (.inr 4)
  | 'U' => some (.inr 8)
  | _ => none

def codePoint? (digits : List Char) : Option Char := do
  let n ← digits.foldl (fun acc c => do some ((← acc) * 16 + (← Url.Percent.hexValue? c))) (some 0)
  if h : n.isValidChar then some (Char.ofNatAux n h) else none

def scanQuoted (single : Bool) (p : Position) (text : List Char) (gap : Gap) : List Char → Option Scan
  | [] => none
  | c :: rest =>
    if isBlank c then scanQuoted single (p.right 1) text (gap.addBlank c) rest
    else if isBreak c then scanQuoted single p.nextLine text (gap.addBreak c) rest
    else if isDocumentMark p (c :: rest) then none
    else
      let text := text ++ gap.text
      if single then
        if c = '\'' then
          match rest with
          | '\'' :: rest => scanQuoted single (p.right 2) (text ++ ['\'']) .none rest
          | rest => some ⟨text, false, p.right 1, rest⟩
        else scanQuoted single (p.right 1) (text ++ [c]) .none rest
      else if c = '"' then some ⟨text, false, p.right 1, rest⟩
      else if c = '\\' then
        match rest with
        | [] => none
        | d :: rest =>
          if isBreak d then scanQuoted single p.nextLine text (.lines none []) rest
          else match escape? d with
            | none => none
            | some (.inl e) => scanQuoted single (p.right 2) (text ++ [e]) .none rest
            | some (.inr n) =>
              if rest.length < n then none
              else match codePoint? (rest.take n) with
                | none => none
                | some e => scanQuoted single (p.right (2 + n)) (text ++ [e]) .none (rest.drop n)
      else scanQuoted single (p.right 1) (text ++ [c]) .none rest
termination_by cs => cs.length
decreasing_by all_goals (simp only [List.length_cons, List.length_drop]; try omega)

abbrev Line := List Char × Option Char

def linesOf : List Char → List Line
  | [] => [([], none)]
  | c :: rest =>
    if isBreak c then ([], some c) :: linesOf rest
    else match linesOf rest with
      | (l, b) :: more => (c :: l, b) :: more
      | [] => [([c], none)]

def unlines (ls : List Line) : List Char := ls.flatMap fun (l, b) => l ++ b.toList

inductive Chomp
  | clip
  | strip
  | keep
deriving DecidableEq, Repr

def leadingSpaces (l : List Char) : Nat := (l.takeWhile (· == ' ')).length

def widest? (reached : Nat) : List Line → Option Nat
  | [] => some reached
  | (l, b) :: rest =>
    let n := leadingSpaces l
    match l.drop n, b with
    | '\t' :: _, _ => none
    | [], some _ => widest? (max reached n) rest
    | _, _ => some (max reached n)

/-- `leading` ends the last line, and `trailing` are the empty lines after it. -/
structure Block where
  text : List Char
  leading : Option Char
  trailing : List Char
  blankStart : Bool

def Block.add (folded : Bool) (s : Block) (l : List Char) (ending : Option Char) : Block :=
  let blankStart := ((l.head?).map isBlank).getD false
  let joint := if folded ∧ s.leading = some '\n' ∧ !s.blankStart ∧ !blankStart then
      (if s.trailing.isEmpty then [' '] else [])
    else s.leading.toList
  ⟨s.text ++ joint ++ s.trailing ++ l, ending, [], blankStart⟩

def Block.chomped (s : Block) (chomp : Chomp) : List Char :=
  s.text ++ (if chomp = .strip then [] else s.leading.toList) ++ if chomp = .keep then s.trailing else []

def scanBlockLines (folded : Bool) (indent : Nat) (p : Position) (s : Block) :
    List Line → Option (Block × Position × List Line)
  | [] => some (s, p, [])
  | (l, b) :: rest =>
    let n := min indent (leadingSpaces l)
    match l.drop n, b with
    | [], some c => scanBlockLines folded indent p.nextLine { s with trailing := s.trailing ++ [c] } rest
    | r, b =>
      if n < indent ∧ r.head? = some '\t' then none
      else if n = indent ∧ ¬(r = [] ∧ b = none) then
        scanBlockLines folded indent p.nextLine (s.add folded r b) rest
      else some (s, p.right n, (r, b) :: rest)

def blockHeader? : List Char → Option (Chomp × Option Nat)
  | [] => some (.clip, none)
  | ['+'] => some (.keep, none)
  | ['-'] => some (.strip, none)
  | [d] => (digit? d).map fun n => (.clip, some n)
  | ['+', d] => (digit? d).map fun n => (.keep, some n)
  | ['-', d] => (digit? d).map fun n => (.strip, some n)
  | [d, '+'] => (digit? d).map fun n => (.keep, some n)
  | [d, '-'] => (digit? d).map fun n => (.strip, some n)
  | _ => none
where
  digit? (c : Char) : Option Nat := if '1' ≤ c ∧ c ≤ '9' then some (c.toNat - 0x30) else none

def isHeaderMark (c : Char) : Bool := c == '+' || c == '-' || c.isDigit

def scanBlock (folded : Bool) (outer : Option Nat) (p : Position) (cs : List Char) : Option Scan := do
  let marks := cs.takeWhile isHeaderMark
  let (chomp, given) ← blockHeader? marks
  let rest := (cs.drop marks.length).dropWhile isBlank
  let rest := if rest.head? = some '#' then rest.dropWhile fun c => !isBreak c else rest
  if !((rest.head?).map isBreak).getD true then none
  else
    let ls := linesOf (rest.drop 1)
    let indent ← match given with
      | some n => some ((outer.getD 0) + n)
      | none => (widest? 0 ls).map fun n => max (max n ((outer.map (· + 1)).getD 0)) 1
    let start := if rest.isEmpty then p else p.nextLine
    let (s, q, ls) ← scanBlockLines folded indent start ⟨[], none, [], false⟩ ls
    some ⟨s.chomped chomp, false, q, unlines ls⟩

end FleetControl.Yaml
