namespace FleetControl.Yaml

inductive Style
  | plain
  | quoted
deriving DecidableEq, Repr

inductive Token
  | version (major minor : Nat)
  | handle (name expansion : String)
  | documentStart
  | documentEnd
  | blockSequence
  | blockMapping
  | blockEnd
  | blockEntry
  | flowSequence
  | flowSequenceEnd
  | flowMapping
  | flowMappingEnd
  | flowEntry
  | key
  | value
  | alias (name : String)
  | anchor (name : String)
  | tag (handle suffix : String)
  | scalar (style : Style) (text : String)
deriving DecidableEq, Repr

structure Position where
  line : Nat
  column : Nat
deriving DecidableEq, Repr

namespace Position

def right (p : Position) (n : Nat) : Position := { p with column := p.column + n }

def nextLine (p : Position) : Position := ⟨p.line + 1, 0⟩

end Position

def isBreak (c : Char) : Bool := c == '\n' || c.toNat == 0x2028 || c.toNat == 0x2029

def isBlank (c : Char) : Bool := c == ' ' || c == '\t'

def isSpace (c : Char) : Bool := isBlank c || isBreak c

def endsWord (cs : List Char) : Bool := ((cs.head?).map isSpace).getD true

def isWord (c : Char) : Bool := c.isAlphanum || c == '_' || c == '-'

def isDocumentMark (p : Position) (cs : List Char) : Bool :=
  p.column == 0 && (cs.take 3 == ['-', '-', '-'] || cs.take 3 == ['.', '.', '.']) && endsWord (cs.drop 3)

def isAllowed (c : Char) : Bool :=
  let n := c.toNat
  n == 9 || n == 10 || n == 13 || (0x20 ≤ n && n ≤ 0x7E) || n == 0x85 || (0xA0 ≤ n && n ≤ 0xD7FF) ||
    (0xE000 ≤ n && n ≤ 0xFFFD) || 0x10000 ≤ n

def uniform : List Char → List Char
  | '\r' :: '\n' :: rest => '\n' :: uniform rest
  | c :: rest => (if c == '\r' || c.toNat == 0x85 then '\n' else c) :: uniform rest
  | [] => []

def stream? (text : String) : Option (List Char) :=
  let cs := text.toList
  let cs := if cs.head? = some '\ufeff' then cs.drop 1 else cs
  if cs.all isAllowed then some (uniform cs) else none

end FleetControl.Yaml
