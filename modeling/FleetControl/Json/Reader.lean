import FleetControl.Json.Value

/-!
Reading JSON. Blanks may stand between any two tokens, nesting is limited, and of two fields with
one key the later counts. A fault names its place by line and column.
-/
namespace FleetControl.Json

inductive Complaint
  | endInList | endInObject | endInText | endInValue
  | noColon | noListEnd | noObjectEnd | noWord | noValue
  | badEscape | badNumber | numberTooLarge | badCodePoint | controlCharacter
  | keyNotText | loneSurrogate | endInEscape | trailingComma | trailingCharacters | tooDeep
deriving DecidableEq, Repr

def Complaint.message : Complaint → String
  | endInList => "EOF while parsing a list"
  | endInObject => "EOF while parsing an object"
  | endInText => "EOF while parsing a string"
  | endInValue => "EOF while parsing a value"
  | noColon => "expected `:`"
  | noListEnd => "expected `,` or `]`"
  | noObjectEnd => "expected `,` or `\x7d`"
  | noWord => "expected ident"
  | noValue => "expected value"
  | badEscape => "invalid escape"
  | badNumber => "invalid number"
  | numberTooLarge => "number out of range"
  | badCodePoint => "invalid unicode code point"
  | controlCharacter => "control character (\\u0000-\\u001F) found while parsing a string"
  | keyNotText => "key must be a string"
  | loneSurrogate => "lone leading surrogate in hex escape"
  | endInEscape => "unexpected end of hex escape"
  | trailingComma => "trailing comma"
  | trailingCharacters => "trailing characters"
  | tooDeep => "recursion limit exceeded"

structure Fault where
  complaint : Complaint
  rest : List Char

def position (read : List Char) : Nat × Nat :=
  (1 + read.count '\n', (read.reverse.takeWhile (· ≠ '\n')).length)

def Fault.message (f : Fault) (input : List Char) : String :=
  let (line, column) := position (input.take (input.length - f.rest.length))
  s!"{f.complaint.message} at line {line} column {column}"

abbrev Step (α : Type) := Except Fault (α × List Char)

def fault {α : Type} (complaint : Complaint) (rest : List Char) : Except Fault α :=
  .error ⟨complaint, rest⟩

def isSpace (c : Char) : Bool := c == ' ' || c == '\n' || c == '\t' || c == '\r'

def skipSpace (cs : List Char) : List Char := cs.dropWhile isSpace

structure Numeral where
  negative : Bool
  whole : List Char
  fraction : Option (List Char)
  exponent : Option (Bool × List Char)

def digitsOf (cs : List Char) : List Char × List Char :=
  (cs.takeWhile Char.isDigit, cs.dropWhile Char.isDigit)

def exponentPart (cs : List Char) : Step (Option (Bool × List Char)) :=
  match cs with
  | c :: rest =>
    if c = 'e' ∨ c = 'E' then
      let (negative, rest) := match rest with
        | '-' :: rest => (true, rest)
        | '+' :: rest => (false, rest)
        | rest => (false, rest)
      match digitsOf rest with
      | ([], []) => fault .endInValue []
      | ([], _ :: rest) => fault .badNumber rest
      | (ds, rest) => .ok (some (negative, ds), rest)
    else .ok (none, cs)
  | [] => .ok (none, [])

def fractionPart (cs : List Char) : Step (Option (List Char)) :=
  match cs with
  | '.' :: rest =>
    match digitsOf rest with
    | ([], []) => fault .endInValue []
    | ([], _ :: rest) => fault .badNumber rest
    | (ds, rest) => .ok (some ds, rest)
  | cs => .ok (none, cs)

def wholePart (cs : List Char) : Step (List Char) :=
  match cs with
  | [] => fault .endInValue []
  | '0' :: c :: rest => if c.isDigit then fault .badNumber rest else .ok (['0'], c :: rest)
  | c :: rest => if c.isDigit then .ok (digitsOf (c :: rest)) else fault .badNumber rest

def numeral (cs : List Char) : Except Fault (Numeral × List Char) := do
  let (negative, cs) := match cs with
    | '-' :: cs => (true, cs)
    | cs => (false, cs)
  let (whole, cs) ← wholePart cs
  let (fraction, cs) ← fractionPart cs
  let (exponent, cs) ← exponentPart cs
  .ok (⟨negative, whole, fraction, exponent⟩, cs)

def decimalValue (ds : List Char) : Nat := ds.foldl (fun n c => 10 * n + (c.toNat - 48)) 0

def significand (start : Nat) : List Char → Nat × Nat
  | [] => (start, 0)
  | c :: rest =>
    let next := 10 * start + (c.toNat - 48)
    if next < Nat.pow 2 64 then significand next rest else (start, rest.length + 1)

def powerOfTen (n : Nat) : Float := Float.ofScientific 1 false n

/-- `value * 10 ^ exponent`, by one multiplication or by divisions by at most `1e308` each; an
infinite product is refused. -/
def scale (value : Float) (exponent : Int) : Option Float :=
  if 0 ≤ exponent then
    if exponent ≤ 308 then
      let r := value * powerOfTen exponent.toNat
      if r.isInf then none else some r
    else if value == 0.0 then some value else none
  else
    let n := (-exponent).toNat
    if n ≤ 308 then some (value / powerOfTen n)
    else if n ≤ 616 then some (value / powerOfTen 308 / powerOfTen (n - 308))
    else if n ≤ 924 then some (value / powerOfTen 308 / powerOfTen 308 / powerOfTen (n - 616))
    else some 0.0

def Numeral.real? (n : Numeral) : Option Float :=
  let (kept, dropped) := significand 0 n.whole
  let fraction := n.fraction.getD []
  let (kept, ignored) := significand kept fraction
  let shift : Int := dropped - (fraction.length - ignored : Nat)
  let exponent : Int := match n.exponent with
    | none => 0
    | some (true, ds) => -decimalValue ds
    | some (false, ds) => decimalValue ds
  (scale kept.toUInt64.toFloat (shift + exponent)).map fun v => if n.negative then -v else v

def Numeral.value? (n : Numeral) : Option Number :=
  let value := decimalValue n.whole
  let real := n.real?.map fun v => Number.real v.toBits
  if n.fraction.isSome || n.exponent.isSome then real
  else if n.negative then
    if value ≠ 0 ∧ value ≤ Nat.pow 2 63 then some (.whole (-value)) else real
  else if value < Nat.pow 2 64 then some (.whole value) else real

def hexValue? (c : Char) : Option Nat :=
  if c.isDigit then some (c.toNat - 48)
  else if 'a' ≤ c ∧ c ≤ 'f' then some (c.toNat - 87)
  else if 'A' ≤ c ∧ c ≤ 'F' then some (c.toNat - 55)
  else none

def unit? (a b c d : Char) : Option Nat := do
  let a ← hexValue? a
  let b ← hexValue? b
  let c ← hexValue? c
  let d ← hexValue? d
  some (((a * 16 + b) * 16 + c) * 16 + d)

def simpleEscape? : Char → Option Char
  | '"' => some '"'
  | '\\' => some '\\'
  | '/' => some '/'
  | 'b' => some '\x08'
  | 'f' => some '\x0c'
  | 'n' => some '\n'
  | 'r' => some '\r'
  | 't' => some '\t'
  | _ => none

def textFrom (acc : List Char) : List Char → Step String
  | [] => fault .endInText []
  | '"' :: rest => .ok (String.ofList acc.reverse, rest)
  | '\\' :: 'u' :: a :: b :: c :: d :: rest =>
    match unit? a b c d with
    | none => fault .badEscape rest
    | some hi =>
      if 0xDC00 ≤ hi ∧ hi ≤ 0xDFFF then fault .loneSurrogate rest
      else if 0xD800 ≤ hi ∧ hi ≤ 0xDBFF then
        match rest with
        | '\\' :: 'u' :: a :: b :: c :: d :: rest =>
          match unit? a b c d with
          | none => fault .badEscape rest
          | some lo =>
            if 0xDC00 ≤ lo ∧ lo ≤ 0xDFFF then
              textFrom (Char.ofNat (0x10000 + (hi - 0xD800) * 0x400 + (lo - 0xDC00)) :: acc) rest
            else fault .loneSurrogate rest
        | _ => fault .endInEscape rest
      else textFrom (Char.ofNat hi :: acc) rest
  | '\\' :: c :: rest =>
    match simpleEscape? c with
    | some x => textFrom (x :: acc) rest
    | none => if c = 'u' then fault .endInText [] else fault .badEscape rest
  | c :: rest => if c.toNat < 0x20 then fault .controlCharacter rest else textFrom (c :: acc) rest

def word (value : Json) : List Char → List Char → Step Json
  | [], cs => .ok (value, cs)
  | _ :: _, [] => fault .endInValue []
  | letter :: letters, c :: rest =>
    if c = letter then word value letters rest else fault .noWord rest

def maxDepth : Nat := 127

mutual
/-- `fuel` bounds the number of tokens left, `depth` the levels that may still be opened. -/
def value (fuel depth : Nat) (cs : List Char) : Step Json :=
  match fuel with
  | 0 => fault .endInValue []
  | fuel + 1 =>
    match skipSpace cs with
    | [] => fault .endInValue []
    | 'n' :: rest => word .null ['u', 'l', 'l'] rest
    | 't' :: rest => word (.bool true) ['r', 'u', 'e'] rest
    | 'f' :: rest => word (.bool false) ['a', 'l', 's', 'e'] rest
    | '"' :: rest => (textFrom [] rest).map fun (s, rest) => (.text s, rest)
    | '[' :: rest =>
      match depth with
      | 0 => fault .tooDeep rest
      | depth + 1 =>
        match skipSpace rest with
        | ']' :: rest => .ok (.list [], rest)
        | [] => fault .endInList []
        | rest => (items fuel depth rest).map fun (vs, rest) => (.list vs, rest)
    | '\x7b' :: rest =>
      match depth with
      | 0 => fault .tooDeep rest
      | depth + 1 =>
        match skipSpace rest with
        | '\x7d' :: rest => .ok (.object [], rest)
        | [] => fault .endInObject []
        | rest => (fields fuel depth [] rest).map fun (fs, rest) => (.object fs, rest)
    | c :: rest =>
      if c = '-' ∨ c.isDigit then
        match numeral (c :: rest) with
        | .error f => .error f
        | .ok (n, rest) =>
          match n.value? with
          | some v => .ok (.number v, rest)
          | none => fault .numberTooLarge rest
      else fault .noValue rest

def items (fuel depth : Nat) (cs : List Char) : Step (List Json) :=
  match fuel with
  | 0 => fault .endInList []
  | fuel + 1 =>
    match value fuel depth cs with
    | .error f => .error f
    | .ok (v, rest) =>
      match skipSpace rest with
      | ']' :: rest => .ok ([v], rest)
      | ',' :: rest =>
        match skipSpace rest with
        | ']' :: rest => fault .trailingComma rest
        | rest => (items fuel depth rest).map fun (vs, rest) => (v :: vs, rest)
      | [] => fault .endInList []
      | _ :: rest => fault .noListEnd rest

def fields (fuel depth : Nat) (acc : Fields) (cs : List Char) : Step Fields :=
  match fuel with
  | 0 => fault .endInObject []
  | fuel + 1 =>
    match skipSpace cs with
    | '"' :: rest =>
      match textFrom [] rest with
      | .error f => .error f
      | .ok (key, rest) =>
        match skipSpace rest with
        | ':' :: rest =>
          match value fuel depth rest with
          | .error f => .error f
          | .ok (v, rest) =>
            let acc := acc.insert key v
            match skipSpace rest with
            | '\x7d' :: rest => .ok (acc, rest)
            | ',' :: rest =>
              match skipSpace rest with
              | '\x7d' :: rest => fault .trailingComma rest
              | rest => fields fuel depth acc rest
            | [] => fault .endInObject []
            | _ :: rest => fault .noObjectEnd rest
        | [] => fault .endInObject []
        | _ :: rest => fault .noColon rest
    | [] => fault .endInValue []
    | _ :: rest => fault .keyNotText rest
end

def readChars (cs : List Char) : Except Fault Json :=
  match value (cs.length + 1) maxDepth cs with
  | .error f => .error f
  | .ok (v, rest) =>
    match skipSpace rest with
    | [] => .ok v
    | _ :: rest => fault .trailingCharacters rest

def read (s : String) : Except String Json :=
  (readChars s.toList).mapError fun f => f.message s.toList

end FleetControl.Json
