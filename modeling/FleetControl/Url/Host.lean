import FleetControl.Text.Blank
import FleetControl.Text.Lower
import FleetControl.Url.Percent
import FleetControl.Url.Punycode

namespace FleetControl.Url

inductive Fault
  | emptyHost
  | invalidDomain
  | invalidPort
  | invalidIpv4
  | invalidIpv6
  | invalidHostCharacter
  | noBase
  | rootlessBase
deriving DecidableEq, Repr

def Fault.message : Fault → String
  | emptyHost => "empty host"
  | invalidDomain => "invalid international domain name"
  | invalidPort => "invalid port number"
  | invalidIpv4 => "invalid IPv4 address"
  | invalidIpv6 => "invalid IPv6 address"
  | invalidHostCharacter => "invalid domain character"
  | noBase => "relative URL without a base"
  | rootlessBase => "relative URL with a cannot-be-a-base base"

inductive Host
  | domain (name : String)
  | ipv4 (address : Nat)
  | ipv6 (pieces : List Nat)
deriving DecidableEq, Repr

def pieces (separator : Char → Bool) : List Char → List (List Char)
  | [] => [[]]
  | c :: rest =>
    if separator c then [] :: pieces separator rest
    else match pieces separator rest with
      | [] => [[c]]
      | p :: ps => (c :: p) :: ps

namespace Domain

def isIgnored (c : Char) : Bool :=
  let n := c.toNat
  n == 0xAD || n == 0x200B || n == 0x2060 || n == 0xFEFF || (0xFE00 ≤ n && n ≤ 0xFE0F)

def narrow (c : Char) : Char :=
  let n := c.toNat
  if n = 0x3002 ∨ n = 0xFF61 then '.'
  else if 0xFF01 ≤ n ∧ n ≤ 0xFF5E then Char.ofNat (n - 0xFEE0)
  else c

/-- Compatible forms by lower-casing, full-width forms and some ignored characters only: there is no mapping table
and no normalization, so other names that have to be mapped are kept as they are written. -/
def fold (cs : List Char) : List Char :=
  (cs.filter fun c => !isIgnored c).flatMap fun c => Text.Lower.char (narrow c)

def isForbidden (c : Char) : Bool :=
  let n := c.toNat
  n ≤ 0x20 || (0x7F ≤ n && n < 0xA0) || "%#/:<>?@[\\]^|".contains c || Text.isBlank c || n == 0xFFFD ||
    (0xE000 ≤ n && n ≤ 0xF8FF) || 0xF0000 ≤ n

def isCombining (c : Char) : Bool := 0x300 ≤ c.toNat && c.toNat ≤ 0x36F

def isAscii (cs : List Char) : Bool := cs.all fun c => c.toNat < 0x80

def isEncoding (text : List Char) : Bool :=
  match Punycode.decode? text with
  | none => false
  | some label =>
    !isAscii label && fold label == label && !label.any isForbidden && Punycode.encode label == text

def label? (cs : List Char) : Option (List Char) :=
  match cs with
  | 'x' :: 'n' :: '-' :: '-' :: rest => if isEncoding rest then some cs else none
  | cs =>
    if isAscii cs then some cs
    else if ((cs.head?).map isCombining).getD false then none
    else some ("xn--".toList ++ Punycode.encode cs)

def ofChars? (cs : List Char) : Option (List Char) := do
  let folded := fold cs
  if folded.any isForbidden then none
  else
    let labels ← (pieces (· == '.') folded).mapM label?
    some (['.'].intercalate labels)

end Domain

namespace Ipv4

def digitsValue? (radix : Nat) (cs : List Char) : Option Nat :=
  cs.foldl (fun acc c => do
    let n ← acc
    let d ← Percent.hexValue? c
    if d < radix then some (n * radix + d) else none) (some 0)

def number? : List Char → Option Nat
  | [] => none
  | '0' :: 'x' :: rest => digitsValue? 16 rest
  | '0' :: 'X' :: rest => digitsValue? 16 rest
  | '0' :: c :: rest => digitsValue? 8 (c :: rest)
  | cs => digitsValue? 10 cs

def labels (cs : List Char) : List (List Char) :=
  let ps := pieces (· == '.') cs
  if ps.length > 1 ∧ ps.getLast? = some [] then ps.dropLast else ps

def endsInNumber (cs : List Char) : Bool :=
  match (labels cs).getLast? with
  | none => false
  | some last => !last.isEmpty && (last.all Char.isDigit || (number? last).isSome)

def ofNumbers? (ns : List Nat) : Option Nat :=
  let leading := ns.dropLast
  let last := ns.getLast?.getD 0
  if 4 < ns.length ∨ leading.any (255 < ·) ∨ Nat.pow 256 (4 - leading.length) ≤ last then none
  else some (leading.zipIdx.foldl (fun value (n, i) => value + n * Nat.pow 256 (3 - i)) last)

def ofChars? (cs : List Char) : Option Nat := do
  ofNumbers? (← (labels cs).mapM number?)

def render (n : Nat) : String :=
  ".".intercalate ([16777216, 65536, 256, 1].map fun unit => toString (n / unit % 256))

end Ipv4

namespace Ipv6

def piece? (cs : List Char) : Option Nat :=
  if cs.isEmpty ∨ 4 < cs.length then none else Ipv4.digitsValue? 16 cs

def byte? (cs : List Char) : Option Nat :=
  if cs.isEmpty ∨ 3 < cs.length ∨ (cs.length > 1 ∧ cs.head? = some '0') then none
  else (Ipv4.digitsValue? 10 cs).filter (· ≤ 255)

def tail4? (cs : List Char) : Option (List Nat) :=
  match (pieces (· == '.') cs).mapM byte? with
  | some [a, b, c, d] => some [a * 256 + b, c * 256 + d]
  | _ => none

def run? : List (List Char) → Option (List Nat)
  | [] => some []
  | [last] => if last.contains '.' then tail4? last else (piece? last).map fun n => [n]
  | p :: rest => do
    let n ← piece? p
    let ns ← run? rest
    some (n :: ns)

def side? (cs : List Char) : Option (List Nat) :=
  if cs.isEmpty then some [] else run? (pieces (· == ':') cs)

def splitGap : List Char → Option (List Char × List Char)
  | ':' :: ':' :: rest => some ([], rest)
  | c :: rest => (splitGap rest).map fun (a, b) => (c :: a, b)
  | [] => none

def ofChars? (cs : List Char) : Option (List Nat) :=
  match splitGap cs with
  | none => (side? cs).filter fun ns => ns.length == 8
  | some (before, after) => do
    if before.contains '.' then none
    let a ← side? before
    let b ← side? after
    if 7 < a.length + b.length then none
    else some (a ++ List.replicate (8 - a.length - b.length) 0 ++ b)

def zeros (ns : List Nat) : Nat := (ns.takeWhile (· == 0)).length

def gap? (ns : List Nat) : Option (Nat × Nat) :=
  let runs := (List.range ns.length).map fun i => (i, zeros (ns.drop i))
  runs.foldl (fun best r =>
    match best with
    | none => if 2 ≤ r.2 then some r else none
    | some b => if b.2 < r.2 then some r else some b) none

def renderRun (ns : List Nat) : String :=
  ":".intercalate (ns.map fun n => String.ofList (Nat.toDigits 16 n))

def render (ns : List Nat) : String :=
  match gap? ns with
  | none => renderRun ns
  | some (i, n) => renderRun (ns.take i) ++ "::" ++ renderRun (ns.drop (i + n))

end Ipv6

namespace Host

def render : Host → String
  | domain name => name
  | ipv4 address => Ipv4.render address
  | ipv6 ns => "[" ++ Ipv6.render ns ++ "]"

def bracketed (cs : List Char) : Except Fault Host :=
  match cs.getLast? with
  | some ']' => match Ipv6.ofChars? cs.dropLast with
    | some ns => .ok (.ipv6 ns)
    | none => .error .invalidIpv6
  | _ => .error .invalidIpv6

def ofChars : List Char → Except Fault Host
  | '[' :: rest => bracketed rest
  | cs =>
    match (String.fromUTF8? ⟨(Percent.decode cs).toArray⟩).bind fun s => Domain.ofChars? s.toList with
    | none => .error .invalidDomain
    | some [] => .error .emptyHost
    | some name =>
      if Ipv4.endsInNumber name then
        match Ipv4.ofChars? name with
        | some n => .ok (.ipv4 n)
        | none => .error .invalidIpv4
      else .ok (.domain (String.ofList name))

def isDelimiter (c : Char) : Bool :=
  c.toNat == 0 || c == ' ' || "\t\n\r#/:<>?@[\\]^|".contains c

def verbatim : List Char → Except Fault Host
  | '[' :: rest => bracketed rest
  | cs =>
    if cs.any isDelimiter then .error .invalidHostCharacter
    else .ok (.domain (String.ofList (Percent.encodeChars Percent.visible cs)))

end Host
end FleetControl.Url
