namespace FleetControl.Url.Percent

def hexDigit (n : Nat) : Char := if n < 10 then Char.ofNat (0x30 + n) else Char.ofNat (0x41 + (n - 10))

def byte (b : UInt8) : List Char := ['%', hexDigit (b.toNat / 16), hexDigit (b.toNat % 16)]

def encodeChar (keep : Char → Bool) (c : Char) : List Char :=
  if keep c then [c] else (String.utf8EncodeChar c).flatMap byte

def encodeChars (keep : Char → Bool) (cs : List Char) : List Char := cs.flatMap (encodeChar keep)

def encode (keep : Char → Bool) (s : String) : String := String.ofList (encodeChars keep s.toList)

def unreserved (c : Char) : Bool := c.isAlphanum || c == '-' || c == '_' || c == '.' || c == '~'

def visible (c : Char) : Bool := 0x20 ≤ c.toNat && c.toNat < 0x7F

def inFragment (c : Char) : Bool :=
  visible c && c != ' ' && c != '"' && c != '<' && c != '>' && c != '`'

def inPath (c : Char) : Bool :=
  inFragment c && c != '#' && c != '?' && c != '\x7b' && c != '\x7d'

def inUserInfo (c : Char) : Bool := inPath c && !("/:;=@[\\]^|".contains c)

def inQuery (c : Char) : Bool :=
  visible c && c != ' ' && c != '"' && c != '#' && c != '<' && c != '>'

def inWebQuery (c : Char) : Bool := inQuery c && c != '\''

def hexValue? (c : Char) : Option Nat :=
  let n := c.toNat
  if 0x30 ≤ n ∧ n ≤ 0x39 then some (n - 0x30)
  else if 0x41 ≤ n ∧ n ≤ 0x46 then some (n - 0x41 + 10)
  else if 0x61 ≤ n ∧ n ≤ 0x66 then some (n - 0x61 + 10)
  else none

def decode : List Char → List UInt8
  | '%' :: a :: b :: rest =>
    match hexValue? a, hexValue? b with
    | some x, some y => UInt8.ofNat (16 * x + y) :: decode rest
    | _, _ => 0x25 :: decode (a :: b :: rest)
  | c :: rest => String.utf8EncodeChar c ++ decode rest
  | [] => []

end FleetControl.Url.Percent
