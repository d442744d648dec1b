import FleetControl.Decimal.Shortest
import FleetControl.Json.Value

namespace FleetControl.Json

def Number.style : Decimal.Style := ⟨-4, 15, 2⟩

def Number.render : Number → String
  | .whole n => toString n
  | .real bits => Decimal.renderBits Number.style bits

def hexDigits4 (n : Nat) : List Char :=
  let ds := Nat.toDigits 16 n
  List.replicate (4 - ds.length) '0' ++ ds

def escape (c : Char) : List Char :=
  match c with
  | '"' => ['\\', '"']
  | '\\' => ['\\', '\\']
  | '\n' => ['\\', 'n']
  | '\r' => ['\\', 'r']
  | '\t' => ['\\', 't']
  | '\x08' => ['\\', 'b']
  | '\x0c' => ['\\', 'f']
  | c => if c.toNat < 0x20 then ['\\', 'u'] ++ hexDigits4 c.toNat else [c]

def quote (s : String) : String :=
  String.ofList ('"' :: s.toList.flatMap escape ++ ['"'])

mutual
def compact : Json → String
  | .null => "null"
  | .bool b => if b then "true" else "false"
  | .number n => n.render
  | .text s => quote s
  | .list items => "[" ++ ",".intercalate (compactList items) ++ "]"
  | .object fields => "\x7b" ++ ",".intercalate (compactFields fields) ++ "\x7d"

def compactList : List Json → List String
  | [] => []
  | v :: rest => compact v :: compactList rest

def compactFields : List (String × Json) → List String
  | [] => []
  | (key, v) :: rest => (quote key ++ ":" ++ compact v) :: compactFields rest
end

def indentation (level : Nat) : String := String.ofList (List.replicate (2 * level) ' ')

def block (level : Nat) (opening closing : String) (items : List String) : String :=
  if items.isEmpty then opening ++ closing
  else
    let lead := "\n" ++ indentation (level + 1)
    opening ++ lead ++ ("," ++ lead).intercalate items ++ "\n" ++ indentation level ++ closing

mutual
def prettyAt (level : Nat) : Json → String
  | .list items => block level "[" "]" (prettyList (level + 1) items)
  | .object fields => block level "\x7b" "\x7d" (prettyFields (level + 1) fields)
  | .null => "null"
  | .bool b => if b then "true" else "false"
  | .number n => n.render
  | .text s => quote s

def prettyList (level : Nat) : List Json → List String
  | [] => []
  | v :: rest => prettyAt level v :: prettyList level rest

def prettyFields (level : Nat) : List (String × Json) → List String
  | [] => []
  | (key, v) :: rest => (quote key ++ ": " ++ prettyAt level v) :: prettyFields level rest
end

def pretty (v : Json) : String := prettyAt 0 v

end FleetControl.Json
