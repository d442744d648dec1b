import FleetControl.Record.Network
import FleetControl.Text.Blank

/-!
Address blocks as they are given on the command line, such as
`address=10.0.0.0/24,family=IPv4,dhcp=true,dhcp-dns="10.0.0.2,10.0.0.3"`. Fields are separated by
commas; between double quotes a comma belongs to the field.
-/
namespace FleetControl.IpDefinition

inductive Fault
  | openQuote (input : String)
  | empty
  | noValue (field : String)
  | noBoolean (key value : String)
  | unknownKey (key : String)
deriving DecidableEq, Repr

def Fault.message : Fault → String
  | openQuote input => s!"unterminated quote in '{input}'"
  | empty => "ip network definition is empty"
  | noValue field => s!"'{field}' is not in key=value form"
  | noBoolean key value => s!"'{value}' is an invalid value for {key}, it can be true or false"
  | unknownKey key => s!"unknown ip network key '{key}'"

/-- The pieces between commas outside quotes, without the quotes; none if a quote stays open.
`current` holds the piece so far, backwards. -/
def pieces (quoted : Bool) (current : List Char) : List Char → Option (List (List Char))
  | [] => if quoted then none else some [current.reverse]
  | '"' :: rest => pieces (!quoted) current rest
  | c :: rest =>
    if c = ',' ∧ quoted = false then (pieces quoted [] rest).map (current.reverse :: ·)
    else pieces quoted (c :: current) rest

def trimmed (ps : List (List Char)) : List (List Char) :=
  (ps.map Text.trimChars).filter fun p => !p.isEmpty

def fields? (input : String) : Option (List (List Char)) :=
  (pieces false [] input.toList).map trimmed

def keyValue? (field : List Char) : Option (String × String) :=
  match field.dropWhile (· ≠ '=') with
  | [] => none
  | _ :: value =>
    some (String.ofList (Text.trimChars (field.takeWhile (· ≠ '='))),
      String.ofList (Text.trimChars value))

def splitCommas (current : List Char) : List Char → List (List Char)
  | [] => [current.reverse]
  | c :: rest =>
    if c = ',' then current.reverse :: splitCommas [] rest else splitCommas (c :: current) rest

def dnsEntries (value : String) : List String :=
  (trimmed (splitCommas [] value.toList)).map String.ofList

def boolean (key value : String) : Except Fault Bool :=
  if value = "true" then .ok true
  else if value = "false" then .ok false
  else .error (.noBoolean key value)

def set (n : IpNetwork) (key value : String) : Except Fault IpNetwork :=
  match key with
  | "address" => .ok { n with address := some value }
  | "family" => .ok { n with family := some value }
  | "gateway" => .ok { n with gateway := some value }
  | "dhcp" => (boolean key value).map fun b => { n with dhcp := some b }
  | "dhcp-default-route" => (boolean key value).map fun b => { n with dhcpDefaultRoute := some b }
  | "dhcp-dns" => .ok { n with dhcpDns := n.dhcpDns ++ dnsEntries value }
  | _ => .error (.unknownKey key)

def apply (n : IpNetwork) (field : List Char) : Except Fault IpNetwork :=
  match keyValue? field with
  | none => .error (.noValue (String.ofList field))
  | some (key, value) => set n key value

def parse (input : String) : Except Fault IpNetwork :=
  match fields? input with
  | none => .error (.openQuote input)
  | some [] => .error .empty
  | some fields => fields.foldlM apply .empty

end FleetControl.IpDefinition
