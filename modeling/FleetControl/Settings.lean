import FleetControl.Http.Call
import FleetControl.Text.Blank
import FleetControl.Url.Reader
import FleetControl.Yaml.Node

/-!
Settings. They come from a file, then from the environment and from flags, each layer overriding the
one before it where it says something.
-/
namespace FleetControl

structure Settings where
  username : Option String
  password : Option String
  apiUrl : String
  clientTimeout : Nat
  pollInterval : Nat
  unconfirmed : Nat
  workers : Nat
deriving DecidableEq, Repr

namespace Settings

def usual : Settings := ⟨none, none, "https://api.upcloud.com/1.3/", 120, 2000, 10, 10⟩

open Yaml

def isNullWord (s : String) : Bool := s == "null" || s == "Null" || s == "NULL" || s == "~"

def nullTag : String := "tag:yaml.org,2002:null"

def text? : Node → Option String
  | .scalar _ _ s => some s
  | _ => none

/-- Without quotes and tag, nothing and the word null stand for an absent text; with the null tag only
the word does, and nothing else may stand there. -/
def optionalText? : Node → Option (Option String)
  | .scalar .quoted _ s => some (some s)
  | .scalar .plain none s => some (if s = "" ∨ isNullWord s then none else some s)
  | .scalar .plain (some tag) s =>
    if tag ≠ nullTag then some (some s) else if isNullWord s then some none else none
  | _ => none

def digits? (radix : Nat) (cs : List Char) : Option Nat :=
  match cs with
  | [] => none
  | cs => Url.Ipv4.digitsValue? radix cs

def number? (cs : List Char) : Option Nat :=
  match cs with
  | '+' :: rest => unsigned? rest
  | cs => unsigned? cs
where
  unsigned? : List Char → Option Nat
    | '0' :: 'x' :: rest => digits? 16 rest
    | '0' :: 'o' :: rest => digits? 8 rest
    | '0' :: 'b' :: rest => digits? 2 rest
    | '0' :: _ :: _ => none
    | cs => digits? 10 cs

def count? : Node → Option Nat
  | .scalar .plain _ s => (number? s.toList).filter (· < Nat.pow 2 64)
  | _ => none

def set? (s : Settings) (key : String) (value : Node) : Option Settings :=
  match key with
  | "username" => (optionalText? value).map fun v => { s with username := v }
  | "password" => (optionalText? value).map fun v => { s with password := v }
  | "api_url" => (text? value).map fun v => { s with apiUrl := v }
  | "client_timeout_secs" => (count? value).map fun v => { s with clientTimeout := v }
  | "poll_interval_ms" => (count? value).map fun v => { s with pollInterval := v }
  | "max_actions_before_confirm" => (count? value).map fun v => { s with unconfirmed := v }
  | "workers" => (count? value).map fun v => { s with workers := v }
  | _ => some s

def keys : List String :=
  ["username", "password", "api_url", "client_timeout_secs", "poll_interval_ms",
    "max_actions_before_confirm", "workers"]

def ofEntries? (s : Settings) (made : List String) : List (Node × Node) → Option Settings
  | [] => some s
  | (k, v) :: rest => do
    let key ← text? k
    if key ∈ keys ∧ key ∈ made then none
    else ofEntries? (← s.set? key v) (key :: made) rest

def ofNode? : Node → Option Settings
  | .mapping entries => ofEntries? usual [] entries
  | .scalar .plain _ "" => some usual
  | _ => none

def ofYaml? (text : String) : Option Settings :=
  if Text.allBlank text then some usual
  else do
    match ← Node.ofText? text with
    | .nothing => some usual
    | .document root => ofNode? root

structure Environment where
  username : Option String
  password : Option String
  apiUrl : Option String
deriving DecidableEq, Repr

namespace Environment

def names : List String := ["UPCLOUD_USERNAME", "UPCLOUD_PASSWORD", "UPCLOUD_API_URL"]

def ofVariables (lookup : String → Option String) : Environment :=
  ⟨lookup "UPCLOUD_USERNAME", lookup "UPCLOUD_PASSWORD", lookup "UPCLOUD_API_URL"⟩

end Environment

def given (v : Option String) : Option String := v.filter (· ≠ "")

def withEnvironment (s : Settings) (e : Environment) : Settings :=
  { s with
    username := (given e.username).or s.username
    password := (given e.password).or s.password
    apiUrl := (given e.apiUrl).getD s.apiUrl }

def withFlags (s : Settings) (workers clientTimeout : Option Nat) : Settings :=
  { s with workers := workers.getD s.workers, clientTimeout := clientTimeout.getD s.clientTimeout }

def missing (what key name : String) : String :=
  s!"{what} not defined. Either define it as '{key}' in the config file, or as {name} env variable."

def credentials (s : Settings) : Except String Http.Credentials :=
  match given s.username, given s.password with
  | none, _ => .error (missing "User name" "username" "UPCLOUD_USERNAME")
  | some _, none => .error (missing "Password" "password" "UPCLOUD_PASSWORD")
  | some username, some password => .ok ⟨username, password⟩

def apiText (s : Settings) : String :=
  let raw := Text.trim s.apiUrl
  if raw.toList.getLast? = some '/' then raw else raw ++ "/"

structure BadApiUrl where
  given : String
  fault : Url.Fault
deriving DecidableEq, Repr

def BadApiUrl.message (e : BadApiUrl) : String := s!"invalid api_url '{e.given}'"

def apiBase (s : Settings) : Except BadApiUrl Url :=
  (Url.parse s.apiText).mapError fun fault => ⟨s.apiUrl, fault⟩

def interval (s : Settings) : Nat := max s.pollInterval 1

end Settings
end FleetControl
