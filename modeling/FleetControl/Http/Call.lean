import FleetControl.Json.Writer
import FleetControl.Text.Base64
import FleetControl.Text.Quoted

namespace FleetControl.Http

inductive Method
  | get
  | post
  | put
  | patch
  | delete
deriving DecidableEq, Repr

def Method.name : Method → String
  | get => "GET"
  | post => "POST"
  | put => "PUT"
  | patch => "PATCH"
  | delete => "DELETE"

structure Credentials where
  username : String
  password : String
deriving DecidableEq, Repr

namespace Credentials

def describe (c : Credentials) : String :=
  "Credentials \x7b username: " ++ Text.quoted c.username ++ ", password: \"***\" \x7d"

def authorization (c : Credentials) : String :=
  let bytes := (c.username ++ ":" ++ c.password).toList.flatMap String.utf8EncodeChar
  "Basic " ++ String.ofList (Text.Base64.encode bytes)

end Credentials

structure Call where
  method : Method
  url : String
  body : Option Json

def agent : String := "upctl/0.1.0"

def Call.headers (c : Call) (credentials : Credentials) : List (String × String) :=
  [("authorization", credentials.authorization), ("accept", "application/json")] ++
    (c.body.map fun _ => ("content-type", "application/json")).toList ++ [("user-agent", agent)]

inductive Exchange
  | answered (status : Nat) (body : String)
  | unconnected
  | broken (reason : String)
deriving DecidableEq, Repr

/-- The remote end. The exchange may depend on how many calls of its sort came before, and comes
with the time it takes. -/
abbrev Network := (call : Call) → (count : Nat) → Nat × Exchange

def Network.down : Network := fun _ _ => (0, .unconnected)

end FleetControl.Http
