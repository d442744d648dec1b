import FleetControl.Cloud
import FleetControl.Http.Request
import FleetControl.Url.Reader

/-!
The API over HTTP. A resource is named by its collection and its percent-encoded uuid below the base
URL.
-/
namespace FleetControl.Http

structure Client where
  base : Url
  credentials : Credentials
deriving DecidableEq, Repr

inductive Operation
  | list (kind : Kind)
  | get (kind : Kind) (uuid : String)
  | change (request : Request)
deriving DecidableEq, Repr

namespace Client

def url (c : Client) (path : String) : Except ApiError Url :=
  (c.base.join path).mapError fun e => .transport s!"invalid API URL for '{path}': {e.message}"

def resourcePath (collection uuid : String) (action : Option String) : String :=
  collection ++ "/" ++ Url.Percent.encode Url.Percent.unreserved uuid ++
    ((action.map fun a => "/" ++ a).getD "")

def resourceUrl (c : Client) (collection uuid : String) (action : Option String) : Except ApiError Url :=
  c.url (resourcePath collection uuid action)

def call (c : Client) : Operation → Except ApiError Call
  | .list kind => do
    let u ← c.url kind.name
    pure ⟨.get, u.render, none⟩
  | .get kind uuid => do
    let u ← c.resourceUrl kind.name uuid none
    pure ⟨.get, u.render, none⟩
  | .change r => do
    let u ← c.resourceUrl r.kind.name r.uuid r.action?
    pure ⟨r.method, u.render ++ r.query, r.body?⟩

def shown (call : Call) : String × Bool :=
  match Url.parse call.url with
  | .ok u => (u.withoutUser.render, u.scheme == "http" || u.scheme == "https")
  | .error _ => (call.url, false)

def answer (call : Call) : Exchange → Except ApiError Json
  | .answered status body =>
    if 200 ≤ status ∧ status < 300 then
      if body = "" then .ok .null else (Json.read body).mapError .decode
    else .error (ApiError.ofAnswer status body)
  | .broken reason => .error (.transport s!"failed to read response body: {reason}")
  | .unconnected => .error (.transport s!"error sending request for url ({(shown call).1})")

def send (net : Network) (count : Nat) (call : Call) : Nat × Except ApiError Json :=
  let (url, usable) := shown call
  if usable then
    let (delay, exchange) := net call count
    (delay, answer call exchange)
  else (0, .error (.transport s!"builder error for url ({url})"))

def decoded {α : Type} (shape : Json.Shaped α) (v : Json) : Except ApiError α :=
  (shape v).mapError fun e => .decode e.message

def perform {α : Type} (c : Client) (net : Network) (count : Nat) (o : Operation)
    (shape : Json.Shaped α) : Nat × Except ApiError α :=
  match c.call o with
  | .error e => (0, .error e)
  | .ok call =>
    let (delay, result) := send net count call
    (delay, result.bind (decoded shape))

def stateOf : Record → String
  | .server r => r.state
  | .storage r => r.state
  | _ => ""

def cloud (c : Client) (net : Network) : Cloud where
  list count kind :=
    let (delay, outcome) := c.perform net count (.list kind) (Envelope.listing kind)
    ⟨delay, outcome⟩
  change count r :=
    match c.perform net count (.change r) r.readAnswer with
    | (delay, .ok record) => ⟨delay, .ok record⟩
    | (delay, .error e) => ⟨delay, .error e⟩
  poll kind uuid count :=
    let (delay, record) := c.perform net count (.get kind uuid) (Envelope.single kind)
    some ⟨delay, record.map stateOf⟩

end Client
end FleetControl.Http
