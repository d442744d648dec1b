import FleetControl.Record
import FleetControl.Request
import FleetControl.Wait

/-!
The remote side as a batch sees it, and clouds whose behaviour is written down beforehand. Every
answer is a function of the call and of how many calls came before it, so a run can be replayed.
-/
namespace FleetControl

inductive Fate
  | ok (record : Option Record)
  | error (error : ApiError)
  | panic (message : String)

structure Change where
  delay : Nat
  fate : Fate

structure Listing where
  delay : Nat
  outcome : Except ApiError (List Record)

structure Cloud where
  list : (call : Nat) → Kind → Listing
  change : (call : Nat) → Request → Change
  poll : Kind → (uuid : String) → (count : Nat) → Option Reply

structure Mutation where
  delay : Option Nat
  error : Option ApiError
  panic : Option String

/-- A cloud by its resources and by scripts. `listings` says how successive listings of any kind
turn out; those without an error, and those past its end, succeed. -/
structure Script where
  servers : List Server
  storages : List Storage
  networks : List Network
  routers : List Router
  listings : List (Option ApiError)
  listDelay : Nat
  mutations : List (String × Mutation)
  defaultDelay : Nat
  states : List (String × PollScript)

namespace Script

def empty : Script := ⟨[], [], [], [], [], 0, [], 0, []⟩

def records (s : Script) : Kind → List Record
  | .server => s.servers.map .server
  | .storage => s.storages.map .storage
  | .network => s.networks.map .network
  | .router => s.routers.map .router

def unknown (uuid : String) : ApiError := .status 404 "NOT_FOUND" s!"{uuid} does not exist"

def server? (s : Script) (uuid : String) : Option Server := s.servers.find? fun r => r.uuid == uuid
def storage? (s : Script) (uuid : String) : Option Storage := s.storages.find? fun r => r.uuid == uuid
def network? (s : Script) (uuid : String) : Option Network := s.networks.find? fun r => r.uuid == uuid
def router? (s : Script) (uuid : String) : Option Router := s.routers.find? fun r => r.uuid == uuid

def changed? (s : Script) : Request → Option (Option Record)
  | .start u | .stop u _ | .restart u _ _ | .load u _ | .eject u =>
    (s.server? u).map fun r => some (.server r)
  | .modifyStorage u title size =>
    (s.storage? u).map fun r =>
      some (.storage { r with title := title.getD r.title, size := size.getD r.size })
  | .modifyNetwork u name blocks =>
    (s.network? u).map fun r =>
      let ipNetworks := if blocks.isEmpty then r.ipNetworks else blocks
      some (.network { r with name := name.getD r.name, ipNetworks })
  | .modifyRouter u name => (s.router? u).map fun r => some (.router { r with name := name })
  | .deleteServer u _ => (s.server? u).map fun _ => none
  | .deleteStorage u => (s.storage? u).map fun _ => none
  | .deleteNetwork u => (s.network? u).map fun _ => none
  | .deleteRouter u => (s.router? u).map fun _ => none

def mutation? (s : Script) (uuid : String) : Option Mutation :=
  (s.mutations.find? fun m => m.1 == uuid).map (·.2)

def change (s : Script) (r : Request) : Change :=
  let m := (s.mutation? r.uuid).getD ⟨none, none, none⟩
  let fate : Fate := match m.panic, m.error with
    | some text, _ => .panic text
    | none, some e => .error e
    | none, none => match s.changed? r with
      | some record => .ok record
      | none => .error (unknown r.uuid)
  ⟨m.delay.getD s.defaultDelay, fate⟩

def state? (s : Script) (kind : Kind) (uuid : String) : Option String :=
  match kind with
  | .server => (s.server? uuid).map (·.state)
  | .storage => (s.storage? uuid).map (·.state)
  | _ => none

def states? (s : Script) (uuid : String) : Option PollScript :=
  (s.states.find? fun m => m.1 == uuid).map (·.2)

def poll (s : Script) (kind : Kind) (uuid : String) (count : Nat) : Option Reply :=
  match s.states? uuid with
  | some script => script.reply? count
  | none => match s.state? kind uuid with
    | some state => some ⟨0, .ok state⟩
    | none => some ⟨0, .error (unknown uuid)⟩

def cloud (s : Script) : Cloud where
  list call kind := ⟨s.listDelay, match (s.listings[call]?).join with
    | some e => .error e
    | none => .ok (s.records kind)⟩
  change _ r := s.change r
  poll := s.poll

def underWay (s : Script) (sent : List (Nat × Request)) (now : Nat) : Nat :=
  sent.countP fun (t, r) => t ≤ now && now < t + (s.change r).delay

def mostUnderWay (s : Script) (sent : List (Nat × Request)) : Nat :=
  (sent.map fun (t, _) => s.underWay sent t).foldl max 0

end Script
end FleetControl
