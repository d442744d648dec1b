import FleetControl.Kind
import FleetControl.Record.Network
import FleetControl.Record.Router
import FleetControl.Record.Server
import FleetControl.Record.Storage

namespace FleetControl

inductive Record
  | server (record : Server)
  | storage (record : Storage)
  | network (record : Network)
  | router (record : Router)
deriving DecidableEq, Repr

namespace Record

def kind : Record → Kind
  | server _ => .server
  | storage _ => .storage
  | network _ => .network
  | router _ => .router

def uuid : Record → String
  | server r => r.uuid
  | storage r => r.uuid
  | network r => r.uuid
  | router r => r.uuid

def names : Record → List String
  | server r => [r.title, r.hostname]
  | storage r => [r.title]
  | network r => [r.name]
  | router r => [r.name]

def line : Record → String
  | server r => r.line
  | storage r => r.line
  | network r => r.line
  | router r => r.line

def toJson : Record → Json
  | server r => r.toJson
  | storage r => r.toJson
  | network r => r.toJson
  | router r => r.toJson

def shape : Kind → Json.Shaped Record
  | .server => fun v => (Server.shape v).map server
  | .storage => fun v => (Storage.shape v).map storage
  | .network => fun v => (Network.shape v).map network
  | .router => fun v => (Router.shape v).map router

end Record
end FleetControl
