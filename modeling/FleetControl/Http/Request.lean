import FleetControl.Http.Call
import FleetControl.Http.Envelope
import FleetControl.Request

namespace FleetControl.Request

open Http

def kind : Request → Kind
  | start _ | stop _ _ | restart _ _ _ | deleteServer _ _ | load _ _ | eject _ => .server
  | modifyStorage _ _ _ | deleteStorage _ => .storage
  | modifyNetwork _ _ _ | deleteNetwork _ => .network
  | modifyRouter _ _ | deleteRouter _ => .router

def action? : Request → Option String
  | start _ => some "start"
  | stop _ _ => some "stop"
  | restart _ _ _ => some "restart"
  | load _ _ => some "cdrom/load"
  | eject _ => some "cdrom/eject"
  | _ => none

def method : Request → Method
  | start _ | stop _ _ | restart _ _ _ | load _ _ | eject _ => .post
  | deleteServer _ _ | deleteStorage _ | deleteNetwork _ | deleteRouter _ => .delete
  | modifyStorage _ _ _ | modifyNetwork _ _ _ => .put
  | modifyRouter _ _ => .patch

def query : Request → String
  | deleteServer _ true => "?storages=1"
  | _ => ""

def body? : Request → Option Json
  | stop _ stopType => some (.object [("stop_server", .object [("stop_type", .text stopType.name)])])
  | restart _ stopType timeoutAction =>
    some (.object [("restart_server",
      .object [("stop_type", .text stopType.name), ("timeout_action", .text timeoutAction.name)])])
  | load _ storage => some (.object [("storage_device", .object [("storage", .text storage)])])
  | modifyStorage _ title size =>
    some (.object [("storage", .object (
      (size.map fun n => ("size", Json.nat n)).toList ++
        (title.map fun t => ("title", Json.text t)).toList))])
  | modifyNetwork _ name blocks =>
    some (.object [("network", .object (
      (if blocks.isEmpty then [] else [("ip_networks", Network.blocksToJson blocks)]) ++
        (name.map fun n => ("name", Json.text n)).toList))])
  | modifyRouter _ name => some (.object [("router", .object [("name", .text name)])])
  | _ => none

def readAnswer (r : Request) (v : Json) : Except Json.ShapeFault (Option FleetControl.Record) :=
  match method r with
  | .delete => .ok none
  | _ => (Envelope.single (kind r) v).map some

end FleetControl.Request
