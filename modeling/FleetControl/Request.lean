import FleetControl.Record.Network

namespace FleetControl

inductive StopType
  | soft
  | hard
deriving DecidableEq, Repr

def StopType.name : StopType → String
  | soft => "soft"
  | hard => "hard"

inductive TimeoutAction
  | ignore
  | destroy
deriving DecidableEq, Repr

def TimeoutAction.name : TimeoutAction → String
  | ignore => "ignore"
  | destroy => "destroy"

inductive Request
  | start (uuid : String)
  | stop (uuid : String) (stopType : StopType)
  | restart (uuid : String) (stopType : StopType) (timeoutAction : TimeoutAction)
  | deleteServer (uuid : String) (withStorages : Bool)
  | load (uuid storage : String)
  | eject (uuid : String)
  | modifyStorage (uuid : String) (title : Option String) (size : Option Nat)
  | deleteStorage (uuid : String)
  | modifyNetwork (uuid : String) (name : Option String) (ipNetworks : List IpNetwork)
  | deleteNetwork (uuid : String)
  | modifyRouter (uuid name : String)
  | deleteRouter (uuid : String)
deriving DecidableEq, Repr

def Request.uuid : Request → String
  | start u | stop u _ | restart u _ _ | deleteServer u _ | load u _ | eject u => u
  | modifyStorage u _ _ | deleteStorage u | modifyNetwork u _ _ | deleteNetwork u => u
  | modifyRouter u _ | deleteRouter u => u

end FleetControl
