import FleetControl.IpDefinition
import FleetControl.Record
import FleetControl.Request

namespace FleetControl

inductive Rejection
  | noIdentifier
  | notOneIdentifier
  | nothingToModify (flags : String × String)
  | zeroSize
  | noName
  | noStorage
  | ipDefinition (fault : IpDefinition.Fault)
  | stated (message : String)
deriving DecidableEq, Repr

def Rejection.message : Rejection → String
  | noIdentifier => "at least one identifier required"
  | notOneIdentifier => "single identifier required"
  | nothingToModify (a, b) => s!"nothing to modify: give {a} or {b}"
  | zeroSize => "size must be greater than zero"
  | noName => "name is required"
  | noStorage => "storage is required"
  | ipDefinition fault => fault.message
  | stated message => message

inductive Risk
  | low
  | high
deriving DecidableEq, Repr

structure Expectation where
  target : String
  failureStates : List String
deriving DecidableEq, Repr

inductive Command
  | startServer
  | stopServer (stopType : StopType)
  | restartServer (stopType : StopType) (timeoutAction : TimeoutAction)
  | deleteServer (withStorages : Bool)
  | loadCdrom (storage : String)
  | ejectCdrom
  | modifyStorage (title : Option String) (size : Option Nat)
  | deleteStorage
  | modifyNetwork (name : Option String) (ipNetworks : List IpNetwork)
  | deleteNetwork
  | modifyRouter (name : String)
  | deleteRouter
deriving DecidableEq, Repr

namespace Command

def modifyStorage? (title : Option String) (size : Option Nat) : Except Rejection Command :=
  let title := Text.notBlank? title
  if title.isNone ∧ size.isNone then .error (.nothingToModify ("--title", "--size"))
  else if size = some 0 then .error .zeroSize
  else .ok (.modifyStorage title size)

def modifyNetwork? (name : Option String) (definitions : List String) : Except Rejection Command := do
  let name := Text.notBlank? name
  let blocks ← (definitions.mapM IpDefinition.parse).mapError Rejection.ipDefinition
  if name.isNone ∧ blocks.isEmpty then .error (.nothingToModify ("--name", "--ip-network"))
  else .ok (.modifyNetwork name blocks)

def modifyRouter? (name : Option String) : Except Rejection Command :=
  match Text.notBlank? name with
  | some name => .ok (.modifyRouter name)
  | none => .error .noName

def kind : Command → Kind
  | startServer | stopServer _ | restartServer _ _ | deleteServer _ | loadCdrom _ | ejectCdrom => .server
  | modifyStorage _ _ | deleteStorage => .storage
  | modifyNetwork _ _ | deleteNetwork => .network
  | modifyRouter _ | deleteRouter => .router

def describe (c : Command) (uuid : String) : String :=
  match c with
  | startServer => s!"Starting server {uuid}"
  | stopServer _ => s!"Stopping server {uuid}"
  | restartServer _ _ => s!"Restarting server {uuid}"
  | deleteServer withStorages =>
    s!"Deleting server {uuid}" ++ if withStorages then " and its storages" else ""
  | loadCdrom storage => s!"Loading storage {storage} as CD-ROM of server {uuid}"
  | ejectCdrom => s!"Ejecting CD-ROM from server {uuid}"
  | modifyStorage _ _ => s!"Modifying storage {uuid}"
  | deleteStorage => s!"Deleting storage {uuid}"
  | modifyNetwork _ _ => s!"Modifying network {uuid}"
  | deleteNetwork => s!"Deleting network {uuid}"
  | modifyRouter _ => s!"Modifying router {uuid}"
  | deleteRouter => s!"Deleting router {uuid}"

def request (c : Command) (uuid : String) : Request :=
  match c with
  | startServer => .start uuid
  | stopServer stopType => .stop uuid stopType
  | restartServer stopType timeoutAction => .restart uuid stopType timeoutAction
  | deleteServer withStorages => .deleteServer uuid withStorages
  | loadCdrom storage => .load uuid storage
  | ejectCdrom => .eject uuid
  | modifyStorage title size => .modifyStorage uuid title size
  | deleteStorage => .deleteStorage uuid
  | modifyNetwork name ipNetworks => .modifyNetwork uuid name ipNetworks
  | deleteNetwork => .deleteNetwork uuid
  | modifyRouter name => .modifyRouter uuid name
  | deleteRouter => .deleteRouter uuid

def risk : Command → Risk
  | deleteServer _ | deleteStorage | deleteNetwork | deleteRouter => .high
  | _ => .low

def expectation? : Command → Option Expectation
  | startServer | restartServer _ _ => some ⟨Server.started, [Server.failed]⟩
  | stopServer _ => some ⟨Server.stopped, [Server.failed]⟩
  | modifyStorage _ _ => some ⟨Storage.online, [Storage.failed]⟩
  | _ => none

end Command
end FleetControl
