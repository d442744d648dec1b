import FleetControl.Kind
import FleetControl.Report
import FleetControl.Request

namespace FleetControl.CommandLine

inductive LogLevel
  | off
  | error
  | warn
  | info
  | debug
  | trace
deriving DecidableEq, Repr

namespace LogLevel

def all : List LogLevel := [off, error, warn, info, debug, trace]

def name : LogLevel → String
  | off => "off"
  | error => "error"
  | warn => "warn"
  | info => "info"
  | debug => "debug"
  | trace => "trace"

end LogLevel

structure Flags where
  config : Option String
  logLevel : LogLevel
  output : OutputFormat
  wait : Bool
  force : Bool
  workers : Option Nat
  clientTimeout : Option Nat
deriving DecidableEq, Repr

inductive Action
  | startServers
  | stopServers (stopType : StopType)
  | restartServers (stopType : StopType) (timeoutAction : TimeoutAction)
  | deleteServers (withStorages : Bool)
  | load (storage : Option String)
  | eject
  | modifyStorages (title : Option String) (size : Option Nat)
  | deleteStorages
  | modifyNetworks (name : Option String) (definitions : List String)
  | deleteNetworks
  | modifyRouters (name : Option String)
  | deleteRouters
  | display (kind : Kind)
deriving DecidableEq, Repr

structure Invocation where
  flags : Flags
  action : Action
  tokens : List String
deriving DecidableEq, Repr

inductive Usage
  | help
  | version
  | helpInPlaceOfCommand
  | missingCommand
  | unknownCommand
  | unknownFlag
  | repeatedFlag
  | needlessValue
  | unsuitableValue
  | malformedValue
deriving DecidableEq, Repr

def Usage.exitCode : Usage → Nat
  | help | version => 0
  | _ => 2

end FleetControl.CommandLine
