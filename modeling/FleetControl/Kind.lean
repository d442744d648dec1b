namespace FleetControl

inductive Kind
  | server
  | storage
  | network
  | router
deriving DecidableEq, Repr

namespace Kind

def all : List Kind := [.server, .storage, .network, .router]

def name : Kind → String
  | server => "server"
  | storage => "storage"
  | network => "network"
  | router => "router"

def ofName? (s : String) : Option Kind := all.find? fun k => k.name == s

end Kind
end FleetControl
