import FleetControl.Record

namespace FleetControl.Http

namespace Envelope

open Json

def typeName : Kind → String
  | .server => "Server"
  | .storage => "Storage"
  | .network => "Network"
  | .router => "Router"

def wrapped {α : Type} (name key : String) (shape : Shaped α) : Shaped α :=
  Shape.record name
    (fun fields => do Shape.required key (← Shape.field? fields key shape))
    (Shape.requiredItem shape (Shape.sized name 1))

def single (kind : Kind) : Shaped FleetControl.Record :=
  wrapped (typeName kind ++ "Envelope") kind.name (Record.shape kind)

def listed (kind : Kind) : Shaped (List FleetControl.Record) :=
  let items := Shape.list (Record.shape kind)
  Shape.record (typeName kind ++ "Items") (fun fields => Shape.field fields kind.name items [])
    (Shape.item items [])

def listing (kind : Kind) : Shaped (List FleetControl.Record) :=
  wrapped (typeName kind ++ "List") (kind.name ++ "s") (listed kind)

def ofRecord (r : FleetControl.Record) : Json := .object [(r.kind.name, r.toJson)]

def ofRecords (kind : Kind) (rs : List FleetControl.Record) : Json :=
  .object [(kind.name ++ "s", .object [(kind.name, .list (rs.map Record.toJson))])]

end Envelope

end FleetControl.Http
