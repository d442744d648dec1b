import FleetControl.Json.Shape

namespace FleetControl

structure Router where
  uuid : String
  name : String
  type : String
  networks : List String
deriving DecidableEq, Repr

namespace Router

open Json

def attachmentShape : Shaped String :=
  Shape.record "RouterNetwork"
    (fun fields => do
      let uuid ← Shape.field? fields "uuid" Shape.text
      Shape.required "uuid" uuid)
    (Shape.requiredItem Shape.text (Shape.sized "RouterNetwork" 1))

def attachmentsShape : Shaped (List String) :=
  Shape.record "AttachedNetworks"
    (fun fields => Shape.field fields "network" (Shape.list attachmentShape) [])
    (Shape.item (Shape.list attachmentShape) [])

def shape : Shaped Router :=
  Shape.record "Router"
    (fun fields => do
      let networks ← Shape.field fields "attached_networks" attachmentsShape []
      let name ← Shape.field fields "name" Shape.text ""
      let type ← Shape.field fields "type" Shape.text ""
      let uuid ← Shape.field? fields "uuid" Shape.text
      let uuid ← Shape.required "uuid" uuid
      .ok { uuid, name, type, networks })
    (do
      let uuid ← Shape.requiredItem Shape.text (Shape.sized "Router" 4)
      let name ← Shape.item Shape.text ""
      let type ← Shape.item Shape.text ""
      let networks ← Shape.item attachmentsShape []
      pure { uuid, name, type, networks })

def toJson (r : Router) : Json :=
  .object [("uuid", .text r.uuid), ("name", .text r.name), ("type", .text r.type),
    ("attached_networks",
      .object [("network", .list (r.networks.map fun u => .object [("uuid", .text u)]))])]

def line (r : Router) : String :=
  s!"{r.uuid}  {r.name}  type={r.type} networks={r.networks.length}"

end Router
end FleetControl
