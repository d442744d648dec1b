import FleetControl.Json.Shape

namespace FleetControl

structure Storage where
  uuid : String
  title : String
  state : String
  access : String
  type : String
  zone : String
  size : Nat
  tier : String
deriving DecidableEq, Repr

namespace Storage

open Json

def online : String := "online"
def failed : String := "error"

def shape : Shaped Storage :=
  Shape.record "Storage"
    (fun fields => do
      let access ← Shape.field fields "access" Shape.text ""
      let size ← Shape.field fields "size" Shape.nat32 0
      let state ← Shape.field fields "state" Shape.text ""
      let tier ← Shape.field fields "tier" Shape.text ""
      let title ← Shape.field fields "title" Shape.text ""
      let type ← Shape.field fields "type" Shape.text ""
      let uuid ← Shape.field? fields "uuid" Shape.text
      let zone ← Shape.field fields "zone" Shape.text ""
      let uuid ← Shape.required "uuid" uuid
      .ok { uuid, title, state, access, type, zone, size, tier })
    (do
      let uuid ← Shape.requiredItem Shape.text (Shape.sized "Storage" 8)
      let title ← Shape.item Shape.text ""
      let state ← Shape.item Shape.text ""
      let access ← Shape.item Shape.text ""
      let type ← Shape.item Shape.text ""
      let zone ← Shape.item Shape.text ""
      let size ← Shape.item Shape.nat32 0
      let tier ← Shape.item Shape.text ""
      pure { uuid, title, state, access, type, zone, size, tier })

def toJson (s : Storage) : Json :=
  .object [("uuid", .text s.uuid), ("title", .text s.title), ("state", .text s.state),
    ("access", .text s.access), ("type", .text s.type), ("zone", .text s.zone),
    ("size", .nat s.size), ("tier", .text s.tier)]

def line (s : Storage) : String :=
  s!"{s.uuid}  {s.title}  type={s.type} state={s.state} zone={s.zone} size={s.size}GB tier={s.tier}"

end Storage
end FleetControl
