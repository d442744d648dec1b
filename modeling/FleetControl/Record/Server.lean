import FleetControl.Json.Shape

namespace FleetControl

structure Server where
  uuid : String
  title : String
  hostname : String
  state : String
  zone : String
  plan : String
deriving DecidableEq, Repr

namespace Server

open Json

def started : String := "started"
def stopped : String := "stopped"
def failed : String := "error"

def shape : Shaped Server :=
  Shape.record "Server"
    (fun fields => do
      let hostname ← Shape.field fields "hostname" Shape.text ""
      let plan ← Shape.field fields "plan" Shape.text ""
      let state ← Shape.field fields "state" Shape.text ""
      let title ← Shape.field fields "title" Shape.text ""
      let uuid ← Shape.field? fields "uuid" Shape.text
      let zone ← Shape.field fields "zone" Shape.text ""
      let uuid ← Shape.required "uuid" uuid
      .ok { uuid, title, hostname, state, zone, plan })
    (do
      let uuid ← Shape.requiredItem Shape.text (Shape.sized "Server" 6)
      let title ← Shape.item Shape.text ""
      let hostname ← Shape.item Shape.text ""
      let state ← Shape.item Shape.text ""
      let zone ← Shape.item Shape.text ""
      let plan ← Shape.item Shape.text ""
      pure { uuid, title, hostname, state, zone, plan })

def toJson (s : Server) : Json :=
  .object [("uuid", .text s.uuid), ("title", .text s.title), ("hostname", .text s.hostname),
    ("state", .text s.state), ("zone", .text s.zone), ("plan", .text s.plan)]

def line (s : Server) : String :=
  s!"{s.uuid}  {s.title}  hostname={s.hostname} state={s.state} zone={s.zone} plan={s.plan}"

end Server
end FleetControl
