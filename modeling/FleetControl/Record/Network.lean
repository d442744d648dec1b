import FleetControl.Json.Shape

namespace FleetControl

structure IpNetwork where
  address : Option String
  family : Option String
  gateway : Option String
  dhcp : Option Bool
  dhcpDefaultRoute : Option Bool
  dhcpDns : List String
deriving DecidableEq, Repr

structure Network where
  uuid : String
  name : String
  type : String
  zone : String
  router : Option String
  ipNetworks : List IpNetwork
deriving DecidableEq, Repr

open Json

def yesNo : Shaped Bool := Shape.choice [("yes", true), ("no", false)]

def ofYesNo (b : Bool) : Json := .text (if b then "yes" else "no")

namespace IpNetwork

def empty : IpNetwork := ⟨none, none, none, none, none, []⟩

def shape : Shaped IpNetwork :=
  Shape.record "IpNetwork"
    (fun fields => do
      let address ← Shape.field fields "address" (Shape.option Shape.text) none
      let dhcp ← Shape.field fields "dhcp" (Shape.option yesNo) none
      let dhcpDefaultRoute ← Shape.field fields "dhcp_default_route" (Shape.option yesNo) none
      let dhcpDns ← Shape.field fields "dhcp_dns" (Shape.list Shape.text) []
      let family ← Shape.field fields "family" (Shape.option Shape.text) none
      let gateway ← Shape.field fields "gateway" (Shape.option Shape.text) none
      .ok { address, family, gateway, dhcp, dhcpDefaultRoute, dhcpDns })
    (do
      let address ← Shape.item (Shape.option Shape.text) none
      let family ← Shape.item (Shape.option Shape.text) none
      let gateway ← Shape.item (Shape.option Shape.text) none
      let dhcp ← Shape.item (Shape.option yesNo) none
      let dhcpDefaultRoute ← Shape.item (Shape.option yesNo) none
      let dhcpDns ← Shape.item (Shape.list Shape.text) []
      pure { address, family, gateway, dhcp, dhcpDefaultRoute, dhcpDns })

def toJson (n : IpNetwork) : Json :=
  let optional (key : String) (v : Option Json) : List (String × Json) :=
    (v.map fun v => (key, v)).toList
  .object (optional "address" (n.address.map Json.text) ++ optional "family" (n.family.map Json.text) ++
    optional "gateway" (n.gateway.map Json.text) ++ optional "dhcp" (n.dhcp.map ofYesNo) ++
    optional "dhcp_default_route" (n.dhcpDefaultRoute.map ofYesNo) ++
    if n.dhcpDns.isEmpty then [] else [("dhcp_dns", .list (n.dhcpDns.map Json.text))])

end IpNetwork

namespace Network

def blocksShape : Shaped (List IpNetwork) :=
  Shape.record "IpNetworks"
    (fun fields => Shape.field fields "ip_network" (Shape.list IpNetwork.shape) [])
    (Shape.item (Shape.list IpNetwork.shape) [])

def shape : Shaped Network :=
  Shape.record "Network"
    (fun fields => do
      let ipNetworks ← Shape.field fields "ip_networks" blocksShape []
      let name ← Shape.field fields "name" Shape.text ""
      let router ← Shape.field fields "router" (Shape.option Shape.text) none
      let type ← Shape.field fields "type" Shape.text ""
      let uuid ← Shape.field? fields "uuid" Shape.text
      let zone ← Shape.field fields "zone" Shape.text ""
      let uuid ← Shape.required "uuid" uuid
      .ok { uuid, name, type, zone, router, ipNetworks })
    (do
      let uuid ← Shape.requiredItem Shape.text (Shape.sized "Network" 6)
      let name ← Shape.item Shape.text ""
      let type ← Shape.item Shape.text ""
      let zone ← Shape.item Shape.text ""
      let router ← Shape.item (Shape.option Shape.text) none
      let ipNetworks ← Shape.item blocksShape []
      pure { uuid, name, type, zone, router, ipNetworks })

def blocksToJson (blocks : List IpNetwork) : Json :=
  .object [("ip_network", .list (blocks.map IpNetwork.toJson))]

def toJson (n : Network) : Json :=
  .object ([("uuid", .text n.uuid), ("name", .text n.name), ("type", .text n.type),
    ("zone", .text n.zone)] ++ (n.router.map fun r => ("router", Json.text r)).toList ++
    [("ip_networks", blocksToJson n.ipNetworks)])

def blockText (b : IpNetwork) : String :=
  " [" ++ b.family.getD "-" ++ " " ++ b.address.getD "-" ++ "]"

def line (n : Network) : String :=
  s!"{n.uuid}  {n.name}  type={n.type} zone={n.zone}" ++
    ((n.router.map fun r => s!" router={r}").getD "") ++ String.join (n.ipNetworks.map blockText)

end Network
end FleetControl
