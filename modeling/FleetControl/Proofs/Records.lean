import FleetControl.Http.Envelope
import FleetControl.Proofs.Schema

namespace FleetControl

open Json

theorem Server.shape_toJson (s : Server) : shape s.toJson = .ok s := by
  simp [shape, toJson, Shape.record, field_some, field?_some, get?_cons_self, get?_cons_ne, Shape.text,
    Shape.required, Except.map, ok_bind]

theorem Storage.shape_toJson {s : Storage} (h : s.size < Nat.pow 2 32) : shape s.toJson = .ok s := by
  have hsize := nat32_nat h
  simp [shape, toJson, Shape.record, field_some, field?_some, get?_cons_self, get?_cons_ne, Shape.text,
    Shape.required, Except.map, ok_bind, hsize]

theorem yesNo_ofYesNo (b : Bool) : yesNo (ofYesNo b) = .ok b := by
  cases b <;> simp [yesNo, ofYesNo, Shape.choice, Shape.choice.pick]

namespace IpNetwork

structure Written (n : IpNetwork) (fields : Fields) : Prop where
  address : fields.get? "address" = n.address.map .text
  family : fields.get? "family" = n.family.map .text
  gateway : fields.get? "gateway" = n.gateway.map .text
  dhcp : fields.get? "dhcp" = n.dhcp.map ofYesNo
  dhcpDefaultRoute : fields.get? "dhcp_default_route" = n.dhcpDefaultRoute.map ofYesNo
  dhcpDns : fields.get? "dhcp_dns" = if n.dhcpDns = [] then none else some (.list (n.dhcpDns.map .text))

theorem exists_written (n : IpNetwork) : ∃ fields, n.toJson = .object fields ∧ Written n fields := by
  refine ⟨_, rfl, ?_⟩
  have hdns (key : String) : Fields.get? (if n.dhcpDns.isEmpty then [] else
      [("dhcp_dns", .list (n.dhcpDns.map .text))]) key =
      if "dhcp_dns" = key ∧ n.dhcpDns ≠ [] then some (.list (n.dhcpDns.map .text)) else none := by
    by_cases h : n.dhcpDns = [] <;> simp [h, Fields.get?]
  constructor <;> simp only [get?_append, get?_toList, hdns] <;> simp

theorem shape_toJson (n : IpNetwork) : shape n.toJson = .ok n := by
  obtain ⟨fields, hfields, h⟩ := n.exists_written
  have htext (s : String) : Shape.text (.text s) = .ok s := rfl
  have haddress := field_option h.address (by simp) htext
  have hfamily := field_option h.family (by simp) htext
  have hgateway := field_option h.gateway (by simp) htext
  have hdhcp := field_option h.dhcp (by simp [ofYesNo]) yesNo_ofYesNo
  have hroute := field_option h.dhcpDefaultRoute (by simp [ofYesNo]) yesNo_ofYesNo
  have hdns : Shape.field fields "dhcp_dns" (Shape.list Shape.text) [] = .ok n.dhcpDns := by
    by_cases hnil : n.dhcpDns = []
    · rw [hnil]
      exact field_none (by simp [h.dhcpDns, hnil]) _ _
    · rw [field_some (h.dhcpDns.trans (if_neg hnil))]
      exact list_map fun s _ => htext s
  rw [hfields]
  simp only [shape, Shape.record, haddress, hfamily, hgateway, hdhcp, hroute, hdns, ok_bind]

end IpNetwork

namespace Network

theorem blocksShape_toJson (blocks : List IpNetwork) : blocksShape (blocksToJson blocks) = .ok blocks := by
  rw [blocksToJson, blocksShape, Shape.record, field_some (get?_cons_self _ _ _)]
  exact list_map fun n _ => n.shape_toJson

theorem shape_toJson (n : Network) : shape n.toJson = .ok n := by
  obtain ⟨uuid, name, type, zone, router, ipNetworks⟩ := n
  have hblocks := blocksShape_toJson ipNetworks
  cases router <;>
    simp [shape, toJson, Shape.record, field_some, field_none, field?_some, get?_nil, get?_cons_self,
      get?_cons_ne, Shape.text, Shape.required, Shape.option, Except.map, ok_bind, hblocks]

end Network

namespace Router

theorem attachmentShape_toJson (uuid : String) : attachmentShape (.object [("uuid", .text uuid)]) = .ok uuid := by
  simp [attachmentShape, Shape.record, field?_some, get?_cons_self, Shape.text, Shape.required, Except.map, ok_bind]

theorem shape_toJson (r : Router) : shape r.toJson = .ok r := by
  have hattached : attachmentsShape (.object
      [("network", .list (r.networks.map fun u => .object [("uuid", .text u)]))]) = .ok r.networks := by
    rw [attachmentsShape, Shape.record, field_some (get?_cons_self _ _ _)]
    exact list_map fun u _ => attachmentShape_toJson u
  simp [shape, toJson, Shape.record, field_some, field?_some, get?_cons_self, get?_cons_ne, Shape.text,
    Shape.required, Except.map, ok_bind, hattached]

end Router

namespace Server

def schema : Schema := .record ["uuid", "title", "hostname", "state", "zone", "plan"] fun _ => .whole

theorem respects_schema : Respects schema shape := by
  apply Respects.record
  intro fields others h
  simp [h.field, h.field?, respects_whole]

end Server

namespace Storage

def schema : Schema :=
  .record ["uuid", "title", "state", "access", "type", "zone", "size", "tier"] fun _ => .whole

theorem respects_schema : Respects schema shape := by
  apply Respects.record
  intro fields others h
  simp [h.field, h.field?, respects_whole]

end Storage

namespace IpNetwork

def schema : Schema :=
  .record ["address", "family", "gateway", "dhcp", "dhcp_default_route", "dhcp_dns"] fun _ => .whole

theorem respects_schema : Respects schema shape := by
  apply Respects.record
  intro fields others h
  simp [h.field, respects_whole]

end IpNetwork

namespace Network

def blocksSchema : Schema := .record ["ip_network"] fun _ => .list IpNetwork.schema

def schema : Schema :=
  .record ["uuid", "name", "type", "zone", "router", "ip_networks"] (Schema.only "ip_networks" blocksSchema)

theorem respects_blocksSchema : Respects blocksSchema blocksShape := by
  apply Respects.record
  intro fields others h
  exact h.field (by simp) IpNetwork.respects_schema.list _

theorem respects_schema : Respects schema shape := by
  apply Respects.record
  intro fields others h
  simp [h.field, h.field?, respects_whole, respects_blocksSchema, Schema.only]

end Network

namespace Router

def attachmentSchema : Schema := .record ["uuid"] fun _ => .whole

def attachmentsSchema : Schema := .record ["network"] fun _ => .list attachmentSchema

def schema : Schema :=
  .record ["uuid", "name", "type", "attached_networks"] (Schema.only "attached_networks" attachmentsSchema)

theorem respects_attachmentSchema : Respects attachmentSchema attachmentShape := by
  apply Respects.record
  intro fields others h
  simp [h.field?, respects_whole]

theorem respects_attachmentsSchema : Respects attachmentsSchema attachmentsShape := by
  apply Respects.record
  intro fields others h
  exact h.field (by simp) respects_attachmentSchema.list _

theorem respects_schema : Respects schema shape := by
  apply Respects.record
  intro fields others h
  simp [h.field, h.field?, respects_whole, respects_attachmentsSchema, Schema.only]

end Router

namespace Record

def schema : Kind → Schema
  | .server => Server.schema
  | .storage => Storage.schema
  | .network => Network.schema
  | .router => Router.schema

def Fits : Record → Prop
  | storage s => s.size < Nat.pow 2 32
  | _ => True

def Fitting (kind : Kind) (r : Record) : Prop := r.kind = kind ∧ r.Fits

variable {kind : Kind} {r : Record}

theorem shape_toJson (h : Fitting kind r) : shape kind r.toJson = .ok r := by
  obtain ⟨rfl, hfits⟩ := h
  cases r with
  | server s => exact map_ok s.shape_toJson server
  | storage s => exact map_ok (Storage.shape_toJson hfits) storage
  | network n => exact map_ok n.shape_toJson network
  | router r => exact map_ok r.shape_toJson router

theorem respects_schema (kind : Kind) : Respects (schema kind) (shape kind) := by
  cases kind with
  | server => exact Server.respects_schema.map server
  | storage => exact Storage.respects_schema.map storage
  | network => exact Network.respects_schema.map network
  | router => exact Router.respects_schema.map router

end Record

namespace Http.Envelope

def schema (key : String) (s : Schema) : Schema := .record [key] fun _ => s

def singleSchema (kind : Kind) : Schema := schema kind.name (Record.schema kind)

def listingSchema (kind : Kind) : Schema :=
  schema (kind.name ++ "s") (schema kind.name (.list (Record.schema kind)))

variable {α : Type} {name key : String} {shape : Shaped α} {s : Schema} {v : Json} {a : α} {kind : Kind}

theorem wrapped_object (h : shape v = .ok a) : wrapped name key shape (.object [(key, v)]) = .ok a := by
  simp [wrapped, Shape.record, field?_some (get?_cons_self key v []), h, Except.map, ok_bind, Shape.required]

theorem respects_wrapped (h : Respects s shape) : Respects (schema key s) (wrapped name key shape) := by
  apply Respects.record
  intro fields others hknown
  rw [hknown.field? (by simp) h]

/-- What is written is read back, and so is anything that differs from it in unknown fields only. -/
structure ReadsBack (P : α → Prop) (write : α → Json) (shape : Shaped α) (s : Schema) : Prop where
  back : ∀ a, P a → shape (write a) = .ok a
  alike : Respects s shape

theorem records_read_back (kind : Kind) :
    ReadsBack (Record.Fitting kind) Record.toJson (Record.shape kind) (Record.schema kind) ∧
      ReadsBack (Record.Fitting kind) ofRecord (single kind) (singleSchema kind) ∧
      ReadsBack (∀ r ∈ ·, Record.Fitting kind r) (ofRecords kind) (listing kind) (listingSchema kind) := by
  have halike := Record.respects_schema kind
  refine ⟨⟨fun r h => Record.shape_toJson h, halike⟩, ⟨?_, respects_wrapped halike⟩, ⟨?_, respects_wrapped ?_⟩⟩
  · rintro r ⟨rfl, hfits⟩
    exact wrapped_object (Record.shape_toJson ⟨rfl, hfits⟩)
  · intro rs h
    apply wrapped_object
    rw [listed, Shape.record, field_some (get?_cons_self _ _ _)]
    exact list_map fun r hr => Record.shape_toJson (h r hr)
  · apply Respects.record
    intro fields others hknown
    exact hknown.field (by simp) halike.list _

def yard : FleetControl.Record :=
  .network ⟨"03e4970d", "yard", "private", "fi-hel1", none,
    [⟨some "10.0.0.0/24", some "IPv4", none, some true, none, ["10.0.0.2", "10.0.0.3"]⟩]⟩

def yardListing : Json :=
  .object [("count", .nat 1), ("networks", .object [("network", .list [.object [("effective_routes", .list []),
    ("ip_networks", .object [("ip_network", .list [.object [("address", .text "10.0.0.0/24"),
      ("dhcp", .text "yes"), ("dhcp_dns", .list [.text "10.0.0.2", .text "10.0.0.3"]),
      ("family", .text "IPv4"), ("mask", .null)]]), ("more", .bool false)]),
    ("labels", .object [("uuid", .text "none")]), ("name", .text "yard"), ("type", .text "private"),
    ("uuid", .text "03e4970d"), ("zone", .text "fi-hel1")]]), ("total", .nat 1)])]

theorem yardListing_agrees : (listingSchema .network).Agree (ofRecords .network [yard]) yardListing := by
  simp [listingSchema, schema, Record.schema, Network.schema, Network.blocksSchema, IpNetwork.schema,
    Schema.only, Schema.Agree, Fields.get?, ofRecords, yard, yardListing, Kind.name, Record.toJson,
    Network.toJson, Network.blocksToJson, IpNetwork.toJson, ofYesNo]

theorem yard_read_back : Record.Fitting .network yard ∧
    (listingSchema .network).Agree (ofRecords .network [yard]) yardListing ∧
    listing .network yardListing = .ok [yard] := by
  have hfitting : Record.Fitting .network yard := ⟨rfl, trivial⟩
  obtain ⟨_, _, hlisting⟩ := records_read_back .network
  have hback := hlisting.back [yard] (List.forall_mem_singleton.mpr hfitting)
  exact ⟨hfitting, yardListing_agrees, (hlisting.alike _ _ yardListing_agrees).symm.trans hback⟩

end Http.Envelope

end FleetControl
