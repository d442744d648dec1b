import FleetControl.Proofs.Layout
import FleetControl.Proofs.Records
import FleetControl.Proofs.Verdict

/-!
The two renderings of an outcome tell one story. The JSON list has an object for each item, and what the
human format prints on either stream can be told from these objects alone.
-/
namespace FleetControl

open Json

section

variable {depth : Nat}

theorem Server.presentable_toJson (s : Server) : Presentable (depth + 1) s.toJson := by
  apply presentable_object
  simp [Legible.text]

theorem Storage.presentable_toJson {s : Storage} (h : s.size < Nat.pow 2 32) : Presentable (depth + 1) s.toJson := by
  have hsize : Presentable depth (.nat s.size) := .whole (fits_nat (Nat.lt_trans h (by decide)))
  apply presentable_object
  simp [Legible.text, hsize]

theorem Router.presentable_toJson (r : Router) : Presentable (depth + 4) r.toJson := by
  have hattached : ∀ v ∈ r.networks.map fun u => Json.object [("uuid", .text u)], Presentable (depth + 1) v :=
    List.forall_mem_map.mpr fun u _ => presentable_object (by simp [Legible.text])
  have hnetworks : Presentable (depth + 3)
      (.object [("network", .list (r.networks.map fun u => .object [("uuid", .text u)]))]) :=
    presentable_object (by simpa using Legible.list hattached)
  apply presentable_object
  simp [Legible.text, hnetworks]

theorem presentable_optional {α : Type} (key : String) (a : Option α) {write : α → Json}
    (h : ∀ a, Presentable depth (write a)) :
    ∀ f ∈ ((a.map write).map fun v => (key, v)).toList, Presentable depth f.2 := by
  cases a with
  | none => exact List.forall_mem_nil _
  | some a => exact List.forall_mem_singleton.mpr (h a)

theorem IpNetwork.presentable_toJson (n : IpNetwork) : Presentable (depth + 2) n.toJson := by
  have htext (s : String) : Presentable (depth + 1) (.text s) := .text s
  have hyesNo (b : Bool) : Presentable (depth + 1) (ofYesNo b) := by cases b <;> exact .text _
  have hdns : Presentable (depth + 1) (.list (n.dhcpDns.map .text)) :=
    .list (List.forall_mem_map.mpr fun s _ => .text s)
  apply presentable_object
  simp only [List.forall_mem_append]
  refine ⟨⟨⟨⟨⟨?_, ?_⟩, ?_⟩, ?_⟩, ?_⟩, ?_⟩
  · exact presentable_optional _ _ htext
  · exact presentable_optional _ _ htext
  · exact presentable_optional _ _ htext
  · exact presentable_optional _ _ hyesNo
  · exact presentable_optional _ _ hyesNo
  · split
    · exact List.forall_mem_nil _
    · exact List.forall_mem_singleton.mpr hdns

theorem Network.presentable_toJson (n : Network) : Presentable (depth + 5) n.toJson := by
  have hblocks : Presentable (depth + 4) (blocksToJson n.ipNetworks) := by
    have hlist : Presentable (depth + 3) (.list (n.ipNetworks.map IpNetwork.toJson)) :=
      .list (List.forall_mem_map.mpr fun b _ => b.presentable_toJson)
    exact presentable_object (List.forall_mem_singleton.mpr hlist)
  apply presentable_object
  cases n.router <;> simp [Legible.text, hblocks]

theorem Record.presentable_toJson {r : Record} (h : r.Fits) : Presentable (depth + 5) r.toJson := by
  cases r with
  | server s => exact s.presentable_toJson
  | storage s => exact Storage.presentable_toJson h
  | network n => exact n.presentable_toJson
  | router r => exact r.presentable_toJson

theorem Report.presentable_resultJson {r : Option Record} (h : ∀ record ∈ r, record.Fits) :
    Presentable (depth + 5) (resultJson r) := by
  cases r with
  | none => exact .null
  | some record => exact Record.presentable_toJson (h record rfl)

end

namespace Report

open Batch

variable {α : Type} {toJson : α → Json} {i : Item α} {o : Outcome α} {object : Json} {objects : List Json}

structure Tells (toJson : α → Json) (i : Item α) (object : Json) : Prop where
  token : object.get? "token" = some (.text i.token)
  uuid : object.get? "uuid" = some (.text i.uuid)
  result : object.get? "result" = i.result.toOption.map fun a => (toJson a).sortKeys
  error : object.get? "error" = i.error?.map fun e => .text e.shown
  either : (object.get? "result").isSome ↔ object.get? "error" = none
  others : ∀ key ∉ ["token", "uuid", "result", "error"], object.get? key = none

theorem get?_itemJson (toJson : α → Json) (i : Item α) (key : String) : (itemJson toJson i).get? key =
    if key = "token" then some (.text i.token) else if key = "uuid" then some (.text i.uuid)
    else if key = "result" then i.result.toOption.map fun a => (toJson a).sortKeys
    else if key = "error" then i.error?.map fun e => .text e.shown else none := by
  have hcons (k : String) (v : Json) (fields : Fields) :
      Fields.get? ((k, v) :: fields) key = if key = k then some v else fields.get? key := by
    split
    next heq => rw [heq, get?_cons_self]
    next hne => exact get?_cons_ne (Ne.symm hne) v fields
  rw [itemJson, Item.error?]
  cases i.result with
  | ok a =>
    simp only [get?, hcons, get?_nil, Except.toOption]
    grind
  | error e =>
    simp only [get?, hcons, get?_nil, Except.toOption]
    grind

theorem tells_itemJson (toJson : α → Json) (i : Item α) : Tells toJson i (itemJson toJson i) := by
  constructor
  case either =>
    rw [get?_itemJson, get?_itemJson, Item.error?]
    cases i.result <;> simp [Except.toOption]
  all_goals simp +contextual [get?_itemJson]

def okLine? (object : Json) : Option String := do
  let token ← (object.get? "token").bind text?
  let uuid ← (object.get? "uuid").bind text?
  (object.get? "result").map fun _ => line s!"{token} ({uuid}): ok"

def errorLine? (object : Json) : Option String := do
  let token ← (object.get? "token").bind text?
  let uuid ← (object.get? "uuid").bind text?
  let error ← (object.get? "error").bind text?
  some (line s!"{token} ({uuid}): {error}")

theorem Tells.okLine? (h : Tells toJson i object) :
    okLine? object = if i.error?.isNone then some (itemLine i "ok") else none := by
  have hline : line s!"{i.token} ({i.uuid}): ok" = itemLine i "ok" := by
    simp only [itemLine, String.append_assoc]
    rfl
  rw [Report.okLine?, h.token, h.uuid, h.result, Item.error?]
  cases i.result with
  | ok a => exact congrArg some hline
  | error e => rfl

theorem Tells.errorLine? (h : Tells toJson i object) :
    errorLine? object = i.error?.map fun e => itemLine i e.shown := by
  rw [Report.errorLine?, h.token, h.uuid, h.error]
  cases i.error? <;> simp [text?, itemLine]

theorem filterMap_okLine? {items : List (Item α)} (h : List.Forall₂ (Tells toJson) items objects) :
    objects.filterMap Report.okLine? = okLines items := by
  induction h with
  | nil => rfl
  | @cons i object items objects hi _ ih =>
    rw [List.filterMap_cons, hi.okLine?, ih, okLines, okLines, List.filter_cons]
    cases i.error?.isNone <;> rfl

theorem filterMap_errorLine? {items : List (Item α)} (h : List.Forall₂ (Tells toJson) items objects) :
    objects.filterMap Report.errorLine? = errorLines items := by
  induction h with
  | nil => rfl
  | @cons i object items objects hi _ ih =>
    rw [List.filterMap_cons, hi.errorLine?, ih]
    rfl

theorem legible_itemJson {depth : Nat} (h : ∀ a, i.result = .ok a → Presentable depth (toJson a)) :
    Legible (· < ·) (depth + 1) (itemJson toJson i) := by
  have hrest : ∀ f ∈ [("token", Json.text i.token), ("uuid", .text i.uuid)], Legible (· < ·) depth f.2 :=
    List.forall_mem_cons.mpr ⟨.text _, List.forall_mem_singleton.mpr (.text _)⟩
  rw [itemJson]
  split
  next a heq =>
    have hkeys : ["result", "token", "uuid"].Pairwise (· < ·) := by decide
    exact .object (List.forall_mem_cons.mpr ⟨(h a heq).sortKeys, hrest⟩) (List.pairwise_map.mp hkeys)
  next e heq =>
    have hkeys : ["error", "token", "uuid"].Pairwise (· < ·) := by decide
    exact .object (List.forall_mem_cons.mpr ⟨.text _, hrest⟩) (List.pairwise_map.mp hkeys)

/-- What an outcome is printed as in either format comes of the same objects, one for each item. -/
structure SameStory (toJson : α → Json) (o : Outcome α) (objects : List Json) : Prop where
  document : outcomeJson toJson o = .list objects
  tells : List.Forall₂ (Tells toJson) o.items objects
  json : outcome .json toJson o = ⟨line (Json.list objects).pretty, ""⟩
  human : outcome .human toJson o = ⟨String.join (okLines o.items), String.join (errorLines o.items)⟩
  retold : outcome .human toJson o =
    ⟨String.join (objects.filterMap okLine?), String.join (objects.filterMap errorLine?)⟩
  readBack : (∀ i ∈ o.items, ∀ a, i.result = .ok a → Presentable 125 (toJson a)) →
    read (outcome .json toJson o).out = .ok (.list objects)

theorem exists_sameStory (toJson : α → Json) (o : Outcome α) : ∃ objects, SameStory toJson o objects := by
  have htells : List.Forall₂ (Tells toJson) o.items (o.items.map (itemJson toJson)) := by
    rw [List.forall₂_map_right_iff, List.forall₂_same]
    exact fun i _ => tells_itemJson toJson i
  have hhuman : outcome .human toJson o = ⟨String.join (okLines o.items), String.join (errorLines o.items)⟩ := by
    rw [← join_itemOut, ← join_itemErr]
    rfl
  refine ⟨_, rfl, htells, rfl, hhuman, ?_, fun h => ?_⟩
  · rw [filterMap_okLine? htells, filterMap_errorLine? htells]
    exact hhuman
  · exact read_pretty (.list (List.forall_mem_map.mpr fun i hi => legible_itemJson (h i hi)))

def mixed : Outcome (Option FleetControl.Record) :=
  ⟨[⟨"data", "u1", .ok (some (.storage ⟨"u1", "data", "online", "private", "normal", "fi-hel1", 20, "hdd"⟩))⟩,
    ⟨"web-2", "u2", .error (.remote "web-2" (.status 409 "STATE" "The server is not stopped."))⟩,
    ⟨"web-3", "u3", .ok none⟩,
    ⟨"web-4", "u4", .error (.wait "web-4" (.timedOut "started"))⟩,
    ⟨"web-5", "u5", .error (.aborted "web-5" "cancelled")⟩]⟩

theorem mixed_read_back : (∀ i ∈ mixed.items, ∀ a, i.result = .ok a → Presentable 125 (resultJson a)) ∧
    read (outcome .json resultJson mixed).out = .ok (outcomeJson resultJson mixed) ∧
    outcome .human resultJson mixed = ⟨"data (u1): ok\nweb-3 (u3): ok\n",
      "web-2 (u2): The server is not stopped. (STATE)\n" ++
      "web-4 (u4): timed out waiting for state started\nweb-5 (u5): task aborted: cancelled\n"⟩ := by
  have hpresentable : ∀ i ∈ mixed.items, ∀ a, i.result = .ok a → Presentable 125 (resultJson a) := by
    intro i hi a hresult
    have hfits : ∀ record ∈ a, record.Fits := by
      simp only [mixed, List.mem_cons, List.not_mem_nil, or_false] at hi
      obtain rfl | rfl | rfl | rfl | rfl := hi <;> cases hresult <;> simp [Record.Fits]
    exact presentable_resultJson hfits
  obtain ⟨objects, h⟩ := exists_sameStory resultJson mixed
  refine ⟨hpresentable, ?_, ?_⟩
  · rw [h.document]
    exact h.readBack hpresentable
  · rw [h.human]
    decide

end Report
end FleetControl
