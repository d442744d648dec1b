import FleetControl.Command
import FleetControl.Http.Request
import FleetControl.Proofs.Resolution
import FleetControl.Proofs.Spelling

namespace FleetControl

open Text (Blank)

namespace Json

inductive Hollow : Json → Prop
  | list {items : List Json} : (∀ v ∈ items, Hollow v) → Hollow (.list items)
  | object {fields : Fields} : (∀ field ∈ fields, Hollow field.2) → Hollow (.object fields)

theorem hollow_list_iff {items : List Json} : Hollow (.list items) ↔ ∀ v ∈ items, Hollow v :=
  ⟨fun h => by cases h with | list h => exact h, .list⟩

theorem hollow_object_iff {fields : Fields} : Hollow (.object fields) ↔ ∀ field ∈ fields, Hollow field.2 :=
  ⟨fun h => by cases h with | object h => exact h, .object⟩

theorem not_hollow_text (s : String) : ¬ Hollow (.text s) := by
  intro h
  cases h

end Json

open Json (Hollow hollow_list_iff hollow_object_iff not_hollow_text)

theorem IpNetwork.hollow_toJson_iff (n : IpNetwork) : n.toJson.Hollow ↔ n = .empty := by
  obtain ⟨address, family, gateway, dhcp, dhcpDefaultRoute, dhcpDns⟩ := n
  have hservers (servers : List String) :
      (∀ field ∈ (if servers.isEmpty then [] else [("dhcp_dns", Json.list (servers.map .text))]),
        Hollow field.2) ↔ servers = [] := by
    cases servers with
    | nil => simp
    | cons server servers => simp [hollow_list_iff, not_hollow_text]
  have htext (key : String) (value : Option String) :
      (∀ field ∈ ((value.map Json.text).map fun v => (key, v)).toList, Hollow field.2) ↔ value = none := by
    cases value <;> simp [not_hollow_text]
  have hswitch (key : String) (value : Option Bool) :
      (∀ field ∈ ((value.map ofYesNo).map fun v => (key, v)).toList, Hollow field.2) ↔ value = none := by
    cases value <;> simp [ofYesNo, not_hollow_text]
  simp only [toJson, hollow_object_iff, List.forall_mem_append, hservers, htext, hswitch, empty,
    IpNetwork.mk.injEq, and_assoc]

namespace IpDefinition

variable {definition value : String} {as : List (String × String)} {n : IpNetwork}

def NamesNoServer (definition : String) : Prop :=
  ∃ fields, Fields definition fields ∧ fields ≠ [] ∧ ∀ field ∈ fields, ∃ value,
    Assigns field ("dhcp-dns", value) ∧ ∀ c ∈ value.toList, Text.isBlank c ∨ c = ','

theorem nameServers_eq_nil_iff : nameServers value = [] ↔ ∀ c ∈ value.toList, Text.isBlank c ∨ c = ',' := by
  obtain ⟨cs, rfl⟩ : ∃ cs, value = String.ofList cs := ⟨value.toList, String.ofList_toList.symm⟩
  rw [String.toList_ofList]
  -- A comma divides the value into two shorter ones.
  induction hlength : cs.length using Nat.strong_induction_on generalizing cs with
  | _ k ih =>
    by_cases hmem : ',' ∈ cs
    · obtain ⟨first, rest, rfl, _⟩ := List.eq_append_cons_of_mem hmem
      simp only [List.length_append, List.length_cons] at hlength
      rw [nameServers_comma, List.append_eq_nil_iff, ih _ (by omega) _ rfl, ih _ (by omega) _ rfl,
        List.forall_mem_append, List.forall_mem_cons]
      simp
    · have hne : ∀ c ∈ cs, c ≠ ',' := fun c hc => ne_of_mem_of_not_mem hc hmem
      rw [nameServers_of_not_mem hmem, List.map_eq_nil_iff, List.filter_eq_nil_iff]
      simp only [List.forall_mem_singleton, decide_eq_true_eq, not_not, Text.trimChars_eq_nil_iff, Blank]
      exact forall₂_congr fun c hc => (or_iff_left (hne c hc)).symm

theorem values_eq_nil_iff (key : String) : values key as = [] ↔ ∀ a ∈ as, a.1 ≠ key := by
  simp [values]

theorem described_eq_empty_iff (h : ∀ a ∈ as, a.1 ∈ keys) :
    described as = .empty ↔ ∀ a ∈ as, a.1 = "dhcp-dns" ∧ nameServers a.2 = [] := by
  have hdns : (values "dhcp-dns" as).flatMap nameServers = [] ↔
      ∀ a ∈ as, a.1 = "dhcp-dns" → nameServers a.2 = [] := by
    rw [values, List.flatMap_eq_nil_iff, List.forall_mem_map]
    simp only [List.mem_filter, decide_eq_true_eq, and_imp]
  simp only [described, IpNetwork.empty, IpNetwork.mk.injEq, List.getLast?_eq_none_iff,
    Option.map_eq_none_iff, values_eq_nil_iff, hdns]
  constructor
  · rintro ⟨h₁, h₂, h₃, h₄, h₅, hservers⟩ a ha
    have hkey := h a ha
    simp only [keys, List.mem_cons, List.not_mem_nil, or_false] at hkey
    obtain hkey : a.1 = "dhcp-dns" := by grind
    exact ⟨hkey, hservers a ha hkey⟩
  · intro hall
    have hne {key : String} (hkey : key ≠ "dhcp-dns") : ∀ a ∈ as, a.1 ≠ key := by
      intro a ha
      rw [(hall a ha).1]
      exact hkey.symm
    exact ⟨hne (by decide), hne (by decide), hne (by decide), hne (by decide), hne (by decide),
      fun a ha _ => (hall a ha).2⟩

theorem exists_described (h : parse definition = .ok n) :
    ∃ fields as, Fields definition fields ∧ fields ≠ [] ∧
      List.Forall₂ (fun field a => Assigns field a ∧ Admissible a) fields as ∧ described as = n := by
  obtain ⟨fields, hfields, hne, hall⟩ | ⟨fault, hfault⟩ := describes_or_fails definition
  · obtain ⟨as, has⟩ := exists_assigns hall
    rw [parse_of_assigns hfields hne has] at h
    exact ⟨fields, as, hfields, hne, has, Except.ok.inj h⟩
  · rw [parse_of_fails hfault] at h
    cases h

theorem parse_eq_empty_iff : parse definition = .ok .empty ↔ NamesNoServer definition := by
  constructor
  · intro h
    obtain ⟨fields, as, hfields, hne, has, hempty⟩ := exists_described h
    have hkeys : ∀ a ∈ as, a.1 ∈ keys := by
      intro a ha
      obtain ⟨i, hi, rfl⟩ := List.mem_iff_getElem.mp ha
      exact (has.get (has.length_eq ▸ hi) hi).2.1
    refine ⟨fields, hfields, hne, fun field hfield => ?_⟩
    obtain ⟨i, hi, rfl⟩ := List.mem_iff_getElem.mp hfield
    have hassigns := (has.get hi (has.length_eq ▸ hi)).1
    obtain ⟨hkey, hnone⟩ := (described_eq_empty_iff hkeys).mp hempty _ (List.getElem_mem (has.length_eq ▸ hi))
    exact ⟨_, hkey ▸ hassigns, nameServers_eq_nil_iff.mp hnone⟩
  · rintro ⟨fields, hfields, hne, hall⟩
    choose! value hassigns hvalue using hall
    have has : List.Forall₂ (fun field a => Assigns field a ∧ Admissible a) fields
        (fields.map fun field => ("dhcp-dns", value field)) := by
      rw [List.forall₂_map_right_iff, List.forall₂_same]
      exact fun field hfield => ⟨hassigns field hfield, by simp [Admissible, keys, booleanKeys]⟩
    rw [parse_of_assigns hfields hne has, Except.ok.injEq, described_eq_empty_iff]
    · exact List.forall_mem_map.mpr fun field hfield => ⟨rfl, nameServers_eq_nil_iff.mpr (hvalue field hfield)⟩
    · exact List.forall_mem_map.mpr fun _ _ => by simp [keys]

end IpDefinition

theorem forall_mem_iff_of_forall₂ {α β : Type} {R : α → β → Prop} {P : α → Prop} {Q : β → Prop} {as : List α}
    {bs : List β} (h : List.Forall₂ R as bs) (hiff : ∀ a b, R a b → (P a ↔ Q b)) :
    (∀ a ∈ as, P a) ↔ ∀ b ∈ bs, Q b := by
  induction h with
  | nil => simp
  | cons hab _ ih => rw [List.forall_mem_cons, List.forall_mem_cons, hiff _ _ hab, ih]

namespace Command

variable {name : Option String} {definitions : List String} {command : Command}

theorem exists_blocks (h : modifyNetwork? name definitions = .ok command) :
    ∃ blocks, command = .modifyNetwork (Text.notBlank? name) blocks ∧
      List.Forall₂ (fun definition block => IpDefinition.parse definition = .ok block) definitions blocks ∧
      (Text.notBlank? name ≠ none ∨ blocks ≠ []) := by
  cases hall : definitions.mapM IpDefinition.parse with
  | error fault =>
    rw [modifyNetwork?, hall] at h
    cases h
  | ok blocks =>
    simp only [modifyNetwork?, hall, Except.mapError, bind, Except.bind] at h
    split at h
    next => cases h
    next hchange =>
      refine ⟨blocks, (Except.ok.inj h).symm, Catalog.mapM_ok_iff.mp hall, ?_⟩
      simpa [Classical.or_iff_not_imp_left, not_and] using hchange

theorem exists_body (name : Option String) (blocks : List IpNetwork) (uuid : String) :
    ∃ body, ((modifyNetwork name blocks).request uuid).body? = some body ∧
      (body.Hollow ↔ name = none ∧ ∀ block ∈ blocks, block = .empty) := by
  refine ⟨_, rfl, ?_⟩
  have hname : (∀ field ∈ (name.map fun n => ("name", Json.text n)).toList, Hollow field.2) ↔ name = none := by
    cases name <;> simp [not_hollow_text]
  have hblocks : (∀ field ∈ (if blocks.isEmpty then [] else [("ip_networks", Network.blocksToJson blocks)]),
      Hollow field.2) ↔ ∀ block ∈ blocks, block = .empty := by
    cases blocks with
    | nil => simp
    | cons block blocks =>
      simp [Network.blocksToJson, hollow_object_iff, hollow_list_iff, IpNetwork.hollow_toJson_iff]
  simp only [hollow_object_iff, List.forall_mem_singleton, List.forall_mem_append, hname, hblocks, and_comm]

/-- An accepted modification changes the name to one that is not blank, or it gives blocks. There is something in
each of them unless its definition names no server, and the request changes nothing at all if all definitions
are of this kind and there is no name. -/
theorem modification_hollow_iff (name : Option String) (definitions : List String) :
    (∀ definition, IpDefinition.parse definition = .ok .empty ↔ IpDefinition.NamesNoServer definition) ∧
      ∀ command, modifyNetwork? name definitions = .ok command → ∃ blocks,
        command = .modifyNetwork (Text.notBlank? name) blocks ∧
        List.Forall₂ (fun definition block => IpDefinition.parse definition = .ok block) definitions blocks ∧
        (Text.notBlank? name ≠ none ∨ blocks ≠ []) ∧ (∀ n, Text.notBlank? name = some n → ¬ Blank n.toList) ∧
        ((∀ block ∈ blocks, block ≠ .empty) ↔
          ∀ definition ∈ definitions, ¬ IpDefinition.NamesNoServer definition) ∧
        ∀ uuid, ∃ body, (command.request uuid).body? = some body ∧
          (body.Hollow ↔
            Text.notBlank? name = none ∧ ∀ definition ∈ definitions, IpDefinition.NamesNoServer definition) := by
  refine ⟨fun _ => IpDefinition.parse_eq_empty_iff, fun command h => ?_⟩
  obtain ⟨blocks, rfl, hblocks, hchange⟩ := exists_blocks h
  have hempty (definition : String) (block : IpNetwork) (hparse : IpDefinition.parse definition = .ok block) :
      IpDefinition.NamesNoServer definition ↔ block = .empty := by
    rw [← IpDefinition.parse_eq_empty_iff, hparse, Except.ok.injEq]
  refine ⟨blocks, rfl, hblocks, hchange, ?_, ?_, fun uuid => ?_⟩
  · intro n hn hblank
    have hsome := (Option.filter_eq_some_iff.mp hn).2
    simp [Text.allBlank, List.all_eq_true.mpr hblank] at hsome
  · exact (forall_mem_iff_of_forall₂ hblocks fun d b h => not_congr (hempty d b h)).symm
  · obtain ⟨body, hbody, hhollow⟩ := exists_body (Text.notBlank? name) blocks uuid
    refine ⟨body, hbody, hhollow.trans (and_congr_right fun _ => ?_)⟩
    exact (forall_mem_iff_of_forall₂ hblocks hempty).symm

theorem servers_without_one_accepted :
    modifyNetwork? none ["dhcp-dns="] = .ok (.modifyNetwork none [.empty]) ∧
      ∃ body, ((modifyNetwork none [.empty]).request "n-1").body? = some body ∧ body.Hollow ∧
        body.compact = "\x7b\"network\":\x7b\"ip_networks\":\x7b\"ip_network\":[\x7b\x7d]\x7d\x7d\x7d" := by
  obtain ⟨body, hbody, hhollow⟩ := exists_body none [.empty] "n-1"
  obtain rfl := Option.some.inj hbody
  exact ⟨rfl, _, hbody, hhollow.mpr ⟨rfl, by simp⟩, by rfl⟩

end Command
end FleetControl
