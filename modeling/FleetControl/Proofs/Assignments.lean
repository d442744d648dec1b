import Mathlib.Data.List.Forall2
import Mathlib.Data.List.TakeWhile
import FleetControl.Proofs.Division

namespace FleetControl.IpDefinition

variable {field : List Char} {fields : List (List Char)} {a : String × String}
  {as : List (String × String)} {n m : IpNetwork} {fault : Fault} {key value input : String}

def keys : List String := ["address", "family", "gateway", "dhcp", "dhcp-default-route", "dhcp-dns"]

def booleanKeys : List String := ["dhcp", "dhcp-default-route"]

def Fields (input : String) (fields : List (List Char)) : Prop :=
  ∃ parts, Divides input.toList parts ∧
    fields = (parts.map fun part => Text.trimChars (unquoted part)).filter (· ≠ [])

def Assigns (field : List Char) (a : String × String) : Prop :=
  ∃ left right, field = left ++ '=' :: right ∧ '=' ∉ left ∧
    a = (String.ofList (Text.trimChars left), String.ofList (Text.trimChars right))

def Admissible (a : String × String) : Prop :=
  a.1 ∈ keys ∧ (a.1 ∈ booleanKeys → a.2 = "true" ∨ a.2 = "false")

def WellFormed (field : List Char) : Prop := ∃ a, Assigns field a ∧ Admissible a

inductive Offends (field : List Char) : Fault → Prop
  | noValue : '=' ∉ field → Offends field (.noValue (String.ofList field))
  | unknownKey {a : String × String} : Assigns field a → a.1 ∉ keys → Offends field (.unknownKey a.1)
  | noBoolean {a : String × String} : Assigns field a → a.1 ∈ booleanKeys → a.2 ≠ "true" → a.2 ≠ "false" →
    Offends field (.noBoolean a.1 a.2)

def values (key : String) (as : List (String × String)) : List String :=
  (as.filter fun a => a.1 = key).map (·.2)

def nameServers (value : String) : List String :=
  (((value.toList.splitOn ',').map Text.trimChars).filter (· ≠ [])).map String.ofList

def extended (n : IpNetwork) (as : List (String × String)) : IpNetwork where
  address := (values "address" as).getLast?.or n.address
  family := (values "family" as).getLast?.or n.family
  gateway := (values "gateway" as).getLast?.or n.gateway
  dhcp := ((values "dhcp" as).getLast?.map (· == "true")).or n.dhcp
  dhcpDefaultRoute := ((values "dhcp-default-route" as).getLast?.map (· == "true")).or n.dhcpDefaultRoute
  dhcpDns := n.dhcpDns ++ (values "dhcp-dns" as).flatMap nameServers

def described (as : List (String × String)) : IpNetwork where
  address := (values "address" as).getLast?
  family := (values "family" as).getLast?
  gateway := (values "gateway" as).getLast?
  dhcp := (values "dhcp" as).getLast?.map (· == "true")
  dhcpDefaultRoute := (values "dhcp-default-route" as).getLast?.map (· == "true")
  dhcpDns := (values "dhcp-dns" as).flatMap nameServers

theorem extended_empty (as : List (String × String)) : extended .empty as = described as := by
  simp [extended, described, IpNetwork.empty]

theorem equals_not_mem_takeWhile (field : List Char) : '=' ∉ field.takeWhile (· ≠ '=') := by
  intro h
  simpa using List.mem_takeWhile_imp h

theorem keyValue?_eq_some_iff : keyValue? field = some a ↔ Assigns field a := by
  constructor
  · intro h
    have happend := List.takeWhile_append_dropWhile (p := (· ≠ '=')) (l := field)
    unfold keyValue? at h
    split at h
    · contradiction
    next d right hd =>
      have hequals : d = '=' := by
        have hne : field.dropWhile (· ≠ '=') ≠ [] := by simp only [hd, ne_eq, reduceCtorEq, not_false_iff]
        have hhead := List.head_dropWhile_not (· ≠ '=') hne
        simp only [hd, List.head_cons] at hhead
        simpa using hhead
      subst hequals
      rw [hd] at happend
      exact ⟨_, right, happend.symm, equals_not_mem_takeWhile field, (Option.some.inj h).symm⟩
  · rintro ⟨left, right, rfl, hn, rfl⟩
    have hpos : ∀ c ∈ left, decide (c ≠ '=') = true := by
      intro c hc
      simpa using ne_of_mem_of_not_mem hc hn
    have hdrop : (left ++ '=' :: right).dropWhile (· ≠ '=') = '=' :: right := by
      rw [List.dropWhile_append_of_pos hpos]
      rfl
    have htake : (left ++ '=' :: right).takeWhile (· ≠ '=') = left := by
      rw [List.takeWhile_append_of_pos hpos]
      simp
    simp only [keyValue?, hdrop, htake]

theorem keyValue?_eq_none_iff : keyValue? field = none ↔ '=' ∉ field := by
  rw [Option.eq_none_iff_forall_ne_some]
  constructor
  · intro h hmem
    obtain ⟨left, right, rfl, hn⟩ := List.eq_append_cons_of_mem hmem
    exact h _ (keyValue?_eq_some_iff.mpr ⟨left, right, rfl, hn, rfl⟩)
  · intro h a ha
    obtain ⟨left, right, rfl, _⟩ := keyValue?_eq_some_iff.mp ha
    simp at h

theorem splitCommas_eq (current cs : List Char) :
    splitCommas current cs = List.splitOnPPrepend (· == ',') cs current := by
  induction cs generalizing current with
  | nil => simp [splitCommas]
  | cons c cs ih => by_cases hc : c = ',' <;> simp [splitCommas, List.splitOnPPrepend_cons_eq_if, hc, ih]

theorem trimmed_eq (parts : List (List Char)) :
    trimmed parts = (parts.map Text.trimChars).filter (· ≠ []) := by
  apply List.filter_congr
  intro part _
  cases part <;> rfl

theorem dnsEntries_eq_nameServers (value : String) : dnsEntries value = nameServers value := by
  rw [dnsEntries, trimmed_eq, splitCommas_eq]
  rfl

theorem getLast?_values_self (key value : String) (as : List (String × String)) :
    (values key ((key, value) :: as)).getLast? = (values key as).getLast?.or (some value) := by
  simp [values, List.getLast?_cons]

theorem values_cons_ne {other : String} (h : key ≠ other) (value : String) (as : List (String × String)) :
    values other ((key, value) :: as) = values other as := by
  simp [values, h]

theorem boolean_eq_ok (key : String) (h : value = "true" ∨ value = "false") :
    boolean key value = .ok (value == "true") := by
  rcases h with rfl | rfl <;> rfl

theorem set_of_admissible (n : IpNetwork) (h : Admissible (key, value)) :
    ∃ m, set n key value = .ok m ∧ ∀ as, extended m as = extended n ((key, value) :: as) := by
  obtain ⟨hkey, hboolean⟩ := h
  simp only [keys, List.mem_cons, List.not_mem_nil, or_false] at hkey
  rcases hkey with rfl | rfl | rfl | rfl | rfl | rfl
  case inr.inr.inr.inl | inr.inr.inr.inr.inl =>
    have hvalue := hboolean (by simp [booleanKeys])
    refine ⟨_, by simp only [set, boolean_eq_ok _ hvalue]; rfl, fun as => ?_⟩
    simp [extended, getLast?_values_self, values_cons_ne]
  case inr.inr.inr.inr.inr =>
    have hvalues (as : List (String × String)) :
        values "dhcp-dns" (("dhcp-dns", value) :: as) = value :: values "dhcp-dns" as := by simp [values]
    refine ⟨_, rfl, fun as => ?_⟩
    simp [extended, values_cons_ne, hvalues, dnsEntries_eq_nameServers]
  all_goals
    refine ⟨_, rfl, fun as => ?_⟩
    simp [extended, getLast?_values_self, values_cons_ne]

theorem set_of_unknown (n : IpNetwork) (value : String) (h : key ∉ keys) :
    set n key value = .error (.unknownKey key) := by
  simp only [keys, List.mem_cons, List.not_mem_nil, or_false, not_or] at h
  obtain ⟨h₁, h₂, h₃, h₄, h₅, h₆⟩ := h
  unfold set
  split
  all_goals first | contradiction | rfl

theorem set_of_no_boolean (n : IpNetwork) (hkey : key ∈ booleanKeys) (ht : value ≠ "true")
    (hf : value ≠ "false") : set n key value = .error (.noBoolean key value) := by
  have hvalue (key : String) : boolean key value = .error (.noBoolean key value) := by
    rw [boolean, if_neg ht, if_neg hf]
  simp only [booleanKeys, List.mem_cons, List.not_mem_nil, or_false] at hkey
  rcases hkey with rfl | rfl
  · simp only [set, hvalue]
    rfl
  · simp only [set, hvalue]
    rfl

theorem apply_of_assigns (n : IpNetwork) (h : Assigns field a) (ha : Admissible a) :
    ∃ m, apply n field = .ok m ∧ ∀ as, extended m as = extended n (a :: as) := by
  obtain ⟨m, hset, hm⟩ := set_of_admissible n ha
  exact ⟨m, by rw [apply, keyValue?_eq_some_iff.mpr h]; exact hset, hm⟩

theorem apply_of_offends (n : IpNetwork) (h : Offends field fault) : apply n field = .error fault := by
  cases h with
  | noValue hn => rw [apply, keyValue?_eq_none_iff.mpr hn]
  | unknownKey ha hkey =>
    rw [apply, keyValue?_eq_some_iff.mpr ha]
    exact set_of_unknown n _ hkey
  | noBoolean ha hkey ht hf =>
    rw [apply, keyValue?_eq_some_iff.mpr ha]
    exact set_of_no_boolean n hkey ht hf

theorem wellFormed_or_offends (field : List Char) : WellFormed field ∨ ∃ fault, Offends field fault := by
  cases hkv : keyValue? field with
  | none => exact .inr ⟨_, .noValue (keyValue?_eq_none_iff.mp hkv)⟩
  | some a =>
    have ha := keyValue?_eq_some_iff.mp hkv
    by_cases hkey : a.1 ∈ keys
    · by_cases hvalue : a.1 ∈ booleanKeys → a.2 = "true" ∨ a.2 = "false"
      · exact .inl ⟨a, ha, hkey, hvalue⟩
      · simp only [Classical.not_imp, not_or] at hvalue
        obtain ⟨hboolean, ht, hf⟩ := hvalue
        exact .inr ⟨_, .noBoolean ha hboolean ht hf⟩
    · exact .inr ⟨_, .unknownKey ha hkey⟩

theorem foldlM_of_assigns (h : List.Forall₂ (fun field a => Assigns field a ∧ Admissible a) fields as)
    (n : IpNetwork) : fields.foldlM apply n = .ok (extended n as) := by
  induction h generalizing n with
  | nil =>
    have hnil : extended n [] = n := by simp [extended, values]
    rw [hnil]
    rfl
  | @cons field a fields as ha _ ih =>
    obtain ⟨m, happly, hm⟩ := apply_of_assigns n ha.1 ha.2
    rw [List.foldlM_cons, happly, ← hm]
    exact ih m

theorem exists_assigns (h : ∀ field ∈ fields, WellFormed field) :
    ∃ as, List.Forall₂ (fun field a => Assigns field a ∧ Admissible a) fields as := by
  choose! assignment hassignment using h
  refine ⟨fields.map assignment, ?_⟩
  rw [List.forall₂_map_right_iff, List.forall₂_same]
  exact hassignment

theorem foldlM_of_offends {before after : List (List Char)} (hbefore : ∀ f ∈ before, WellFormed f)
    (h : Offends field fault) (n : IpNetwork) :
    (before ++ field :: after).foldlM apply n = .error fault := by
  obtain ⟨as, has⟩ := exists_assigns hbefore
  rw [List.foldlM_append, foldlM_of_assigns has]
  simp only [bind, Except.bind, List.foldlM_cons, apply_of_offends _ h]

theorem all_wellFormed_or_leftmost (fields : List (List Char)) :
    (∀ field ∈ fields, WellFormed field) ∨
      ∃ before field after fault, fields = before ++ field :: after ∧ (∀ f ∈ before, WellFormed f) ∧
        Offends field fault := by
  induction fields with
  | nil => exact .inl (by simp)
  | cons field fields ih =>
    obtain hfield | ⟨fault, hfault⟩ := wellFormed_or_offends field
    · obtain hall | ⟨before, next, after, fault, rfl, hbefore, hfault⟩ := ih
      · exact .inl (List.forall_mem_cons.mpr ⟨hfield, hall⟩)
      · exact .inr ⟨field :: before, next, after, fault, rfl,
          List.forall_mem_cons.mpr ⟨hfield, hbefore⟩, hfault⟩
    · exact .inr ⟨[], field, fields, fault, rfl, by simp, hfault⟩

inductive Fails (input : String) : Fault → Prop
  | openQuote : ¬ Even (input.toList.count '"') → Fails input (.openQuote input)
  | empty : Fields input [] → Fails input .empty
  | leftmost {before after : List (List Char)} {field : List Char} {fault : Fault} :
    Fields input (before ++ field :: after) → (∀ f ∈ before, WellFormed f) → Offends field fault →
    Fails input fault

theorem fields?_of_fields (h : Fields input fields) : fields? input = some fields := by
  obtain ⟨parts, hdivides, rfl⟩ := h
  rw [fields?, hdivides.pieces, Option.map_some, trimmed_eq, List.map_map]
  rfl

theorem exists_fields (h : Even (input.toList.count '"')) : ∃ fields, Fields input fields := by
  obtain ⟨parts, hdivides⟩ := exists_divides h
  exact ⟨_, parts, hdivides, rfl⟩

theorem even_of_fields (h : Fields input fields) : Even (input.toList.count '"') := by
  obtain ⟨parts, hdivides, _⟩ := h
  have hsome : pieces false [] input.toList ≠ none := by simp [hdivides.pieces]
  rw [ne_eq, pieces_eq_none_iff] at hsome
  simpa [Inside] using hsome

theorem parse_of_openQuote (h : ¬ Even (input.toList.count '"')) : parse input = .error (.openQuote input) := by
  have hinside : Inside false input.toList := by simpa [Inside] using h
  rw [parse, fields?, (pieces_eq_none_iff []).mpr hinside]
  rfl

theorem parse_of_fields (h : Fields input fields) (hne : fields ≠ []) :
    parse input = fields.foldlM apply .empty := by
  rw [parse, fields?_of_fields h]
  cases fields with
  | nil => exact absurd rfl hne
  | cons field fields => rfl

theorem parse_of_assigns (h : Fields input fields) (hne : fields ≠ [])
    (has : List.Forall₂ (fun field a => Assigns field a ∧ Admissible a) fields as) :
    parse input = .ok (described as) := by
  rw [parse_of_fields h hne, foldlM_of_assigns has, extended_empty]

theorem parse_of_fails (h : Fails input fault) : parse input = .error fault := by
  cases h with
  | openQuote hodd => exact parse_of_openQuote hodd
  | empty hfields => rw [parse, fields?_of_fields hfields]
  | leftmost hfields hbefore hfault =>
    rw [parse_of_fields hfields (by simp)]
    exact foldlM_of_offends hbefore hfault .empty

theorem describes_or_fails (input : String) :
    (∃ fields, Fields input fields ∧ fields ≠ [] ∧ ∀ field ∈ fields, WellFormed field) ∨
      ∃ fault, Fails input fault := by
  by_cases heven : Even (input.toList.count '"')
  · obtain ⟨fields, hfields⟩ := exists_fields heven
    by_cases hne : fields = []
    · exact .inr ⟨_, .empty (hne ▸ hfields)⟩
    · obtain hall | ⟨before, field, after, fault, rfl, hbefore, hfault⟩ := all_wellFormed_or_leftmost fields
      · exact .inl ⟨fields, hfields, hne, hall⟩
      · exact .inr ⟨fault, .leftmost hfields hbefore hfault⟩
  · exact .inr ⟨_, .openQuote heven⟩

/-- A definition is accepted if its quotes are closed, it has a field, and each of its fields assigns an
admissible value to a key. Then it describes a block by these assignments; otherwise it fails for one
reason. -/
theorem parse_reads_assignments (input : String) :
    ((∃ n, parse input = .ok n) ↔
      Even (input.toList.count '"') ∧
        ∃ fields, Fields input fields ∧ fields ≠ [] ∧ ∀ field ∈ fields, WellFormed field) ∧
    (∀ n, parse input = .ok n ↔
      ∃ fields as, Fields input fields ∧ fields ≠ [] ∧
        List.Forall₂ (fun field a => Assigns field a ∧ Admissible a) fields as ∧ n = described as) ∧
    ∀ fault, parse input = .error fault ↔ Fails input fault := by
  have hok : ∀ n, parse input = .ok n ↔
      ∃ fields as, Fields input fields ∧ fields ≠ [] ∧
        List.Forall₂ (fun field a => Assigns field a ∧ Admissible a) fields as ∧ n = described as := by
    intro n
    constructor
    · intro h
      obtain ⟨fields, hfields, hne, hall⟩ | ⟨fault, hfault⟩ := describes_or_fails input
      · obtain ⟨as, has⟩ := exists_assigns hall
        rw [parse_of_assigns hfields hne has] at h
        exact ⟨fields, as, hfields, hne, has, (Except.ok.inj h).symm⟩
      · rw [parse_of_fails hfault] at h
        cases h
    · rintro ⟨fields, as, hfields, hne, has, rfl⟩
      exact parse_of_assigns hfields hne has
  refine ⟨?_, hok, ?_⟩
  · constructor
    · rintro ⟨n, h⟩
      obtain ⟨fields, as, hfields, hne, has, _⟩ := (hok n).mp h
      refine ⟨even_of_fields hfields, fields, hfields, hne, ?_⟩
      intro field hmem
      obtain ⟨i, hi, rfl⟩ := List.mem_iff_getElem.mp hmem
      exact ⟨_, has.get hi (has.length_eq ▸ hi)⟩
    · rintro ⟨_, fields, hfields, hne, hall⟩
      obtain ⟨as, has⟩ := exists_assigns hall
      exact ⟨_, parse_of_assigns hfields hne has⟩
  · intro fault
    constructor
    · intro h
      obtain ⟨fields, hfields, hne, hall⟩ | ⟨other, hother⟩ := describes_or_fails input
      · obtain ⟨as, has⟩ := exists_assigns hall
        rw [parse_of_assigns hfields hne has] at h
        cases h
      · obtain rfl : other = fault := by simpa [parse_of_fails hother] using h
        exact hother
    · exact parse_of_fails

example : parse "\"address\" = 10.0.0.0/24 , dhcp=\"true\",dhcp-dns=\"1.1.1.1, ,8.8.8.8\",dhcp=false" =
    .ok ⟨some "10.0.0.0/24", none, none, some false, none, ["1.1.1.1", "8.8.8.8"]⟩ := by rfl

end FleetControl.IpDefinition
