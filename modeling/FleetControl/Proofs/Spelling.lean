import FleetControl.Proofs.Trimming
import FleetControl.Proofs.Assignments

namespace FleetControl

open Text (Blank blank_nil trimChars trimLeft trimRight)

structure Quotable (value : String) : Prop where
  quotes : '"' ∉ value.toList
  trimmed : Text.trim value = value

namespace IpNetwork

structure Writable (n : IpNetwork) : Prop where
  address : ∀ value, n.address = some value → Quotable value
  family : ∀ value, n.family = some value → Quotable value
  gateway : ∀ value, n.gateway = some value → Quotable value
  dhcpDns : ∀ server ∈ n.dhcpDns, Quotable server ∧ server ≠ "" ∧ ',' ∉ server.toList

end IpNetwork

namespace IpDefinition

inductive Setting
  | address (value : String)
  | family (value : String)
  | gateway (value : String)
  | dhcp (on : Bool)
  | dhcpDefaultRoute (on : Bool)
  | dhcpDns (servers : List String)
deriving DecidableEq

namespace Setting

def key : Setting → String
  | address _ => "address"
  | family _ => "family"
  | gateway _ => "gateway"
  | dhcp _ => "dhcp"
  | dhcpDefaultRoute _ => "dhcp-default-route"
  | dhcpDns _ => "dhcp-dns"

def text : Setting → String
  | address value | family value | gateway value => value
  | dhcp on | dhcpDefaultRoute on => if on then "true" else "false"
  | dhcpDns servers => ",".intercalate servers

def servers? : Setting → Option (List String)
  | dhcpDns servers => some servers
  | _ => none

end Setting

variable {s : Setting} {settings : List Setting} {as : List (String × String)} {a : String × String}
  {part value cs rest padded : List Char} {n : IpNetwork} {key v : String} {quoted : Bool}

def Padded (cs padded : List Char) : Prop := ∃ a b, Blank a ∧ Blank b ∧ padded = a ++ cs ++ b

def Value (s : Setting) (value : List Char) : Prop :=
  match s with
  | .dhcpDns servers => ∃ entries, List.Forall₂ (fun server => Padded server.toList) servers entries ∧
      value = [','].intercalate entries
  | s => value = s.text.toList

def Spelled (s : Setting) (part : List Char) : Prop :=
  ∃ key value inner outer, Padded s.key.toList key ∧ Value s value ∧ Padded value inner ∧
    Padded ('"' :: inner ++ ['"']) outer ∧ part = key ++ '=' :: outer

def Spells (settings : List Setting) (input : String) : Prop :=
  ∃ parts, List.Forall₂ Spelled settings parts ∧ input.toList = [','].intercalate parts

def single (n : IpNetwork) : List Setting :=
  n.address.toList.map .address ++ n.family.toList.map .family ++ n.gateway.toList.map .gateway ++
    n.dhcp.toList.map .dhcp ++ n.dhcpDefaultRoute.toList.map .dhcpDefaultRoute

/-- The settings of a block in any order; its name servers stand, in their order, in any number of lists. -/
structure Arranges (n : IpNetwork) (settings : List Setting) : Prop where
  perm : settings.Perm (single n ++ (settings.filterMap Setting.servers?).map .dhcpDns)
  servers : (settings.filterMap Setting.servers?).flatten = n.dhcpDns
  ne_nil : [] ∉ settings.filterMap Setting.servers?

theorem part_append (hquote : '"' ∉ cs) (hcomma : ',' ∈ cs → quoted = true) :
    Part quoted (cs ++ rest) ↔ Part quoted rest := by
  induction cs with
  | nil => rfl
  | cons c cs ih =>
    have hc : c ≠ '"' := fun h => hquote (h ▸ List.mem_cons_self)
    have hcs := ih (mt (List.mem_cons_of_mem c) hquote) (fun h => hcomma (List.mem_cons_of_mem c h))
    rw [List.cons_append, part_cons hc, hcs]
    apply and_iff_right
    rintro rfl
    exact hcomma List.mem_cons_self

theorem unquoted_append (cs rest : List Char) : unquoted (cs ++ rest) = unquoted cs ++ unquoted rest :=
  List.filter_append ..

theorem unquoted_of_not_mem (h : '"' ∉ cs) : unquoted cs = cs := by
  apply List.filter_eq_self.mpr
  intro c hc
  simpa using ne_of_mem_of_not_mem hc h

theorem padded_self (cs : List Char) : Padded cs cs := ⟨[], [], blank_nil, blank_nil, by simp⟩

theorem padded_left {a : List Char} (ha : Blank a) (cs : List Char) : Padded cs (a ++ cs) :=
  ⟨a, [], ha, blank_nil, by simp⟩

theorem padded_right {b : List Char} (hb : Blank b) (cs : List Char) : Padded cs (cs ++ b) :=
  ⟨[], b, blank_nil, hb, by simp⟩

theorem Padded.not_mem {c : Char} (h : Padded cs padded) (hblank : Text.isBlank c = false) (hc : c ∉ cs) :
    c ∉ padded := by
  obtain ⟨a, b, ha, hb, rfl⟩ := h
  have ha' := ha.not_mem hblank
  have hb' := hb.not_mem hblank
  simp [ha', hc, hb']

theorem Padded.trimChars (h : Padded cs padded) : Text.trimChars padded = Text.trimChars cs := by
  obtain ⟨a, b, ha, hb, rfl⟩ := h
  exact Text.trimChars_append ha cs hb

theorem key_mem_keys (s : Setting) : s.key ∈ keys := by
  cases s <;> simp [Setting.key, keys]

theorem keys_plain : ∀ key ∈ keys, '"' ∉ key.toList ∧ ',' ∉ key.toList ∧ '=' ∉ key.toList ∧
    trimChars key.toList = key.toList := by decide

def Reads (s : Setting) (value : String) : Prop :=
  match s with
  | .dhcpDns servers => nameServers value = servers
  | s => value = s.text

def States (s : Setting) (a : String × String) : Prop := a.1 = s.key ∧ Reads s a.2

theorem part_of_spelled (h : Spelled s part) (hvalue : ∀ value, Value s value → '"' ∉ value) :
    Part false part := by
  obtain ⟨key, value, inner, outer, hkey, hv, hinner, ⟨c, d, hc, hd, rfl⟩, rfl⟩ := h
  obtain ⟨hquote, hcomma, _⟩ := keys_plain s.key (key_mem_keys s)
  have hshape : key ++ '=' :: (c ++ ('"' :: inner ++ ['"']) ++ d) =
      key ++ ('=' :: (c ++ '"' :: (inner ++ '"' :: (d ++ [])))) := by simp
  rw [hshape]
  apply (part_append (hkey.not_mem rfl hquote) (absurd · (hkey.not_mem rfl hcomma))).mpr
  apply (part_cons (by decide)).mpr ⟨by decide, ?_⟩
  apply (part_append (hc.not_mem rfl) (absurd · (hc.not_mem rfl))).mpr
  apply part_quote.mpr
  apply (part_append (hinner.not_mem rfl (hvalue value hv)) fun _ => rfl).mpr
  apply part_quote.mpr
  apply (part_append (hd.not_mem rfl) (absurd · (hd.not_mem rfl))).mpr
  exact part_nil.mpr rfl

theorem assigns_of_spelled (h : Spelled s part) (hvalue : ∀ value, Value s value → '"' ∉ value) :
    ∃ value, Value s value ∧
      Assigns (trimChars (unquoted part)) (s.key, String.ofList (trimChars value)) := by
  obtain ⟨key, value, inner, outer, hkey, hv, hinner, ⟨c, d, hc, hd, rfl⟩, rfl⟩ := h
  obtain ⟨hquote, _, hequals, htrimmed⟩ := keys_plain s.key (key_mem_keys s)
  have hunquoted : unquoted (key ++ '=' :: (c ++ ('"' :: inner ++ ['"']) ++ d)) =
      key ++ '=' :: (c ++ inner ++ d) := by
    have hshape : key ++ '=' :: (c ++ ('"' :: inner ++ ['"']) ++ d) =
        (key ++ '=' :: c) ++ '"' :: (inner ++ '"' :: d) := by simp
    have hfirst : '"' ∉ key ++ '=' :: c := by
      have hc' : '"' ∉ c := hc.not_mem rfl
      simp [hkey.not_mem rfl hquote, hc']
    rw [hshape, unquoted_append (key ++ '=' :: c), unquoted_quote, unquoted_append inner, unquoted_quote,
      unquoted_of_not_mem hfirst, unquoted_of_not_mem (hinner.not_mem rfl (hvalue value hv)),
      unquoted_of_not_mem (hd.not_mem rfl)]
    simp
  refine ⟨value, hv, trimLeft key, trimRight (c ++ inner ++ d), ?_, ?_, ?_⟩
  · rw [hunquoted, Text.trimChars_around rfl]
  · intro hmem
    exact hkey.not_mem rfl hequals ((List.dropWhile_sublist _).subset hmem)
  · have hleft : trimChars (trimLeft key) = s.key.toList := by
      rw [Text.trimChars_trimLeft, hkey.trimChars, htrimmed]
    have hright : trimChars (trimRight (c ++ inner ++ d)) = trimChars value := by
      rw [Text.trimChars_trimRight, Text.trimChars_append hc inner hd, hinner.trimChars]
    rw [hleft, hright, String.ofList_toList]

theorem nameServers_comma (l r : List Char) : nameServers (String.ofList (l ++ ',' :: r)) =
    nameServers (String.ofList l) ++ nameServers (String.ofList r) := by
  simp [nameServers, List.splitOn_append_cons_self]

theorem nameServers_of_not_mem (h : ',' ∉ cs) :
    nameServers (String.ofList cs) = ([trimChars cs].filter (· ≠ [])).map String.ofList := by
  simp [nameServers, List.splitOn_eq_singleton h]

theorem nameServers_padded (h : Padded cs padded) :
    nameServers (String.ofList padded) = nameServers (String.ofList cs) := by
  have hplain {cs padded : List Char} (h : Padded cs padded) (hn : ',' ∉ cs) :
      nameServers (String.ofList padded) = nameServers (String.ofList cs) := by
    rw [nameServers_of_not_mem (h.not_mem rfl hn), nameServers_of_not_mem hn, h.trimChars]
  induction hlength : cs.length using Nat.strong_induction_on generalizing cs padded with
  | _ k ih =>
    by_cases hmem : ',' ∈ cs
    · obtain ⟨first, rest, rfl, hfirst⟩ := List.eq_append_cons_of_mem hmem
      obtain ⟨a, b, ha, hb, rfl⟩ := h
      have hshorter : rest.length < k := by
        simp only [List.length_append, List.length_cons] at hlength
        omega
      have hshape : a ++ (first ++ ',' :: rest) ++ b = (a ++ first) ++ ',' :: (rest ++ b) := by simp
      rw [hshape, nameServers_comma, nameServers_comma, hplain (padded_left ha first) hfirst,
        ih _ hshorter (padded_right hb rest) rfl]
    · exact hplain h hmem

theorem nameServers_trimChars (cs : List Char) :
    nameServers (String.ofList (trimChars cs)) = nameServers (String.ofList cs) :=
  (nameServers_padded (Text.exists_trimChars cs)).symm

theorem trimChars_eq_of_quotable (h : Quotable v) : trimChars v.toList = v.toList := by
  have htrim := congrArg String.toList h.trimmed
  rwa [Text.trim, String.toList_ofList] at htrim

theorem nameServers_entries {servers : List String} {entries : List (List Char)}
    (h : List.Forall₂ (fun server => Padded server.toList) servers entries)
    (hservers : ∀ server ∈ servers, Quotable server ∧ server ≠ "" ∧ ',' ∉ server.toList)
    (hne : servers ≠ []) : nameServers (String.ofList ([','].intercalate entries)) = servers := by
  have hentry {server : String} {entry : List Char} (hpad : Padded server.toList entry)
      (hserver : Quotable server ∧ server ≠ "" ∧ ',' ∉ server.toList) :
      nameServers (String.ofList entry) = [server] := by
    obtain ⟨hquotable, hempty, hcomma⟩ := hserver
    rw [nameServers_padded hpad, nameServers_of_not_mem hcomma, trimChars_eq_of_quotable hquotable]
    simp [hempty]
  induction h with
  | nil => exact absurd rfl hne
  | @cons server entry servers entries hpad hrest ih =>
    obtain ⟨hserver, hothers⟩ := List.forall_mem_cons.mp hservers
    cases hrest with
    | nil => rw [List.intercalate_singleton, hentry hpad hserver]
    | cons hnext hlater =>
      rw [List.intercalate_cons_cons, List.append_assoc, List.singleton_append, nameServers_comma,
        hentry hpad hserver, ih hothers (List.cons_ne_nil _ _)]
      rfl

def Setting.Writable (s : Setting) : Prop :=
  match s with
  | .address value | .family value | .gateway value => Quotable value
  | .dhcp _ | .dhcpDefaultRoute _ => True
  | .dhcpDns servers =>
    servers ≠ [] ∧ ∀ server ∈ servers, Quotable server ∧ server ≠ "" ∧ ',' ∉ server.toList

theorem not_mem_intercalate {c : Char} {entries : List (List Char)} (hc : c ≠ ',')
    (h : ∀ e ∈ entries, c ∉ e) : c ∉ [','].intercalate entries := by
  induction entries with
  | nil => simp
  | cons entry entries ih =>
    obtain ⟨hentry, hentries⟩ := List.forall_mem_cons.mp h
    cases entries with
    | nil => simpa using hentry
    | cons next later =>
      have hrest := ih hentries
      rw [List.intercalate_cons_cons]
      simp [hentry, hc, hrest]

theorem not_mem_value (h : s.Writable) (hv : Value s value) : '"' ∉ value := by
  cases s with
  | address v | family v | gateway v =>
    obtain rfl : value = v.toList := hv
    exact h.quotes
  | dhcp on | dhcpDefaultRoute on =>
    obtain rfl : value = (if on then "true" else "false").toList := hv
    cases on <;> decide
  | dhcpDns servers =>
    obtain ⟨entries, hentries, rfl⟩ := hv
    apply not_mem_intercalate (by decide)
    intro entry hmem
    obtain ⟨i, hi, rfl⟩ := List.mem_iff_getElem.mp hmem
    have hserver := h.2 _ (List.getElem_mem (hentries.length_eq ▸ hi))
    exact (hentries.get (hentries.length_eq ▸ hi) hi).not_mem rfl hserver.1.quotes

theorem reads_value (h : s.Writable) (hv : Value s value) : Reads s (String.ofList (trimChars value)) := by
  cases s with
  | address v | family v | gateway v =>
    obtain rfl : value = v.toList := hv
    rw [trimChars_eq_of_quotable h, String.ofList_toList]
    rfl
  | dhcp on | dhcpDefaultRoute on =>
    obtain rfl : value = (if on then "true" else "false").toList := hv
    cases on <;> rfl
  | dhcpDns servers =>
    obtain ⟨entries, hentries, rfl⟩ := hv
    apply (nameServers_trimChars _).trans
    exact nameServers_entries hentries h.2 h.1

theorem text_of_reads (h : Reads s v) (hkey : s.key ≠ "dhcp-dns") : v = s.text := by
  cases s with
  | dhcpDns => exact absurd rfl hkey
  | address | family | gateway | dhcp | dhcpDefaultRoute => exact h

theorem admissible_of_states (h : States s a) : Admissible a := by
  obtain ⟨hkey, hreads⟩ := h
  refine ⟨hkey ▸ key_mem_keys s, ?_⟩
  rw [hkey]
  cases s with
  | dhcp on | dhcpDefaultRoute on =>
    have hvalue : a.2 = if on then "true" else "false" := hreads
    intro _
    cases on
    · exact .inr hvalue
    · exact .inl hvalue
  | address | family | gateway | dhcpDns => simp [Setting.key, booleanKeys]

theorem states_of_spelled (h : Spelled s part) (hs : s.Writable) :
    ∃ a, (Assigns (trimChars (unquoted part)) a ∧ Admissible a) ∧ States s a := by
  obtain ⟨value, hvalue, hassigns⟩ := assigns_of_spelled h fun _ => not_mem_value hs
  have hstates : States s (s.key, String.ofList (trimChars value)) := ⟨rfl, reads_value hs hvalue⟩
  exact ⟨_, ⟨hassigns, admissible_of_states hstates⟩, hstates⟩

theorem mem_values_iff (h : List.Forall₂ States settings as) (hkey : key ≠ "dhcp-dns") :
    v ∈ values key as ↔ ∃ s ∈ settings, s.key = key ∧ s.text = v := by
  induction h with
  | nil => simp [values]
  | @cons s a settings as hstates _ ih =>
    have hfirst : v ∈ values key [a] ↔ s.key = key ∧ s.text = v := by
      obtain ⟨hk, hreads⟩ := hstates
      by_cases hsame : s.key = key
      · have htext := text_of_reads hreads (hsame ▸ hkey)
        simp [values, hk, hsame, htext, eq_comm]
      · simp [values, hk, hsame]
    have happend : values key (a :: as) = values key [a] ++ values key as := by
      rw [values, ← List.singleton_append, List.filter_append, List.map_append]
      rfl
    simp [happend, hfirst, ih]

theorem nameServers_values (h : List.Forall₂ States settings as) :
    (values "dhcp-dns" as).flatMap nameServers = (settings.filterMap Setting.servers?).flatten := by
  induction h with
  | nil => rfl
  | @cons s a settings as hstates _ ih =>
    obtain ⟨key, value⟩ := a
    obtain ⟨hkey, hreads⟩ := hstates
    cases s with
    | dhcpDns servers =>
      obtain rfl : key = "dhcp-dns" := hkey
      obtain rfl : nameServers value = servers := hreads
      have hfirst : values "dhcp-dns" (("dhcp-dns", value) :: as) = value :: values "dhcp-dns" as := by
        simp [values]
      rw [hfirst, List.flatMap_cons, ih]
      rfl
    | address | family | gateway | dhcp | dhcpDefaultRoute =>
      obtain rfl := hkey
      rw [values_cons_ne (by simp [Setting.key]), ih]
      rfl

theorem getLast?_eq {α : Type} {l : List α} {o : Option α} (h : ∀ x, x ∈ l ↔ o = some x) :
    l.getLast? = o := by
  cases o with
  | none =>
    have hnil : l = [] := List.eq_nil_iff_forall_not_mem.mpr fun x hx => by simpa using (h x).mp hx
    rw [hnil, List.getLast?_nil]
  | some x =>
    have hne : l ≠ [] := List.ne_nil_of_mem ((h x).mpr rfl)
    have hlast := (h _).mp (List.getLast_mem hne)
    rw [List.getLast?_eq_some_getLast hne, hlast]

theorem mem_iff_of_arranges (h : Arranges n settings) (hs : s.servers? = none) :
    s ∈ settings ↔ s ∈ single n := by
  have hother : ∀ servers, s ≠ .dhcpDns servers := by
    rintro servers rfl
    cases hs
  rw [h.perm.mem_iff]
  simp [hother, eq_comm]

theorem exists_single_iff (n : IpNetwork) (p : Setting → Prop) :
    (∃ s ∈ single n, p s) ↔
      (∃ v, n.address = some v ∧ p (.address v)) ∨ (∃ v, n.family = some v ∧ p (.family v)) ∨
      (∃ v, n.gateway = some v ∧ p (.gateway v)) ∨ (∃ on, n.dhcp = some on ∧ p (.dhcp on)) ∨
      ∃ on, n.dhcpDefaultRoute = some on ∧ p (.dhcpDefaultRoute on) := by
  have hmem {α : Type} (o : Option α) (f : α → Setting) :
      (∃ s ∈ o.toList.map f, p s) ↔ ∃ v, o = some v ∧ p (f v) := by
    simp [Option.mem_toList]
  simp only [single, List.mem_append, or_and_right, exists_or, hmem, or_assoc]

theorem getLast?_values (h : Arranges n settings) (has : List.Forall₂ States settings as)
    (hkey : key ≠ "dhcp-dns") {o : Option String}
    (ho : ∀ v, (∃ s ∈ single n, s.key = key ∧ s.text = v) ↔ o = some v) :
    (values key as).getLast? = o := by
  apply getLast?_eq
  intro v
  have hmem {s : Setting} (hs : s.key = key ∧ s.text = v) : s ∈ settings ↔ s ∈ single n := by
    apply mem_iff_of_arranges h
    cases s with
    | dhcpDns => exact absurd hs.1.symm hkey
    | address | family | gateway | dhcp | dhcpDefaultRoute => rfl
  rw [mem_values_iff has hkey, ← ho v]
  exact exists_congr fun s => and_congr_left hmem

theorem described_eq (h : Arranges n settings) (has : List.Forall₂ States settings as) :
    described as = n := by
  have haddress : (values "address" as).getLast? = n.address := by
    apply getLast?_values h has (by decide)
    intro v
    simp [exists_single_iff, Setting.key, Setting.text]
  have hfamily : (values "family" as).getLast? = n.family := by
    apply getLast?_values h has (by decide)
    intro v
    simp [exists_single_iff, Setting.key, Setting.text]
  have hgateway : (values "gateway" as).getLast? = n.gateway := by
    apply getLast?_values h has (by decide)
    intro v
    simp [exists_single_iff, Setting.key, Setting.text]
  have hdhcp : (values "dhcp" as).getLast? = n.dhcp.map fun on => if on then "true" else "false" := by
    apply getLast?_values h has (by decide)
    intro v
    simp [exists_single_iff, Setting.key, Setting.text]
  have hroute : (values "dhcp-default-route" as).getLast? =
      n.dhcpDefaultRoute.map fun on => if on then "true" else "false" := by
    apply getLast?_values h has (by decide)
    intro v
    simp [exists_single_iff, Setting.key, Setting.text]
  have hback : (fun on : Bool => (if on then "true" else "false") == "true") = id := by
    funext on
    cases on <;> rfl
  rw [described, haddress, hfamily, hgateway, hdhcp, hroute, nameServers_values has, h.servers]
  simp [Function.comp_def, hback]

theorem writable_of_mem (h : n.Writable) (hn : Arranges n settings) (hs : s ∈ settings) : s.Writable := by
  have hsingle (hnone : s.servers? = none) : s ∈ single n := (mem_iff_of_arranges hn hnone).mp hs
  cases s with
  | address v => exact h.address v (by simpa [single] using hsingle rfl)
  | family v => exact h.family v (by simpa [single] using hsingle rfl)
  | gateway v => exact h.gateway v (by simpa [single] using hsingle rfl)
  | dhcp | dhcpDefaultRoute => trivial
  | dhcpDns servers =>
    have hmem : servers ∈ settings.filterMap Setting.servers? := List.mem_filterMap.mpr ⟨_, hs, rfl⟩
    refine ⟨?_, ?_⟩
    · exact ne_of_mem_of_not_mem hmem hn.ne_nil
    · intro server hserver
      exact h.dhcpDns server (hn.servers ▸ List.mem_flatten.mpr ⟨_, hmem, hserver⟩)

theorem settings_ne_nil (hn : Arranges n settings) (hset : n ≠ .empty) : settings ≠ [] := by
  rintro rfl
  exact hset (described_eq hn .nil).symm

theorem exists_spelled (s : Setting) : ∃ part, Spelled s part := by
  have hvalue : ∃ value, Value s value := by
    cases s with
    | dhcpDns servers =>
      refine ⟨_, servers.map String.toList, ?_, rfl⟩
      rw [List.forall₂_map_right_iff, List.forall₂_same]
      exact fun server _ => padded_self server.toList
    | address | family | gateway | dhcp | dhcpDefaultRoute => exact ⟨_, rfl⟩
  obtain ⟨value, hvalue⟩ := hvalue
  exact ⟨_, _, value, _, _, padded_self _, hvalue, padded_self _, padded_self _, rfl⟩

theorem exists_spells (settings : List Setting) : ∃ input, Spells settings input := by
  choose part hpart using exists_spelled
  refine ⟨String.ofList ([','].intercalate (settings.map part)), settings.map part, ?_, ?_⟩
  · rw [List.forall₂_map_right_iff, List.forall₂_same]
    exact fun s _ => hpart s
  · rw [String.toList_ofList]

theorem exists_states {parts : List (List Char)} (h : List.Forall₂ Spelled settings parts)
    (hs : ∀ s ∈ settings, s.Writable) :
    ∃ as, List.Forall₂ (fun field a => Assigns field a ∧ Admissible a)
        (parts.map fun part => trimChars (unquoted part)) as ∧ List.Forall₂ States settings as := by
  induction h with
  | nil => exact ⟨[], .nil, .nil⟩
  | cons hspelled _ ih =>
    obtain ⟨hfirst, hothers⟩ := List.forall_mem_cons.mp hs
    obtain ⟨a, hassigns, hstates⟩ := states_of_spelled hspelled hfirst
    obtain ⟨as, hall, hstatesAll⟩ := ih hothers
    exact ⟨a :: as, .cons hassigns hall, .cons hstates hstatesAll⟩

theorem divides_of_spells {parts : List (List Char)} {input : String} (hne : settings ≠ [])
    (hs : ∀ s ∈ settings, s.Writable) (hparts : List.Forall₂ Spelled settings parts)
    (hjoined : input.toList = [','].intercalate parts) : Divides input.toList parts := by
  refine ⟨hjoined.symm, ?_, ?_⟩
  · rintro rfl
    cases hparts
    exact hne rfl
  · intro part hpart
    obtain ⟨i, hi, rfl⟩ := List.mem_iff_getElem.mp hpart
    have hi' : i < settings.length := hparts.length_eq ▸ hi
    exact part_of_spelled (hparts.get hi' hi) fun _ => not_mem_value (hs _ (List.getElem_mem hi'))

theorem parse_of_arranges {input : String} (h : n.Writable) (hset : n ≠ .empty) (hn : Arranges n settings)
    (hinput : Spells settings input) : parse input = .ok n := by
  obtain ⟨parts, hparts, hjoined⟩ := hinput
  have hne := settings_ne_nil hn hset
  have hs : ∀ s ∈ settings, s.Writable := fun s => writable_of_mem h hn
  have hdivides := divides_of_spells hne hs hparts hjoined
  obtain ⟨as, hassigns, hstates⟩ := exists_states hparts hs
  have hfields : Fields input (parts.map fun part => trimChars (unquoted part)) := by
    refine ⟨parts, hdivides, (List.filter_eq_self.mpr ?_).symm⟩
    intro field hfield
    obtain ⟨i, hi, rfl⟩ := List.mem_iff_getElem.mp hfield
    obtain ⟨⟨left, right, hequals, _⟩, _⟩ := hassigns.get hi (hassigns.length_eq ▸ hi)
    rw [List.get_eq_getElem] at hequals
    simp [hequals]
  rw [parse_of_assigns hfields (by simpa using hdivides.ne_nil) hassigns, described_eq hn hstates]

theorem servers?_of_mem_single (hs : s ∈ single n) : s.servers? = none := by
  have hnot : ¬∃ s ∈ single n, s.servers? ≠ none := by simp [exists_single_iff, Setting.servers?]
  by_contra hsome
  exact hnot ⟨s, hs, hsome⟩

theorem arranges_lists {lists : List (List String)} (hall : lists.flatten = n.dhcpDns) (hne : [] ∉ lists) :
    Arranges n (single n ++ lists.map Setting.dhcpDns) := by
  have hservers : (single n ++ lists.map Setting.dhcpDns).filterMap Setting.servers? = lists := by
    have hfirst : (single n).filterMap Setting.servers? = [] :=
      List.filterMap_eq_nil_iff.mpr fun s => servers?_of_mem_single
    have hlists : (fun l => (Setting.dhcpDns l).servers?) = some := rfl
    rw [List.filterMap_append, hfirst, List.filterMap_map, Function.comp_def, hlists, List.filterMap_some]
    rfl
  exact ⟨by rw [hservers], by rw [hservers, hall], by rwa [hservers]⟩

/-- A block in which something is set can be written, its name servers in one list or one by one. Whatever
way it is written, in whatever order, it is read. -/
theorem parse_spelled_block (n : IpNetwork) (h : n.Writable) (hset : n ≠ .empty) :
    Arranges n (single n ++ n.dhcpDns.map fun server => .dhcpDns [server]) ∧
    (n.dhcpDns ≠ [] → Arranges n (single n ++ [.dhcpDns n.dhcpDns])) ∧
    ∀ settings, Arranges n settings →
      (∃ input, Spells settings input) ∧ ∀ input, Spells settings input → parse input = .ok n := by
  refine ⟨?_, ?_, ?_⟩
  · have hall : (n.dhcpDns.map fun server => [server]).flatten = n.dhcpDns := by
      rw [← List.flatMap_def, List.flatMap_singleton']
    have happart := arranges_lists hall (by simp)
    rwa [List.map_map] at happart
  · intro hne
    exact arranges_lists (List.flatten_singleton) (by simpa using hne)
  · intro settings hn
    exact ⟨exists_spells settings, fun input => parse_of_arranges h hset hn⟩

def berthBlock : IpNetwork :=
  ⟨none, none, some "via=eth0,eth1", some true, none, ["10.0.0.2", "10.0.0.3"]⟩

def berthSettings : List Setting :=
  [.dhcpDns ["10.0.0.2", "10.0.0.3"], .dhcp true, .gateway "via=eth0,eth1"]

def berthText : String :=
  "dhcp-dns = \"10.0.0.2 ,10.0.0.3\",dhcp=\"true\" , gateway=\" via=eth0,eth1\""

theorem berthText_spells : Spells berthSettings berthText := by
  have hblank : Blank [' '] := by simp [Blank, Text.isBlank]
  have hleft (cs : List Char) : Padded cs (' ' :: cs) := padded_left hblank cs
  have hright (cs : List Char) : Padded cs (cs ++ [' ']) := padded_right hblank cs
  refine ⟨["dhcp-dns = \"10.0.0.2 ,10.0.0.3\"".toList, "dhcp=\"true\" ".toList,
    " gateway=\" via=eth0,eth1\"".toList], .cons ?_ (.cons ?_ (.cons ?_ .nil)), by rfl⟩
  · exact ⟨_, _, _, _, hright _, ⟨_, .cons (hright _) (.cons (padded_self _) .nil), rfl⟩, padded_self _,
      hleft _, by rfl⟩
  · exact ⟨_, _, _, _, padded_self _, rfl, padded_self _, hright _, by rfl⟩
  · exact ⟨_, _, _, _, hleft _, rfl, hleft _, padded_self _, by rfl⟩

theorem berth_read : berthBlock.Writable ∧ berthBlock ≠ .empty ∧ Arranges berthBlock berthSettings ∧
    Spells berthSettings berthText ∧ parse berthText = .ok berthBlock := by
  have hwritable : berthBlock.Writable := by
    refine ⟨by simp [berthBlock], by simp [berthBlock], ?_, ?_⟩
    · rintro value ⟨⟩
      exact ⟨by decide, by rfl⟩
    · simp only [berthBlock, List.forall_mem_cons]
      exact ⟨⟨⟨by decide, by rfl⟩, by decide⟩, ⟨⟨by decide, by rfl⟩, by decide⟩, by simp⟩
  have hset : berthBlock ≠ .empty := by decide
  have harranged : Arranges berthBlock berthSettings := ⟨by decide, by decide, by decide⟩
  have hread := (parse_spelled_block berthBlock hwritable hset).2.2 berthSettings harranged
  exact ⟨hwritable, hset, harranged, berthText_spells, hread.2 berthText berthText_spells⟩

end IpDefinition
end FleetControl
