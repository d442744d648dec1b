import Mathlib.Data.List.Basic
import FleetControl.Program

namespace FleetControl.Settings

open Yaml

inductive Field
  | username
  | password
  | apiUrl
  | clientTimeout
  | pollInterval
  | unconfirmed
  | workers
deriving DecidableEq, Repr

namespace Field

abbrev Value : Field → Type
  | username | password => Option String
  | apiUrl => String
  | clientTimeout | pollInterval | unconfirmed | workers => Nat

def all : List Field := [username, password, apiUrl, clientTimeout, pollInterval, unconfirmed, workers]

def key : Field → String
  | username => "username"
  | password => "password"
  | apiUrl => "api_url"
  | clientTimeout => "client_timeout_secs"
  | pollInterval => "poll_interval_ms"
  | unconfirmed => "max_actions_before_confirm"
  | workers => "workers"

def read? : (x : Field) → Node → Option x.Value
  | username, n | password, n => optionalText? n
  | apiUrl, n => text? n
  | clientTimeout, n | pollInterval, n | unconfirmed, n | workers, n => count? n

def IsOn (x : Field) (e : Node × Node) : Prop := text? e.1 = some x.key

instance (x : Field) : DecidablePred x.IsOn := fun e => inferInstanceAs (Decidable (text? e.1 = some x.key))

def inFile? (entries : List (Node × Node)) (x : Field) : Option x.Value :=
  entries.findSome? fun e => if x.IsOn e then x.read? e.2 else none

def said? : Option String → Option String
  | none | some "" => none
  | some text => some text

def inEnvironment? (lookup : String → Option String) : (x : Field) → Option x.Value
  | username => (said? (lookup "UPCLOUD_USERNAME")).map some
  | password => (said? (lookup "UPCLOUD_PASSWORD")).map some
  | apiUrl => said? (lookup "UPCLOUD_API_URL")
  | clientTimeout | pollInterval | unconfirmed | workers => none

def inFlags? (f : CommandLine.Flags) : (x : Field) → Option x.Value
  | clientTimeout => f.clientTimeout
  | workers => f.workers
  | username | password | apiUrl | pollInterval | unconfirmed => none

end Field

def get (s : Settings) : (x : Field) → x.Value
  | .username => s.username
  | .password => s.password
  | .apiUrl => s.apiUrl
  | .clientTimeout => s.clientTimeout
  | .pollInterval => s.pollInterval
  | .unconfirmed => s.unconfirmed
  | .workers => s.workers

def put (s : Settings) : (x : Field) → x.Value → Settings
  | .username, v => { s with username := v }
  | .password, v => { s with password := v }
  | .apiUrl, v => { s with apiUrl := v }
  | .clientTimeout, v => { s with clientTimeout := v }
  | .pollInterval, v => { s with pollInterval := v }
  | .unconfirmed, v => { s with unconfirmed := v }
  | .workers, v => { s with workers := v }

variable {s t : Settings} {x y : Field} {key path content : String} {e : Node × Node}
  {entries rest : List (Node × Node)} {made : List String} {file : FileState}

theorem get_put_self (s : Settings) (x : Field) (a : x.Value) : (s.put x a).get x = a := by
  cases x <;> rfl

theorem get_put_ne (h : y ≠ x) (s : Settings) (a : x.Value) : (s.put x a).get y = s.get y := by
  cases x <;> cases y <;> first | rfl | contradiction

theorem eq_of_get_eq (h : ∀ x, s.get x = t.get x) : s = t := by
  cases s
  cases t
  rw [Settings.mk.injEq]
  exact ⟨h .username, h .password, h .apiUrl, h .clientTimeout, h .pollInterval, h .unconfirmed, h .workers⟩

theorem exists_get_eq (a : (x : Field) → x.Value) : ∃ s : Settings, ∀ x, s.get x = a x :=
  ⟨⟨a .username, a .password, a .apiUrl, a .clientTimeout, a .pollInterval, a .unconfirmed, a .workers⟩,
    fun x => by cases x <;> rfl⟩

theorem key_injective (h : x.key = y.key) : x = y := by
  revert h
  cases x <;> cases y <;> simp [Field.key]

theorem mem_keys_iff : key ∈ keys ↔ ∃ x : Field, x.key = key := by
  have hkeys : keys = Field.all.map Field.key := rfl
  have hall : ∀ x, x ∈ Field.all := fun x => by cases x <;> decide
  rw [hkeys, List.mem_map]
  exact exists_congr fun x => and_iff_right (hall x)

theorem set?_key (s : Settings) (x : Field) (v : Node) : s.set? x.key v = (x.read? v).map (s.put x) := by
  cases x <;> rfl

theorem set?_of_notMem (h : key ∉ keys) : s.set? key v = some s := by
  unfold set?
  split
  case h_8 => rfl
  all_goals exact absurd (by decide) h

inductive Holds : FileState → List (Node × Node) → Prop
  | absent : Holds .absent []
  | blank {content : String} : Text.allBlank content → Holds (.text content) []
  | noDocument {content : String} : ¬ Text.allBlank content → Node.ofText? content = some .nothing →
    Holds (.text content) []
  | emptyDocument {content : String} {tag : Option String} : ¬ Text.allBlank content →
    Node.ofText? content = some (.document (.scalar .plain tag "")) → Holds (.text content) []
  | entries {content : String} {entries : List (Node × Node)} : ¬ Text.allBlank content →
    Node.ofText? content = some (.document (.mapping entries)) → Holds (.text content) entries

structure Readable (entries : List (Node × Node)) : Prop where
  keyed : ∀ e ∈ entries, ∃ key, text? e.1 = some key
  once : entries.Pairwise fun d e => ∀ x : Field, x.IsOn d → ¬ x.IsOn e
  valued : ∀ e ∈ entries, ∀ x : Field, x.IsOn e → ∃ a, x.read? e.2 = some a

theorem readable_nil : Readable [] := ⟨by simp, .nil, by simp⟩

theorem inFile?_eq_none (h : ∀ e ∈ entries, ¬ x.IsOn e) : x.inFile? entries = none := by
  rw [Field.inFile?, List.findSome?_eq_none_iff]
  exact fun e he => if_neg (h e he)

theorem inFile?_cons_of_isOn {a : x.Value} (h : x.IsOn e) (ha : x.read? e.2 = some a) :
    x.inFile? (e :: rest) = some a := by
  rw [Field.inFile?, List.findSome?_cons, if_pos h, ha]

theorem inFile?_cons_of_not_isOn (h : ¬ x.IsOn e) : x.inFile? (e :: rest) = x.inFile? rest := by
  rw [Field.inFile?, List.findSome?_cons, if_neg h]
  rfl

theorem readable_cons_of_unknown (hkey : text? e.1 = some key) (h : ∀ x : Field, ¬ x.IsOn e) :
    Readable (e :: rest) ↔ Readable rest := by
  constructor
  · rintro ⟨hkeyed, honce, hvalued⟩
    exact ⟨(List.forall_mem_cons.mp hkeyed).2, (List.pairwise_cons.mp honce).2, (List.forall_mem_cons.mp hvalued).2⟩
  · rintro ⟨hkeyed, honce, hvalued⟩
    exact ⟨List.forall_mem_cons.mpr ⟨⟨key, hkey⟩, hkeyed⟩,
      List.pairwise_cons.mpr ⟨fun _ _ x hx => absurd hx (h x), honce⟩,
      List.forall_mem_cons.mpr ⟨fun x hx => absurd hx (h x), hvalued⟩⟩

theorem eq_of_isOn (hx : x.IsOn e) (hy : y.IsOn e) : x = y :=
  key_injective (Option.some.inj (hx.symm.trans hy))

theorem readable_cons_of_isOn (hx : x.IsOn e) :
    Readable (e :: rest) ↔ Readable rest ∧ (∃ a, x.read? e.2 = some a) ∧ ∀ d ∈ rest, ¬ x.IsOn d := by
  constructor
  · rintro ⟨hkeyed, honce, hvalued⟩
    obtain ⟨hothers, honce⟩ := List.pairwise_cons.mp honce
    obtain ⟨hvalue, hvalued⟩ := List.forall_mem_cons.mp hvalued
    exact ⟨⟨(List.forall_mem_cons.mp hkeyed).2, honce, hvalued⟩, hvalue x hx, fun d hd => hothers d hd x hx⟩
  · rintro ⟨⟨hkeyed, honce, hvalued⟩, hvalue, hothers⟩
    refine ⟨List.forall_mem_cons.mpr ⟨⟨_, hx⟩, hkeyed⟩, List.pairwise_cons.mpr ⟨?_, honce⟩,
      List.forall_mem_cons.mpr ⟨?_, hvalued⟩⟩
    · intro d hd y hy
      exact eq_of_isOn hx hy ▸ hothers d hd
    · intro y hy
      exact eq_of_isOn hx hy ▸ hvalue

def Fresh (made : List String) (entries : List (Node × Node)) : Prop :=
  ∀ e ∈ entries, ∀ x : Field, x.key ∈ made → ¬ x.IsOn e

theorem fresh_of_key : Fresh (x.key :: made) entries ↔ (∀ e ∈ entries, ¬ x.IsOn e) ∧ Fresh made entries := by
  constructor
  · intro h
    exact ⟨fun e he => h e he x List.mem_cons_self, fun e he y hy => h e he y (List.mem_cons_of_mem _ hy)⟩
  · rintro ⟨hx, h⟩ e he y hy
    obtain heq | hy := List.mem_cons.mp hy
    · exact key_injective heq ▸ hx e he
    · exact h e he y hy

theorem fresh_of_unknown (h : key ∉ keys) : Fresh (key :: made) entries ↔ Fresh made entries := by
  have hmem (x : Field) : x.key ∈ key :: made ↔ x.key ∈ made := by
    rw [List.mem_cons]
    exact or_iff_right fun heq => h (mem_keys_iff.mpr ⟨x, heq⟩)
  simp only [Fresh, hmem]

theorem ofEntries?_cons_of_unkeyed (hkey : text? e.1 = none) : ofEntries? s made (e :: rest) = none := by
  simp [ofEntries?, hkey]

theorem ofEntries?_cons_of_unknown (hkey : text? e.1 = some key) (h : key ∉ keys) :
    ofEntries? s made (e :: rest) = ofEntries? s (key :: made) rest := by
  simp [ofEntries?, hkey, h, set?_of_notMem]

theorem ofEntries?_cons_of_isOn (hx : x.IsOn e) : ofEntries? s made (e :: rest) =
    if x.key ∈ made then none else (x.read? e.2).bind fun a => ofEntries? (s.put x a) (x.key :: made) rest := by
  have hkey : text? e.1 = some x.key := hx
  have hknown : x.key ∈ keys := mem_keys_iff.mpr ⟨x, rfl⟩
  by_cases hmade : x.key ∈ made
  · simp [ofEntries?, hkey, hknown, hmade]
  · cases hread : x.read? e.2 <;> simp [ofEntries?, hkey, hmade, set?_key, hread]

theorem get_eq_inFile?_cons {a : x.Value} (hx : x.IsOn e) (ha : x.read? e.2 = some a)
    (hothers : ∀ d ∈ rest, ¬ x.IsOn d) (y : Field) :
    (y.inFile? rest).getD ((s.put x a).get y) = (y.inFile? (e :: rest)).getD (s.get y) := by
  by_cases hy : y = x
  · subst hy
    rw [inFile?_eq_none hothers, inFile?_cons_of_isOn hx ha, Option.getD_none, Option.getD_some, get_put_self]
  · rw [get_put_ne hy, inFile?_cons_of_not_isOn fun hon => hy (eq_of_isOn hon hx)]

def Reads (s : Settings) (made : List String) (entries : List (Node × Node)) (t : Settings) : Prop :=
  Readable entries ∧ Fresh made entries ∧ ∀ x : Field, t.get x = (x.inFile? entries).getD (s.get x)

theorem reads_nil : Reads s made [] t ↔ s = t := by
  constructor
  · rintro ⟨_, _, hget⟩
    exact eq_of_get_eq fun x => (hget x).symm
  · rintro rfl
    exact ⟨readable_nil, List.forall_mem_nil _, fun x => rfl⟩

theorem reads_cons_of_unknown (hkey : text? e.1 = some key) (h : key ∉ keys) :
    Reads s made (e :: rest) t ↔ Reads s (key :: made) rest t := by
  have hnone (x : Field) : ¬ x.IsOn e := fun hon => h (mem_keys_iff.mpr ⟨x, Option.some.inj (hon.symm.trans hkey)⟩)
  have hfile (x : Field) : x.inFile? (e :: rest) = x.inFile? rest := inFile?_cons_of_not_isOn (hnone x)
  have hfresh : Fresh made (e :: rest) ↔ Fresh made rest :=
    List.forall_mem_cons.trans (and_iff_right fun x _ => hnone x)
  simp only [Reads, readable_cons_of_unknown hkey hnone, hfresh, fresh_of_unknown h, hfile]

theorem reads_cons_of_isOn (hx : x.IsOn e) :
    Reads s made (e :: rest) t ↔
      x.key ∉ made ∧ ∃ a, x.read? e.2 = some a ∧ Reads (s.put x a) (x.key :: made) rest t := by
  have hfresh : Fresh made (e :: rest) ↔ x.key ∉ made ∧ Fresh made rest := by
    refine List.forall_mem_cons.trans (and_congr_left fun _ => ?_)
    exact ⟨fun h hmade => h x hmade hx, fun h y hy hon => h (eq_of_isOn hon hx ▸ hy)⟩
  rw [Reads, hfresh, readable_cons_of_isOn hx]
  constructor
  · rintro ⟨⟨hrest, ⟨a, ha⟩, hothers⟩, ⟨hmade, hmaderest⟩, hget⟩
    refine ⟨hmade, a, ha, hrest, fresh_of_key.mpr ⟨hothers, hmaderest⟩, fun y => ?_⟩
    rw [hget y, get_eq_inFile?_cons hx ha hothers]
  · rintro ⟨hmade, a, ha, hrest, hfreshrest, hget⟩
    obtain ⟨hothers, hmaderest⟩ := fresh_of_key.mp hfreshrest
    refine ⟨⟨hrest, ⟨a, ha⟩, hothers⟩, ⟨hmade, hmaderest⟩, fun y => ?_⟩
    rw [hget y, get_eq_inFile?_cons hx ha hothers]

theorem ofEntries?_eq_some_iff : ofEntries? s made entries = some t ↔ Reads s made entries t := by
  -- Each entry adds its key to those that were there before, so the statement is about any settings and keys.
  induction entries generalizing s made with
  | nil => rw [ofEntries?, Option.some.injEq, reads_nil]
  | cons e rest ih =>
    cases hkey : text? e.1 with
    | none =>
      rw [ofEntries?_cons_of_unkeyed hkey]
      refine iff_of_false (by simp) ?_
      rintro ⟨⟨hkeyed, _, _⟩, _⟩
      obtain ⟨key, hsome⟩ := hkeyed e List.mem_cons_self
      rw [hkey] at hsome
      cases hsome
    | some key =>
      by_cases hknown : key ∈ keys
      · obtain ⟨x, rfl⟩ := mem_keys_iff.mp hknown
        rw [ofEntries?_cons_of_isOn hkey, reads_cons_of_isOn hkey]
        by_cases hmade : x.key ∈ made
        · simp [hmade]
        · rw [if_neg hmade, Option.bind_eq_some_iff, and_iff_right hmade]
          exact exists_congr fun a => and_congr_right fun _ => ih
      · rw [ofEntries?_cons_of_unknown hkey hknown, reads_cons_of_unknown hkey hknown, ih]

theorem ofYaml?_of_holds (h : Holds (.text content) entries) : ofYaml? content = ofEntries? usual [] entries := by
  cases h with
  | blank hblank => simp [ofYaml?, hblank, ofEntries?]
  | noDocument hblank hcontent => simp [ofYaml?, hblank, hcontent, ofEntries?]
  | emptyDocument hblank hcontent => simp [ofYaml?, hblank, hcontent, ofEntries?, ofNode?]
  | entries hblank hcontent => simp [ofYaml?, hblank, hcontent, ofNode?]

theorem plain_of_ofNode? {style : Style} {tag : Option String} {text : String}
    (h : ofNode? (.scalar style tag text) = some s) : style = .plain ∧ text = "" := by
  unfold ofNode? at h
  split at h
  next heq => cases heq
  next heq =>
    cases heq
    exact ⟨rfl, rfl⟩
  next => cases h

theorem exists_holds (h : ofYaml? content = some s) : ∃ entries, Holds (.text content) entries := by
  by_cases hblank : Text.allBlank content
  · exact ⟨[], .blank hblank⟩
  · rw [ofYaml?, if_neg hblank] at h
    obtain ⟨document, hdocument, h⟩ := Option.bind_eq_some_iff.mp h
    cases document with
    | nothing => exact ⟨[], .noDocument hblank hdocument⟩
    | document root =>
      cases root with
      | mapping entries => exact ⟨entries, .entries hblank hdocument⟩
      | sequence items => cases h
      | scalar style tag text =>
        obtain ⟨rfl, rfl⟩ := plain_of_ofNode? h
        exact ⟨[], .emptyDocument hblank hdocument⟩

theorem ofFile_eq_ok_iff :
    ofFile path file = .ok s ↔ ∃ entries, Holds file entries ∧ ofEntries? usual [] entries = some s := by
  cases file with
  | absent =>
    constructor
    · rintro ⟨⟩
      exact ⟨[], .absent, rfl⟩
    · rintro ⟨_, ⟨⟩, ⟨⟩⟩
      rfl
  | unreadable =>
    refine iff_of_false (by simp [ofFile]) ?_
    rintro ⟨_, ⟨⟩, _⟩
  | text content =>
    have hok : ofFile path (.text content) = .ok s ↔ ofYaml? content = some s := by
      rw [ofFile]
      cases ofYaml? content <;> simp
    rw [hok]
    constructor
    · intro h
      obtain ⟨entries, hholds⟩ := exists_holds h
      exact ⟨entries, hholds, (ofYaml?_of_holds hholds).symm.trans h⟩
    · rintro ⟨entries, hholds, h⟩
      exact (ofYaml?_of_holds hholds).trans h

section Layers

variable {w : Surroundings} {f : CommandLine.Flags} {lookup : String → Option String} {c : Http.Credentials}

theorem given_eq_said? (v : Option String) : given v = Field.said? v := by
  unfold Field.said?
  split <;> simp_all [given]

theorem get_withEnvironment (lookup : String → Option String) (s : Settings) (x : Field) :
    (s.withEnvironment (.ofVariables lookup)).get x = (x.inEnvironment? lookup).getD (s.get x) := by
  have hor (v w : Option String) : (given v).or w = ((Field.said? v).map some).getD w := by
    rw [given_eq_said?]
    cases Field.said? v <;> rfl
  cases x
  case username | password => exact hor _ _
  case apiUrl => exact congrArg (Option.getD · s.apiUrl) (given_eq_said? _)
  all_goals rfl

theorem get_settings (f : CommandLine.Flags) (s : Settings) (x : Field) :
    (f.settings s).get x = (x.inFlags? f).getD (s.get x) := by
  cases x <;> rfl

theorem inFlags?_eq_none_or (f : CommandLine.Flags) (lookup : String → Option String) (x : Field) :
    x.inFlags? f = none ∨ x.inEnvironment? lookup = none := by
  cases x
  case clientTimeout | workers => exact .inr rfl
  all_goals exact .inl rfl

theorem withEnvironment_again (lookup : String → Option String) (s : Settings) :
    (s.withEnvironment (.ofVariables lookup)).withEnvironment (.ofVariables lookup) =
      s.withEnvironment (.ofVariables lookup) := by
  apply eq_of_get_eq
  intro x
  simp only [get_withEnvironment]
  cases x.inEnvironment? lookup <;> rfl

theorem settings_withEnvironment (f : CommandLine.Flags) (lookup : String → Option String) (s : Settings) :
    (f.settings (s.withEnvironment (.ofVariables lookup))).withEnvironment (.ofVariables lookup) =
      f.settings (s.withEnvironment (.ofVariables lookup)) := by
  apply eq_of_get_eq
  intro x
  simp only [get_withEnvironment, get_settings]
  obtain hnone | hnone := inFlags?_eq_none_or f lookup x
  · rw [hnone]
    cases x.inEnvironment? lookup <;> rfl
  · rw [hnone]
    rfl

theorem settings_eq_ok_iff :
    w.settings f = .ok t ↔ ∃ s, ofFile (f.settingsPath w.home) (w.files (f.settingsPath w.home)) = .ok s ∧
      f.settings (s.withEnvironment w.environment) = t := by
  rw [Surroundings.settings]
  cases ofFile (f.settingsPath w.home) (w.files (f.settingsPath w.home)) with
  | error e => simp [bind, Except.bind]
  | ok s => simp [bind, Except.bind, pure, Except.pure]

def layered (f : CommandLine.Flags) (lookup : String → Option String) (entries : List (Node × Node)) (x : Field) :
    x.Value :=
  ((x.inFlags? f).or ((x.inEnvironment? lookup).or (x.inFile? entries))).getD (usual.get x)

theorem get_settings_withEnvironment (h : ∀ x : Field, s.get x = (x.inFile? entries).getD (usual.get x)) (x : Field) :
    (f.settings (s.withEnvironment (.ofVariables lookup))).get x = layered f lookup entries x := by
  rw [get_settings, get_withEnvironment, h, layered, Option.getD_or, Option.getD_or]

theorem settings_eq_ok_iff_layered :
    ({ w with environment := .ofVariables lookup } : Surroundings).settings f = .ok t ↔
      ∃ entries, Holds (w.files (f.settingsPath w.home)) entries ∧ Readable entries ∧
        ∀ x : Field, t.get x = layered f lookup entries x := by
  rw [settings_eq_ok_iff]
  constructor
  · rintro ⟨s, hfile, rfl⟩
    obtain ⟨entries, hholds, hentries⟩ := ofFile_eq_ok_iff.mp hfile
    obtain ⟨hreadable, _, hget⟩ := ofEntries?_eq_some_iff.mp hentries
    exact ⟨entries, hholds, hreadable, get_settings_withEnvironment hget⟩
  · rintro ⟨entries, hholds, hreadable, hget⟩
    obtain ⟨s, hs⟩ := exists_get_eq fun x => (x.inFile? entries).getD (usual.get x)
    have hfresh : Fresh [] entries := fun _ _ _ hmade => absurd hmade List.not_mem_nil
    refine ⟨s, ofFile_eq_ok_iff.mpr ⟨entries, hholds, ofEntries?_eq_some_iff.mpr ⟨hreadable, hfresh, hs⟩⟩, ?_⟩
    exact eq_of_get_eq fun x => (get_settings_withEnvironment hs x).trans (hget x).symm

def IsFilled (v : Option String) : Prop := ∃ text, v = some text ∧ text ≠ ""

theorem given_eq_some_iff {v : Option String} {text : String} : given v = some text ↔ v = some text ∧ text ≠ "" := by
  simp [given]

theorem given_eq_none_iff {v : Option String} : given v = none ↔ ¬ IsFilled v := by
  rw [Option.eq_none_iff_forall_ne_some, IsFilled, not_exists]
  simp only [ne_eq, given_eq_some_iff]

theorem credentials_of_unnamed (h : ¬ IsFilled s.username) : s.credentials =
    .error ("User name not defined. Either define it as 'username' " ++
      "in the config file, or as UPCLOUD_USERNAME env variable.") := by
  simp only [credentials, given_eq_none_iff.mpr h]
  rfl

theorem credentials_of_no_password (hname : IsFilled s.username) (h : ¬ IsFilled s.password) : s.credentials =
    .error ("Password not defined. Either define " ++
      "it as 'password' in the config file, or as UPCLOUD_PASSWORD env variable.") := by
  obtain ⟨username, hname⟩ := hname
  simp only [credentials, given_eq_some_iff.mpr hname, given_eq_none_iff.mpr h]
  rfl

theorem credentials_eq_ok_iff :
    s.credentials = .ok c ↔ (s.username = some c.username ∧ c.username ≠ "") ∧
      (s.password = some c.password ∧ c.password ≠ "") := by
  obtain ⟨username, password⟩ := c
  rw [← given_eq_some_iff, ← given_eq_some_iff, credentials]
  cases given s.username <;> cases given s.password <;> simp

theorem credentials_isOk_iff : (∃ c, s.credentials = .ok c) ↔ IsFilled s.username ∧ IsFilled s.password := by
  simp only [credentials_eq_ok_iff]
  constructor
  · rintro ⟨c, hname, hpassword⟩
    exact ⟨⟨_, hname⟩, ⟨_, hpassword⟩⟩
  · rintro ⟨⟨username, hname⟩, ⟨password, hpassword⟩⟩
    exact ⟨⟨username, password⟩, hname, hpassword⟩

end Layers

/-- Every setting is what the last of the layers that say something on it says, where an empty variable says
nothing, and what a layer is silent on it leaves alone. A second look at the environment changes nothing. Username
and password are the credentials if neither is empty, and otherwise the first of them that is missing is named. -/
theorem last_layer_counts (w : Surroundings) (f : CommandLine.Flags) (lookup : String → Option String) :
    let environment := Environment.ofVariables lookup
    (∀ t, ({ w with environment } : Surroundings).settings f = .ok t ↔
      ∃ entries, Holds (w.files (f.settingsPath w.home)) entries ∧ Readable entries ∧ ∀ x : Field, t.get x =
        ((x.inFlags? f).or ((x.inEnvironment? lookup).or (x.inFile? entries))).getD (usual.get x)) ∧
    (∀ (s : Settings) (x : Field), (x.inFlags? f = none → (f.settings s).get x = s.get x) ∧
      (x.inEnvironment? lookup = none → (s.withEnvironment environment).get x = s.get x)) ∧
    (∀ s : Settings,
      (s.withEnvironment environment).withEnvironment environment = s.withEnvironment environment ∧
      (f.settings (s.withEnvironment environment)).withEnvironment environment =
        f.settings (s.withEnvironment environment)) ∧
    ∀ t : Settings, ((∃ c, t.credentials = .ok c) ↔ IsFilled t.username ∧ IsFilled t.password) ∧
      (∀ c, t.credentials = .ok c → t.username = some c.username ∧ t.password = some c.password) ∧
      (¬ IsFilled t.username → t.credentials = .error ("User name not defined. Either define it as 'username' " ++
        "in the config file, or as UPCLOUD_USERNAME env variable.")) ∧
      (IsFilled t.username → ¬ IsFilled t.password → t.credentials = .error ("Password not defined. Either define " ++
        "it as 'password' in the config file, or as UPCLOUD_PASSWORD env variable.")) := by
  intro environment
  refine ⟨fun t => settings_eq_ok_iff_layered, fun s x => ⟨fun h => ?_, fun h => ?_⟩,
    fun s => ⟨withEnvironment_again lookup s, settings_withEnvironment f lookup s⟩,
    fun t => ⟨credentials_isOk_iff, fun c h => ?_, credentials_of_unnamed, credentials_of_no_password⟩⟩
  · rw [get_settings, h, Option.getD_none]
  · rw [get_withEnvironment, h, Option.getD_none]
  · obtain ⟨⟨hname, _⟩, ⟨hpassword, _⟩⟩ := credentials_eq_ok_iff.mp h
    exact ⟨hname, hpassword⟩

def office : Surroundings where
  home := "/home"
  files _ := .text "username: alice\npassword: file-secret\nworkers: 4\n"
  environment := ⟨none, none, none⟩
  noLog := none
  input := none
  screen := .stream
  network := Http.Network.down
  clock := ⟨0⟩

def exported : String → Option String
  | "UPCLOUD_USERNAME" => some ""
  | "UPCLOUD_PASSWORD" => some "env-secret"
  | _ => none

def crowded : CommandLine.Flags := ⟨none, .info, .human, false, false, some 7, none⟩

def filed : Settings := { usual with username := some "alice", password := some "file-secret", workers := 4 }

theorem variable_replaces_filed_password :
    let w : Surroundings := { office with environment := .ofVariables exported }
    let t := { filed with password := some "env-secret", workers := 7 }
    w.settings crowded = .ok t ∧
      (∃ entries, Holds (office.files (crowded.settingsPath office.home)) entries ∧ Readable entries) ∧
      Field.inEnvironment? exported .username = none ∧ t.withEnvironment w.environment = t ∧
      ∃ c, t.credentials = .ok c ∧ c.username = "alice" ∧ c.password = "env-secret" := by
  intro w t
  have hyaml : ofYaml? "username: alice\npassword: file-secret\nworkers: 4\n" = some filed := by decide +kernel
  have ht : crowded.settings (filed.withEnvironment w.environment) = t := by decide
  have hsettings : w.settings crowded = .ok t := by
    refine settings_eq_ok_iff.mpr ⟨filed, ?_, ht⟩
    change ofFile _ (.text _) = _
    rw [ofFile, hyaml]
  obtain ⟨hlayers, _, hagain, hcredentials⟩ := last_layer_counts office crowded exported
  obtain ⟨entries, hholds, hreadable, _⟩ := (hlayers t).mp hsettings
  obtain ⟨hok, hexact, _, _⟩ := hcredentials t
  obtain ⟨c, hc⟩ := hok.mpr ⟨⟨"alice", rfl, by decide⟩, ⟨"env-secret", rfl, by decide⟩⟩
  obtain ⟨hname, hpassword⟩ := hexact c hc
  refine ⟨hsettings, ⟨entries, hholds, hreadable⟩, rfl, ?_, c, hc, ?_, ?_⟩
  · rw [← ht]
    exact (hagain filed).2
  · exact (Option.some.inj hname).symm
  · exact (Option.some.inj hpassword).symm

end FleetControl.Settings
