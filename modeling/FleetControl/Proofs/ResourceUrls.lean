import FleetControl.Command
import FleetControl.Http.Client
import FleetControl.Proofs.Joining
import FleetControl.Settings

namespace FleetControl.Http

open Url (IsDots IsDirectory Names landing piece closing)

variable {name collection uuid text : String} {words above : List String} {c : Client} {s : Settings} {u : Url}

def Letters (name : String) : Prop := name ≠ "" ∧ ∀ ch ∈ name.toList, ch.isAlpha

instance (name : String) : Decidable (Letters name) :=
  decidable_of_iff (name ≠ "" ∧ name.toList.all Char.isAlpha) (by simp [Letters])

theorem letters_kind (kind : Kind) : Letters kind.name := by cases kind <;> decide

theorem Letters.encode (h : Letters name) : Url.Percent.encode Url.Percent.unreserved name = name := by
  rw [Url.Percent.encode, Url.Percent.encodeChars_of_kept, String.ofList_toList]
  intro ch hch
  simp [Url.Percent.unreserved, Char.isAlphanum, h.2 ch hch]

theorem Letters.piece (h : Letters name) : piece name = name.toList := by
  rw [← String.toList_ofList (l := Url.piece name), Url.ofList_piece, h.encode]

theorem Letters.not_isDots (h : Letters name) : ¬ IsDots name := by
  rintro (rfl | rfl)
  · exact absurd h (by decide)
  · exact absurd h (by decide)

def joined : List String → Option String
  | [] => none
  | word :: words => some (word ++ (Url.Path.rooted words).render)

theorem exists_words (r : Request) : ∃ words, r.action? = joined words ∧ ∀ word ∈ words, Letters word := by
  cases r with
  | start => exact ⟨["start"], rfl, by decide⟩
  | stop => exact ⟨["stop"], rfl, by decide⟩
  | restart => exact ⟨["restart"], rfl, by decide⟩
  | load => exact ⟨["cdrom", "load"], rfl, by decide⟩
  | eject => exact ⟨["cdrom", "eject"], rfl, by decide⟩
  | _ => exact ⟨[], rfl, by simp⟩

theorem map_joined (words : List String) :
    ((joined words).map fun action => "/" ++ action).getD "" = (Url.Path.rooted words).render := by
  cases words with
  | nil => rfl
  | cons word words =>
    rw [Url.render_rooted_cons, String.append_assoc]
    rfl

theorem names_kind (kind : Kind) : Names kind.name.toList [kind.name] :=
  ⟨kind.name, [], rfl, (letters_kind kind).1, by simp [(letters_kind kind).piece]⟩

namespace Client

theorem names_resourcePath (hcollection : Letters collection) (hwords : ∀ word ∈ words, Letters word)
    (uuid : String) : Names (resourcePath collection uuid (joined words)).toList (collection :: uuid :: words) := by
  refine ⟨collection, uuid :: words, rfl, hcollection.1, ?_⟩
  have hpieces : words.map piece = words.map String.toList :=
    List.map_congr_left fun word hword => (hwords word hword).piece
  rw [resourcePath, map_joined]
  simp only [String.toList_append, Url.toList_render_rooted, List.map_cons, List.flatMap_cons, hpieces,
    hcollection.piece, List.flatMap_map, ← Url.ofList_piece, String.toList_ofList]
  simp

theorem join_of_url (h : c.url text = .ok u) : c.base.join text = .ok u := by
  unfold url at h
  cases hjoin : c.base.join text with
  | error fault => simp [hjoin, Except.mapError] at h
  | ok u => simpa [hjoin, Except.mapError] using h

theorem url_kind (c : Client) (kind : Kind) (hbase : Url.isRootless c.base.path = false) :
    c.url kind.name = .ok (landing c.base [kind.name]) := by
  rw [url, Url.join_names (names_kind kind), hbase]
  rfl

theorem resourceUrl_eq (hcollection : Letters collection) (hwords : ∀ word ∈ words, Letters word)
    (hbase : Url.isRootless c.base.path = false) (uuid : String) :
    c.resourceUrl collection uuid (joined words) = .ok (landing c.base (collection :: uuid :: words)) := by
  rw [resourceUrl, url, Url.join_names (names_resourcePath hcollection hwords uuid), hbase]
  rfl

theorem resourcePath_inj {collection' uuid' : String} {words' : List String} (hcollection : Letters collection)
    (hwords : ∀ word ∈ words, Letters word) (hcollection' : Letters collection')
    (hwords' : ∀ word ∈ words', Letters word)
    (h : resourcePath collection uuid (joined words) = resourcePath collection' uuid' (joined words')) :
    uuid = uuid' := by
  have hnames := names_resourcePath hcollection hwords uuid
  rw [h] at hnames
  have heq := hnames.unique (names_resourcePath hcollection' hwords' uuid')
  injection heq with _ heq
  injection heq

def reached (collection uuid : String) (action? : Option String) : String :=
  if uuid = "." then collection ++ "/" ++ action?.getD ""
  else if uuid = ".." then action?.getD ""
  else resourcePath collection uuid action?

theorem reached_eq_resourcePath_iff (collection uuid : String) (action? : Option String) :
    reached collection uuid action? = resourcePath collection uuid action? ↔ ¬ IsDots uuid := by
  have hlength : (action?.getD "").length ≤ ((action?.map fun action => "/" ++ action).getD "").length := by
    cases action? <;> simp
  constructor
  · intro h hdots
    have hlengths := congrArg String.length h
    rcases hdots with rfl | rfl
    · have hencode : (Url.Percent.encode Url.Percent.unreserved ".").length = 1 := rfl
      simp only [reached, resourcePath, String.length_append, hencode, if_true] at hlengths
      omega
    · have hencode : (Url.Percent.encode Url.Percent.unreserved "..").length = 2 := rfl
      simp [reached, resourcePath, String.length_append, hencode] at hlengths
      omega
  · intro h
    obtain ⟨hdot, hdots⟩ := not_or.mp h
    rw [reached, if_neg hdot, if_neg hdots]

theorem exists_closing (hwords : ∀ word ∈ words, Letters word) :
    ∃ first rest, closing (words.map (Url.Percent.encode Url.Percent.unreserved)) = first :: rest ∧
      (first = "" → rest = []) ∧ first ++ (Url.Path.rooted rest).render = (joined words).getD "" := by
  have hencode : words.map (Url.Percent.encode Url.Percent.unreserved) = words := by
    rw [List.map_congr_left fun word hword => (hwords word hword).encode, List.map_id']
  rw [hencode]
  cases words with
  | nil => exact ⟨"", [], rfl, fun _ => rfl, rfl⟩
  | cons word words =>
    have hword := (hwords word List.mem_cons_self).1
    exact ⟨word, words, rfl, fun hempty => absurd hempty hword, rfl⟩

theorem descend_plain_uuid (hcollection : Letters collection) (hwords : ∀ word ∈ words, Letters word)
    (huuid : ¬ IsDots uuid) (fam : Url.Family) (above : List String) :
    Url.descend fam above ((collection :: uuid :: words).map piece) =
      above ++ collection :: Url.Percent.encode Url.Percent.unreserved uuid :: words := by
  have hplain : ∀ name ∈ collection :: uuid :: words, ¬ IsDots name := by
    have hrest : ∀ name ∈ words, ¬ IsDots name := fun word hword => (hwords word hword).not_isDots
    simp only [List.forall_mem_cons]
    exact ⟨hcollection.not_isDots, huuid, hrest⟩
  rw [Url.descend_names hplain, List.map_cons, List.map_cons, hcollection.encode,
    List.map_congr_left fun word hword => (hwords word hword).encode, List.map_id']

theorem descend_resource (hcollection : Letters collection) (hwords : ∀ word ∈ words, Letters word)
    (uuid : String) (fam : Url.Family) (above : List String) :
    ∃ first rest, Url.descend fam above ((collection :: uuid :: words).map piece) = above ++ first :: rest ∧
      (first = "" → rest = []) ∧
      first ++ (Url.Path.rooted rest).render = reached collection uuid (joined words) := by
  have hplain : ∀ word ∈ words, ¬ IsDots word := fun word hword => (hwords word hword).not_isDots
  have hstep := Url.descend_name hcollection.not_isDots fam above ((uuid :: words).map piece)
  have hnonempty : collection = "" → ∀ rest : List String, rest = [] := fun h => absurd h hcollection.1
  obtain ⟨first, rest, hclosing, hfirst, htext⟩ := exists_closing hwords
  rw [hcollection.encode] at hstep
  by_cases hdot : uuid = "."
  · refine ⟨collection, first :: rest, ?_, fun h => hnonempty h _, ?_⟩
    · rw [List.map_cons, hstep, hdot, List.map_cons, Url.descend_dot_name hplain, hclosing, List.append_assoc,
        List.singleton_append]
    · rw [reached, if_pos hdot, ← htext, Url.render_rooted_cons]
      simp only [String.append_assoc]
  · by_cases hdots : uuid = ".."
    · have hparent := Url.parent_concat (hcollection.encode ▸ Url.isDriveName_encode collection) fam above
      refine ⟨first, rest, ?_, hfirst, ?_⟩
      · rw [List.map_cons, hstep, hdots, List.map_cons, Url.descend_dots_name hplain, hparent, hclosing]
      · rw [reached, if_neg hdot, if_pos hdots, htext]
    · have huuid := not_or.mpr ⟨hdot, hdots⟩
      refine ⟨_, _, descend_plain_uuid hcollection hwords huuid fam above, fun h => hnonempty h _, ?_⟩
      · rw [reached, if_neg hdot, if_neg hdots, resourcePath, Url.render_rooted_cons, map_joined]
        simp only [String.append_assoc]

theorem render_resource (h : IsDirectory c.base above) (hcollection : Letters collection)
    (hwords : ∀ word ∈ words, Letters word) (uuid : String) :
    (landing c.base (collection :: uuid :: words)).render =
      c.base.render ++ reached collection uuid (joined words) := by
  obtain ⟨first, rest, hstep, hfirst, htext⟩ :=
    descend_resource hcollection hwords uuid (Url.family c.base.scheme) above
  rw [h.render_landing hfirst hstep, String.append_assoc, htext]

theorem render_plain_uuid (h : IsDirectory c.base above) (hcollection : Letters collection)
    (hwords : ∀ word ∈ words, Letters word) (huuid : ¬ IsDots uuid) :
    (landing c.base (collection :: uuid :: words)).render =
      c.base.render ++ resourcePath collection uuid (joined words) := by
  rw [render_resource h hcollection hwords, (reached_eq_resourcePath_iff _ _ _).mpr huuid]

theorem path_resource (h : IsDirectory c.base above) (hcollection : Letters collection)
    (hwords : ∀ word ∈ words, Letters word) (huuid : ¬ IsDots uuid) :
    (landing c.base (collection :: uuid :: words)).path =
      .rooted (above ++ collection :: Url.Percent.encode Url.Percent.unreserved uuid :: words) :=
  h.path_landing (fun hempty => absurd hempty hcollection.1)
    (descend_plain_uuid hcollection hwords huuid _ above)

theorem render_kind (h : IsDirectory c.base above) (kind : Kind) :
    (landing c.base [kind.name]).render = c.base.render ++ kind.name := by
  have hletters := letters_kind kind
  have hstep : Url.descend (Url.family c.base.scheme) above ([kind.name].map piece) = above ++ [kind.name] := by
    rw [Url.descend_names (List.forall_mem_singleton.mpr hletters.not_isDots), List.map_singleton, hletters.encode]
  rw [h.render_landing (fun _ => rfl) hstep]
  exact String.append_empty

end Client

theorem exists_apiText (s : Settings) : ∃ t, s.apiText = t ++ "/" := by
  simp only [Settings.apiText]
  split
  next h =>
    obtain ⟨before, hbefore⟩ := List.getLast?_eq_some_iff.mp h
    refine ⟨String.ofList before, String.toList_inj.mp ?_⟩
    simpa using hbefore
  next => exact ⟨_, rfl⟩

theorem parse_of_apiBase {base : Url} (h : s.apiBase = .ok base) : Url.parse s.apiText = .ok base := by
  unfold Settings.apiBase at h
  cases hparse : Url.parse s.apiText with
  | error fault => simp [hparse, Except.mapError] at h
  | ok u => simpa [hparse, Except.mapError] using h

namespace Client

def Hyphenated (uuid : String) : Prop := ∀ ch ∈ uuid.toList, ch.isAlphanum ∨ ch = '-'

theorem Hyphenated.encode (h : Hyphenated uuid) : Url.Percent.encode Url.Percent.unreserved uuid = uuid := by
  rw [Url.Percent.encode, Url.Percent.encodeChars_of_kept, String.ofList_toList]
  intro ch hch
  rcases h ch hch with halnum | rfl
  · simp [Url.Percent.unreserved, halnum]
  · rfl

theorem Hyphenated.not_isDots (h : Hyphenated uuid) : ¬ IsDots uuid := by
  rintro (rfl | rfl) <;> simpa using h '.'

structure JoinsBelow (c : Client) : Prop where
  slash : c.base.path.render.toList.getLast? = some '/'
  listing (kind : Kind) : ∃ u, c.url kind.name = .ok u ∧ u.render = c.base.render ++ kind.name
  resource (kind : Kind) (r : Request) (uuid : String) : Hyphenated uuid →
    ∃ u, c.resourceUrl kind.name uuid r.action? = .ok u ∧ u.render =
      c.base.render ++ (kind.name ++ "/" ++ uuid ++ (r.action?.map fun action => "/" ++ action).getD "")

theorem isRootless_of_directory (h : IsDirectory c.base above) : Url.isRootless c.base.path = false := by
  rw [h.path]
  rfl

theorem joinsBelow_of_directory (h : IsDirectory c.base above) : c.JoinsBelow where
  slash := by
    rw [h.path, Url.render_rooted_append]
    simp [Url.Path.render]
  listing kind := ⟨_, url_kind c kind (isRootless_of_directory h), render_kind h kind⟩
  resource kind r uuid huuid := by
    obtain ⟨words, haction, hwords⟩ := exists_words r
    have hletters := letters_kind kind
    rw [haction]
    refine ⟨_, resourceUrl_eq hletters hwords (isRootless_of_directory h) uuid, ?_⟩
    rw [render_plain_uuid h hletters hwords huuid.not_isDots, resourcePath, huuid.encode]

/-- The slash that is put behind the configured text makes a directory of it, unless that text has a query or a
fragment, or has no path that could end in a slash. -/
theorem joins_below_iff (h : s.apiBase = .ok c.base) :
    c.JoinsBelow ↔ c.base.query = none ∧ c.base.fragment = none ∧ c.base.path.segments ≠ [] := by
  obtain ⟨t, ht⟩ := exists_apiText s
  have hparse := parse_of_apiBase h
  constructor
  · intro hjoins
    obtain ⟨u, hu, hrender⟩ := hjoins.listing .server
    obtain ⟨hrooted, rfl⟩ := Url.landing_of_join (names_kind .server) (join_of_url hu)
    -- what is joined has no marks, and here it begins with the text of the base
    have hunmarked : Url.Unmarked c.base.render.toList := by
      have hlanding := Url.unmarked_landing hparse [Kind.server.name]
      rw [hrender, String.toList_append] at hlanding
      exact hlanding.subset (List.subset_append_left _ _)
    obtain ⟨hquery, hfragment⟩ := Url.end_none_of_unmarked hunmarked
    refine ⟨hquery, hfragment, fun hsegments => ?_⟩
    have hslash := hjoins.slash
    cases hpath : c.base.path with
    | rooted segments =>
      rw [hpath, Url.Path.segments] at hsegments
      rw [hpath, hsegments] at hslash
      simp [Url.Path.render] at hslash
    | rootless path => simp [hpath, Url.isRootless] at hrooted
  · rintro ⟨hquery, hfragment, hsegments⟩
    obtain ⟨above, habove⟩ := Url.exists_isDirectory (ht ▸ hparse) hquery hfragment hsegments
    exact joinsBelow_of_directory habove

def usual : Client where
  base := ⟨"https", some ⟨"", none, some (.domain "api.upcloud.com"), none⟩, .rooted ["1.3", ""], none, none⟩
  credentials := ⟨"", ""⟩

theorem apiBase_usual : Settings.usual.apiBase = .ok usual.base := by cbv

theorem usual_joins_below : Settings.usual.apiBase = .ok usual.base ∧ usual.JoinsBelow :=
  ⟨apiBase_usual, (joins_below_iff apiBase_usual).mpr (by decide)⟩

def queried : Client where
  base := ⟨"http", some ⟨"", none, some (.domain "h"), none⟩, .rooted ["a", "b"], some "q=1/", none⟩
  credentials := ⟨"", ""⟩

theorem query_takes_slash : ({ Settings.usual with apiUrl := "http://h/a/b?q=1" }).apiBase = .ok queried.base ∧
    queried.base.render = "http://h/a/b?q=1/" ∧
    (queried.url "server").map Url.render = .ok "http://h/a/server" ∧ ¬ queried.JoinsBelow := by
  have htext : ({ Settings.usual with apiUrl := "http://h/a/b?q=1" }).apiText = "http://h/a/b?q=1/" := by decide
  have hparse : Url.parse "http://h/a/b?q=1/" = .ok queried.base := by cbv
  have hurl : (queried.url "server").map Url.render = .ok "http://h/a/server" := by cbv
  refine ⟨?_, by decide, hurl, fun hjoins => ?_⟩
  · rw [Settings.apiBase, htext, hparse]
    rfl
  · obtain ⟨u, hu, hrender⟩ := hjoins.listing .server
    rw [show queried.url "server" = .ok u from hu] at hurl
    rw [show u.render = "http://h/a/server" from Except.ok.inj hurl] at hrender
    exact absurd hrender (by decide)

/-- A uuid is one segment below the collection, and tells its URLs from all others, unless it is one or two dots.
Then it leads up, and the request goes to the collection or to the base instead. -/
theorem uuids_stay_below_iff (hparse : Url.parse text = .ok c.base) (hpath : c.base.path = .rooted (above ++ [""]))
    (hquery : c.base.query = none) (hfragment : c.base.fragment = none) :
    (∀ (kind : Kind) (r : Request) (uuid : String), ∃ u, c.resourceUrl kind.name uuid r.action? = .ok u ∧
      u.render = c.base.render ++ reached kind.name uuid r.action? ∧
      (u.render = c.base.render ++ resourcePath kind.name uuid r.action? ↔ ¬ IsDots uuid) ∧
      (¬ IsDots uuid → ∃ words : List String,
        u.path = .rooted (above ++ kind.name :: Url.Percent.encode Url.Percent.unreserved uuid :: words) ∧
        (Url.Path.rooted words).render = (r.action?.map fun action => "/" ++ action).getD "")) ∧
    ∀ (kind kind' : Kind) (r r' : Request) (uuid uuid' : String) (u u' : Url), ¬ IsDots uuid → ¬ IsDots uuid' →
      c.resourceUrl kind.name uuid r.action? = .ok u → c.resourceUrl kind'.name uuid' r'.action? = .ok u' →
      u.render = u'.render → uuid = uuid' := by
  have hdirectory := Url.isDirectory_of_parse hparse hpath hquery hfragment
  have hrooted := isRootless_of_directory hdirectory
  constructor
  · intro kind r uuid
    obtain ⟨words, haction, hwords⟩ := exists_words r
    have hletters := letters_kind kind
    have hrender := render_resource hdirectory hletters hwords uuid
    rw [haction]
    refine ⟨_, resourceUrl_eq hletters hwords hrooted uuid, hrender, ?_, fun huuid => ?_⟩
    · rw [hrender, String.append_right_inj]
      exact reached_eq_resourcePath_iff kind.name uuid (joined words)
    · exact ⟨words, path_resource hdirectory hletters hwords huuid, (map_joined words).symm⟩
  · intro kind kind' r r' uuid uuid' u u' huuid huuid' hu hu' htext
    obtain ⟨words, haction, hwords⟩ := exists_words r
    obtain ⟨words', haction', hwords'⟩ := exists_words r'
    rw [haction, resourceUrl_eq (letters_kind kind) hwords hrooted] at hu
    rw [haction', resourceUrl_eq (letters_kind kind') hwords' hrooted] at hu'
    obtain rfl := Except.ok.inj hu
    obtain rfl := Except.ok.inj hu'
    rw [render_plain_uuid hdirectory (letters_kind kind) hwords huuid,
      render_plain_uuid hdirectory (letters_kind kind') hwords' huuid', String.append_right_inj] at htext
    exact resourcePath_inj (letters_kind kind) hwords (letters_kind kind') hwords' htext

theorem usual_uuid_below : Url.parse Settings.usual.apiText = .ok usual.base ∧
    ∃ u, usual.resourceUrl "storage" "a b" none = .ok u ∧
      u.render = usual.base.render ++ resourcePath "storage" "a b" none := by
  have hparse := parse_of_apiBase apiBase_usual
  have hpath : usual.base.path = .rooted (["1.3"] ++ [""]) := rfl
  obtain ⟨hurls, _⟩ := uuids_stay_below_iff hparse hpath rfl rfl
  obtain ⟨u, hu, _, hrender, _⟩ := hurls .storage (.deleteStorage "a b") "a b"
  exact ⟨hparse, u, hu, hrender.mpr (by decide)⟩

theorem dots_lead_up : usual.resourceUrl "server" ".." none = .ok usual.base ∧
    usual.base.render ≠ usual.base.render ++ resourcePath "server" ".." none ∧
    usual.resourceUrl "server" "." (some "start") = usual.resourceUrl "server" "start" none := by
  exact ⟨by cbv, by decide, by cbv⟩

theorem unmarked_resourceUrl (h : s.apiBase = .ok c.base) (hcollection : Letters collection)
    (hu : c.resourceUrl collection uuid none = .ok u) :
    u.query = none ∧ u.fragment = none ∧ Url.Unmarked u.render.toList := by
  have hwords : ∀ word ∈ ([] : List String), Letters word := by simp
  have hnames := names_resourcePath hcollection hwords uuid
  obtain ⟨_, rfl⟩ := Url.landing_of_join hnames (join_of_url hu)
  exact ⟨rfl, rfl, Url.unmarked_landing (parse_of_apiBase h) _⟩

theorem call_change {r : Request} (hu : c.resourceUrl r.kind.name r.uuid r.action? = .ok u) :
    c.call (.change r) = .ok ⟨r.method, u.render ++ r.query, r.body?⟩ := by
  rw [call, hu]
  rfl

/-- Only the deletion that says so mentions storages, however the configured URL and the uuid read. -/
theorem deletions_differ_by_query (h : s.apiBase = .ok c.base)
    (hu : c.resourceUrl Kind.server.name uuid none = .ok u) :
    c.call (.change ((Command.deleteServer false).request uuid)) = .ok ⟨.delete, u.render, none⟩ ∧
    c.call (.change ((Command.deleteServer true).request uuid)) = .ok ⟨.delete, u.render ++ "?storages=1", none⟩ ∧
    u.query = none ∧ u.fragment = none ∧ '?' ∉ u.render.toList ∧ '#' ∉ u.render.toList ∧
    (∀ v, Url.parse u.render = .ok v → v.query = none ∧ v.fragment = none) ∧
    ∀ v, Url.parse (u.render ++ "?storages=1") = .ok v → v.query = some "storages=1" ∧ v.fragment = none := by
  obtain ⟨hquery, hfragment, hunmarked⟩ := unmarked_resourceUrl h (letters_kind .server) hu
  have hmem (ch : Char) (hch : Url.isPathEnd ch) : ch ∉ u.render.toList := fun hmem => by
    simp [hunmarked ch hmem] at hch
  refine ⟨?_, ?_, hquery, hfragment, hmem '?' rfl, hmem '#' rfl, fun v hv => Url.parse_unmarked hunmarked hv,
    fun v hv => ?_⟩
  · have hplain := call_change (r := .deleteServer uuid false) hu
    rw [show (Request.deleteServer uuid false).query = "" from rfl, String.append_empty] at hplain
    exact hplain
  · exact call_change (r := .deleteServer uuid true) hu
  · have hkept : "storages=1".toList.all Url.Percent.inWebQuery := by decide
    exact Url.parse_append_query hunmarked (List.all_eq_true.mp hkept) hv

theorem usual_deletion_keeps_storages :
    usual.call (.change ((Command.deleteServer false).request "x?storages=1")) =
      .ok ⟨.delete, "https://api.upcloud.com/1.3/server/x%3Fstorages%3D1", none⟩ := by
  have hu : usual.resourceUrl Kind.server.name "x?storages=1" none =
      .ok { usual.base with path := .rooted ["1.3", "server", "x%3Fstorages%3D1"] } := by cbv
  exact (deletions_differ_by_query apiBase_usual hu).1

end Client
end FleetControl.Http
