import FleetControl.Proofs.Fronts

/-!
Joining a path of encoded names to a base. The names take the place of the last segment of the base, except that
a name of dots leads back up, since encoding keeps dots.
-/
namespace FleetControl.Url

variable {c : Char} {cs ds p : List Char} {u base : Url} {fam : Family} {name first text : String}
  {names above segments rest : List String}

def Printed (cs : List Char) : Prop := ∀ c ∈ cs, 0x20 < c.toNat

theorem clean_append {t : String} (ht : Printed t.toList) (hne : t.toList ≠ []) (s : String) :
    ∃ front, front ⊆ s.toList ∧ clean (s ++ t) = front ++ t.toList := by
  let outer (c : Char) : Bool := c.toNat ≤ 0x20
  have hinner : ∀ c ∈ t.toList, outer c = false := fun c hc => by simpa [outer] using ht c hc
  have hleft : (s ++ t).toList.dropWhile outer = s.toList.dropWhile outer ++ t.toList := by
    rw [String.toList_append]
    exact dropWhile_append_stop (fun c hc => hinner c (List.mem_of_mem_head? hc)) s.toList
  have hright : (s.toList.dropWhile outer ++ t.toList).rdropWhile outer = s.toList.dropWhile outer ++ t.toList := by
    obtain ⟨before, last, hlast⟩ := (List.eq_nil_or_concat t.toList).resolve_left hne
    rw [List.concat_eq_append] at hlast
    rw [hlast, ← List.append_assoc]
    exact List.rdropWhile_concat_neg _ _ last (by simp [hinner last (by simp [hlast])])
  have hkept : ∀ c ∈ t.toList, (c != '\t' && c != '\n' && c != '\r') = true := by
    intro c hc
    have hblank (d : Char) (hd : d.toNat ≤ 0x20) : c ≠ d := by
      rintro rfl
      exact Nat.not_lt.mpr hd (ht c hc)
    simp [hblank '\t' (by decide), hblank '\n' (by decide), hblank '\r' (by decide)]
  refine ⟨(s.toList.dropWhile outer).filter fun c => c != '\t' && c != '\n' && c != '\r', ?_, ?_⟩
  · exact List.Subset.trans (List.filter_subset_self _) (List.dropWhile_suffix _).subset
  · have hclean : clean (s ++ t) = (((s ++ t).toList.dropWhile outer).rdropWhile outer).filter
      fun c => c != '\t' && c != '\n' && c != '\r' := rfl
    rw [hclean, hleft, hright, List.filter_append, List.filter_eq_self.mpr hkept]

theorem clean_printed (ht : Printed text.toList) : clean text = text.toList := by
  by_cases hne : text.toList = []
  · rw [String.toList_eq_nil_iff.mp hne]
    rfl
  · obtain ⟨front, hfront, hclean⟩ := clean_append ht hne ""
    rwa [List.subset_nil.mp hfront, String.empty_append, List.nil_append] at hclean

def isEncoded (c : Char) : Bool := Percent.unreserved c || c == '%'

theorem isEncoded_of_isAlphanum (h : c.isAlphanum) : isEncoded c := by simp [isEncoded, Percent.unreserved, h]

theorem ne_of_isEncoded {d : Char} (h : isEncoded c) (hd : isEncoded d = false) : c ≠ d := by
  rintro rfl
  simp [hd] at h

theorem isEncoded_range (h : isEncoded c) : 0x20 < c.toNat ∧ c.toNat < 0x7F := by
  simp only [isEncoded, Percent.unreserved, Bool.or_eq_true, beq_iff_eq] at h
  rcases h with ((((h | rfl) | rfl) | rfl) | rfl) | rfl
  · have htop : 'z'.val.toNat = 122 ∧ 'Z'.val.toNat = 90 ∧ '9'.val.toNat = 57 := by decide
    have hbottom : 'a'.val.toNat = 97 ∧ 'A'.val.toNat = 65 ∧ '0'.val.toNat = 48 := by decide
    have hval : c.toNat = c.val.toNat := rfl
    simp only [Char.isAlphanum, Char.isAlpha, Char.isUpper, Char.isLower, Char.isDigit, Bool.or_eq_true,
      Bool.and_eq_true, decide_eq_true_eq, UInt32.le_iff_toNat_le, ge_iff_le] at h
    omega
  all_goals decide

theorem inPath_of_isEncoded (h : isEncoded c) : Percent.inPath c := by
  have hrange := isEncoded_range h
  have hne (d : Char) (hd : isEncoded d = false) : (c != d) = true := bne_iff_ne.mpr (ne_of_isEncoded h hd)
  simp only [Percent.inPath, Percent.inFragment, Percent.visible, Bool.and_eq_true, decide_eq_true_eq]
  and_intros
  · omega
  · omega
  all_goals exact hne _ rfl

def piece (name : String) : List Char := Percent.encodeChars Percent.unreserved name.toList

theorem ofList_piece (name : String) : String.ofList (piece name) = Percent.encode Percent.unreserved name := rfl

theorem isEncoded_of_mem_piece (hc : c ∈ piece name) : isEncoded c := by
  rcases Percent.mem_encodeChars hc with ⟨hkeep, _⟩ | rfl | halnum
  · simp [isEncoded, hkeep]
  · rfl
  · exact isEncoded_of_isAlphanum halnum

theorem piece_injective : Function.Injective piece := fun _ _ h =>
  String.toList_inj.mp (Percent.encodeChars_injective (by decide) h)

theorem piece_eq_nil : piece name = [] ↔ name = "" := piece_injective.eq_iff (b := "")

theorem piece_eq_dot : piece name = ['.'] ↔ name = "." := piece_injective.eq_iff (b := ".")

theorem piece_eq_dots : piece name = ['.', '.'] ↔ name = ".." := piece_injective.eq_iff (b := "..")

theorem segment_piece (name : String) : segment (piece name) = Percent.encode Percent.unreserved name := by
  rw [segment, Percent.encodeChars_of_kept fun c hc => inPath_of_isEncoded (isEncoded_of_mem_piece hc), ofList_piece]

theorem driveSegments_piece (name : String) :
    driveSegments (piece name) = [Percent.encode Percent.unreserved name] := by
  rw [← segment_piece]
  have hne (d : Char) (hd : isEncoded d = false) : d ∉ piece name := fun hmem =>
    ne_of_isEncoded (isEncoded_of_mem_piece hmem) hd rfl
  have hcolon := hne ':' rfl
  have hbar := hne '|' rfl
  generalize piece name = cs at hcolon hbar
  fun_cases driveSegments cs with
  | case1 a b hdrive =>
    simp only [List.mem_cons, List.not_mem_nil, or_false, not_or] at hcolon hbar
    simp [isDrive, Ne.symm hcolon.2, Ne.symm hbar.2] at hdrive
  | case2 | case4 | case5 => rfl
  | case3 => simp at hcolon

theorem decodeDots_cons (hc : c ≠ '%') (cs : List Char) : decodeDots (c :: cs) = c :: decodeDots cs := by
  rw [decodeDots]
  · rintro rest rfl
    exact absurd rfl hc
  · rintro rest rfl
    exact absurd rfl hc

theorem decodeDots_byte {b : UInt8} (hb : b.toNat ≠ 0x2E) (cs : List Char) :
    decodeDots (Percent.byte b ++ cs) = Percent.byte b ++ decodeDots cs := by
  have hmark : ∀ n < 16, Percent.hexDigit n ≠ '%' := by decide
  have hlower : ∀ n < 16, Percent.hexDigit n ≠ 'e' := by decide
  have htwo : ∀ n < 16, Percent.hexDigit n = '2' → n = 2 := by decide
  have hfourteen : ∀ n < 16, Percent.hexDigit n = 'E' → n = 14 := by decide
  have hlt := b.toNat_lt
  have hhigh : b.toNat / 16 < 16 := by omega
  have hlow : b.toNat % 16 < 16 := by omega
  -- digits are capital, so a dot could only be written %2E
  simp only [Percent.byte, List.cons_append, List.nil_append]
  rw [decodeDots, decodeDots_cons (hmark _ hhigh), decodeDots_cons (hmark _ hlow)]
  · intro rest _ h
    injection h with _ h
    injection h with h _
    exact hlower _ hlow h
  · intro rest _ h
    injection h with hx h
    injection h with hy _
    have hsum := Nat.div_add_mod b.toNat 16
    have hfirst := htwo _ hhigh hx
    have hsecond := hfourteen _ hlow hy
    omega

theorem decodeDots_bytes {bs : List UInt8} (hbs : ∀ b ∈ bs, b.toNat ≠ 0x2E) (cs : List Char) :
    decodeDots (bs.flatMap Percent.byte ++ cs) = bs.flatMap Percent.byte ++ decodeDots cs := by
  induction bs with
  | nil => rfl
  | cons b bs ih =>
    have hrest := ih fun d hd => hbs d (List.mem_cons_of_mem b hd)
    rw [List.flatMap_cons, List.append_assoc, decodeDots_byte (hbs b List.mem_cons_self), hrest, List.append_assoc]

theorem decodeDots_piece (name : String) : decodeDots (piece name) = piece name := by
  rw [piece]
  induction name.toList with
  | nil => rfl
  | cons c cs ih =>
    rw [Percent.encodeChars, List.flatMap_cons, ← Percent.encodeChars]
    by_cases hc : Percent.unreserved c
    · have hne : c ≠ '%' := by
        rintro rfl
        exact absurd hc (by decide)
      rw [Percent.encodeChar, if_pos hc, List.singleton_append, decodeDots_cons hne, ih]
    · have hbytes : ∀ b ∈ String.utf8EncodeChar c, b.toNat ≠ 0x2E := by
        intro b hb hdot
        rcases Percent.mem_utf8EncodeChar hb with hself | hhigh
        · have hc' : c = '.' := Char.toNat_inj.mp (hself.symm.trans hdot)
          exact hc (hc' ▸ rfl)
        · omega
      rw [Percent.encodeChar, if_neg hc, decodeDots_bytes hbytes, ih]

def IsDots (name : String) : Prop := name = "." ∨ name = ".."

instance (name : String) : Decidable (IsDots name) := inferInstanceAs (Decidable (_ ∨ _))

theorem descend_name (h : ¬ IsDots name) (fam : Family) (segments : List String) (ps : List (List Char)) :
    descend fam segments (piece name :: ps) =
      descend fam (segments ++ [Percent.encode Percent.unreserved name]) ps := by
  obtain ⟨hdot, hdots⟩ := not_or.mp h
  rw [descend_cons (by rwa [decodeDots_piece, ne_eq, piece_eq_dots]) (by rwa [decodeDots_piece, ne_eq, piece_eq_dot]),
    driveSegments_piece, segment_piece, ite_self]

theorem descend_names (h : ∀ name ∈ names, ¬ IsDots name) (fam : Family) (segments : List String) :
    descend fam segments (names.map piece) = segments ++ names.map (Percent.encode Percent.unreserved) := by
  induction names generalizing segments with
  | nil => simp [descend]
  | cons name names ih =>
    rw [List.map_cons, descend_name (h name List.mem_cons_self), ih fun n hn => h n (List.mem_cons_of_mem name hn),
      List.append_assoc, List.map_cons, List.singleton_append]

def closing (names : List String) : List String := if names.isEmpty then [""] else names

theorem append_closing (segments names : List String) :
    (segments ++ if names.isEmpty then [""] else []) ++ names = segments ++ closing names := by
  cases names with
  | nil => simp [closing]
  | cons name names => simp [closing]

theorem descend_dot_name (h : ∀ name ∈ names, ¬ IsDots name) (fam : Family) (segments : List String) :
    descend fam segments (piece "." :: names.map piece) =
      segments ++ closing (names.map (Percent.encode Percent.unreserved)) := by
  rw [descend_dot (p := piece ".") rfl, descend_names h, List.isEmpty_map, ← append_closing, List.isEmpty_map]

theorem descend_dots_name (h : ∀ name ∈ names, ¬ IsDots name) (fam : Family) (segments : List String) :
    descend fam segments (piece ".." :: names.map piece) =
      parent fam segments ++ closing (names.map (Percent.encode Percent.unreserved)) := by
  rw [descend_dots (p := piece "..") rfl, descend_names h, List.isEmpty_map, ← append_closing, List.isEmpty_map]

theorem isDriveName_encode (name : String) : isDriveName (Percent.encode Percent.unreserved name) = false := by
  by_contra h
  simp only [isDriveName, Bool.not_eq_false, Bool.and_eq_true, beq_iff_eq, ← ofList_piece, String.toList_ofList] at h
  exact ne_of_isEncoded (isEncoded_of_mem_piece (List.mem_of_getLast? h.2)) rfl rfl

theorem parent_concat (h : isDriveName name = false) (fam : Family) (above : List String) :
    parent fam (above ++ [name]) = above := by
  generalize hsegments : above ++ [name] = segments
  fun_cases parent fam segments with
  | case1 s hdrive =>
    obtain ⟨rfl, rfl⟩ : above = [] ∧ name = s := by simpa [List.append_eq_singleton_iff] using hsegments
    simp [h] at hdrive
  | case2 s hdrive =>
    obtain ⟨rfl, rfl⟩ : above = [] ∧ name = s := by simpa [List.append_eq_singleton_iff] using hsegments
    rfl
  | case3 =>
    rw [← hsegments]
    exact List.dropLast_concat

theorem scheme?_eq_none (h : ':' ∉ cs) : scheme? cs = none := by
  fun_cases scheme? cs with
  | case1 _ rest hrest =>
    have hmem : ':' ∈ cs.dropWhile isSchemeCharacter := hrest ▸ List.mem_cons_self
    exact absurd ((List.dropWhile_suffix _).subset hmem) h
  | case2 | case3 => rfl

def Names (cs : List Char) (names : List String) : Prop :=
  ∃ first rest, names = first :: rest ∧ first ≠ "" ∧ cs = piece first ++ (rest.map piece).flatMap ('/' :: ·)

theorem Names.pieces (h : Names cs names) (fam : Family) : Url.pieces (isSlash fam) cs = names.map piece := by
  obtain ⟨first, rest, rfl, _, rfl⟩ := h
  apply pieces_joined (isSlash_slash fam)
  rw [← List.map_cons]
  intro p hp c hc
  obtain ⟨name, _, rfl⟩ := List.mem_map.mp hp
  have hencoded := isEncoded_of_mem_piece hc
  have hslash := ne_of_isEncoded hencoded (d := '/') rfl
  have hback := ne_of_isEncoded hencoded (d := '\\') rfl
  simp [isSlash, hslash, hback]

theorem Names.unique {names' : List String} (h : Names cs names) (h' : Names cs names') : names = names' :=
  piece_injective.list_map ((h.pieces .web).symm.trans (h'.pieces .web))

theorem isEitherSlash_of_isEncoded (h : isEncoded c) : isEitherSlash c = false := by
  have hslash := ne_of_isEncoded (d := '/') h rfl
  have hback := ne_of_isEncoded (d := '\\') h rfl
  simp [isEitherSlash, hslash, hback]

theorem Names.mem (h : Names cs names) (hc : c ∈ cs) : c = '/' ∨ isEncoded c := by
  obtain ⟨first, rest, rfl, _, rfl⟩ := h
  rcases List.mem_append.mp hc with hc | hc
  · exact .inr (isEncoded_of_mem_piece hc)
  · obtain ⟨p, hp, hc⟩ := List.mem_flatMap.mp hc
    obtain ⟨name, _, rfl⟩ := List.mem_map.mp hp
    rcases List.mem_cons.mp hc with rfl | hc
    · exact .inl rfl
    · exact .inr (isEncoded_of_mem_piece hc)

theorem Names.exists_cons (h : Names cs names) : ∃ c rest, cs = c :: rest ∧ isEncoded c := by
  obtain ⟨first, rest, rfl, hfirst, rfl⟩ := h
  obtain ⟨c, cs, hcs⟩ := List.exists_cons_of_ne_nil fun hnil => hfirst (piece_eq_nil.mp hnil)
  refine ⟨c, cs ++ (rest.map piece).flatMap ('/' :: ·), by rw [hcs, List.cons_append], ?_⟩
  exact isEncoded_of_mem_piece (hcs ▸ List.mem_cons_self)

theorem Names.notMem (h : Names cs names) (hc : isEncoded c = false) (hslash : c ≠ '/') : c ∉ cs := fun hmem => by
  rcases h.mem hmem with rfl | hencoded
  · exact hslash rfl
  · simp [hc] at hencoded

theorem Names.printed (h : Names cs names) : Printed cs := fun c hc => by
  rcases h.mem hc with rfl | hencoded
  · decide
  · exact (isEncoded_range hencoded).1

theorem Names.unmarked (h : Names cs names) : Unmarked cs := fun c hc => by
  rcases h.mem hc with rfl | hencoded
  · rfl
  · exact isPathEnd_of_inPath (inPath_of_isEncoded hencoded)

theorem startsWithDrive_eq_false (hcolon : ':' ∉ cs) (hbar : '|' ∉ cs) : startsWithDrive cs = false := by
  fun_cases startsWithDrive cs with
  | case1 a b rest =>
    simp only [List.mem_cons, not_or] at hcolon hbar
    simp [isDrive, Ne.symm hcolon.2.1, Ne.symm hbar.2.1]
  | case2 => rfl

def landing (base : Url) (names : List String) : Url :=
  let fam := family base.scheme
  let path := settled fam (descend fam (parent fam base.path.segments) (names.map piece))
  { base with path := .rooted path, query := none, fragment := none }

theorem withPath_names (h : Names cs names) (base : Url) :
    base.withPath (parent (family base.scheme) base.path.segments) cs = landing base names := by
  have htake := h.unmarked.takeWhile ending_nil
  have hdrop := h.unmarked.dropWhile ending_nil
  rw [List.append_nil] at htake hdrop
  rw [withPath, htake, hdrop, withEnd_nil, readPath, h.pieces, landing]

theorem readFile_names (h : Names cs names) (hfile : family base.scheme = .file) :
    readFile (some base) cs = .ok (landing base names) := by
  have hdrive := startsWithDrive_eq_false (h.notMem rfl (by decide)) (h.notMem rfl (by decide))
  have hlanding := withPath_names h base
  obtain ⟨a, rest, rfl, ha⟩ := h.exists_cons
  have hslash := isEitherSlash_of_isEncoded ha
  have hquery := ne_of_isEncoded (d := '?') ha rfl
  have hfragment := ne_of_isEncoded (d := '#') ha rfl
  have hrelative : readFile.relative (some base) (a :: rest) = landing base names := by
    rw [← hlanding, hfile]
    simp [readFile.relative, hquery, hfragment, hdrive]
  cases rest with
  | nil => simp [readFile, hslash, hrelative]
  | cons b rest => simp [readFile, hslash, hrelative]

theorem readRelative_names (h : Names cs names) (hfile : family base.scheme ≠ .file) :
    readRelative base cs = .ok (landing base names) := by
  have hparent : parent (family base.scheme) base.path.segments = base.path.segments.dropLast := by
    cases hfam : family base.scheme with
    | file => contradiction
    | web => rfl
    | other => rfl
  rw [← withPath_names h base, hparent]
  obtain ⟨a, rest, rfl, ha⟩ := h.exists_cons
  have hslash := isEitherSlash_of_isEncoded ha
  have hquery := ne_of_isEncoded (d := '?') ha rfl
  have hfragment := ne_of_isEncoded (d := '#') ha rfl
  generalize hcs : a :: rest = cs
  fun_cases readRelative base cs with
  | case1 => cases hcs
  | case2 => exact absurd (List.cons.inj hcs).1 hquery
  | case3 => exact absurd (List.cons.inj hcs).1 hfragment
  | case4 _ _ _ hb | case5 _ _ _ hb | case6 _ _ _ hb | case7 _ _ _ hb =>
    obtain ⟨rfl, _⟩ := List.cons.inj hcs
    simp [hslash] at hb
  | case8 => rfl

theorem join_names (h : Names text.toList names) :
    base.join text = if isRootless base.path then .error .rootlessBase else .ok (landing base names) := by
  have hscheme := scheme?_eq_none (h.notMem (c := ':') rfl (by decide))
  have hmark := h.notMem (c := '#') rfl (by decide)
  have hclean := clean_printed h.printed
  rw [join]
  generalize hbase : some base = base?
  fun_cases read base? text with
  | case1 cs scheme rest _ hread =>
    have hnone : scheme? cs = none := (congrArg scheme? hclean).trans hscheme
    cases hnone.symm.trans hread
  | case2 => cases hbase
  | case3 _ _ _ rest hread =>
    have hcs : text.toList = '#' :: rest := hclean.symm.trans hread
    exact absurd (hcs ▸ List.mem_cons_self) hmark
  | case4 _ _ _ hrootless _ =>
    obtain rfl := Option.some.inj hbase
    rw [if_pos hrootless]
  | case5 cs _ _ hrooted hfile _ =>
    obtain rfl := Option.some.inj hbase
    rw [if_neg hrooted, show cs = text.toList from hclean]
    exact readFile_names h hfile
  | case6 cs _ _ hrooted hfile _ =>
    obtain rfl := Option.some.inj hbase
    rw [if_neg hrooted, show cs = text.toList from hclean]
    exact readRelative_names h hfile

theorem landing_of_join (h : Names text.toList names) (hu : base.join text = .ok u) :
    isRootless base.path = false ∧ u = landing base names := by
  rw [join_names h] at hu
  by_cases hrootless : isRootless base.path
  · rw [if_pos hrootless] at hu
    contradiction
  · rw [if_neg hrootless] at hu
    exact ⟨Bool.eq_false_iff.mpr hrootless, (Except.ok.inj hu).symm⟩

structure IsDirectory (base : Url) (above : List String) : Prop where
  path : base.path = .rooted (above ++ [""])
  query : base.query = none
  fragment : base.fragment = none
  settled : Settled (family base.scheme) (above ++ [""])

theorem settled_append (h : Settled fam (above ++ [""])) (hfirst : first = "" → rest = []) :
    Settled fam (above ++ first :: rest) := by
  cases above with
  | nil =>
    by_cases hempty : first = ""
    · rw [hempty, hfirst hempty]
      exact settled_empty fam
    · exact settled_of_ne_nil hempty fam rest
  | cons name above =>
    cases fam with
    | web => rfl
    | other => rfl
    | file =>
      -- the first of two segments or more is not empty, and it stays first
      have hname : name ≠ "" := by
        cases above with
        | nil => exact h.ne_nil
        | cons next above => exact h.ne_nil
      exact settled_of_ne_nil hname .file _

theorem guard_append (h : u.path = .rooted (above ++ first :: rest)) (hbase : base.path = .rooted (above ++ [""]))
    (hauthority : u.authority = base.authority) (hfirst : first = "" → rest = []) : u.guard = base.guard := by
  simp only [guard, h, hbase, hauthority]
  cases base.authority with
  | some a => rfl
  | none =>
    cases above with
    | nil =>
      by_cases hempty : first = ""
      · rw [hempty, hfirst hempty]
      · simp [hempty]
    | cons name above =>
      by_cases hempty : name = ""
      · cases above <;> simp [hempty]
      · simp [hempty]

theorem render_rooted_append (above names : List String) :
    (Path.rooted (above ++ names)).render = (Path.rooted above).render ++ (Path.rooted names).render := by
  rw [Path.render, List.map_append, String.join_append]
  rfl

theorem render_rooted_cons (name : String) (names : List String) :
    (Path.rooted (name :: names)).render = "/" ++ name ++ (Path.rooted names).render := by
  rw [Path.render, List.map_cons, String.join_cons]
  rfl

theorem IsDirectory.path_landing (h : IsDirectory base above) (hfirst : first = "" → rest = [])
    (hstep : descend (family base.scheme) above (names.map piece) = above ++ first :: rest) :
    (landing base names).path = .rooted (above ++ first :: rest) := by
  have hparent : parent (family base.scheme) base.path.segments = above := by
    rw [h.path]
    exact parent_concat (by decide) _ above
  rw [landing, hparent, hstep]
  exact congrArg Path.rooted (settled_append h.settled hfirst)

theorem IsDirectory.render_landing (h : IsDirectory base above) (hfirst : first = "" → rest = [])
    (hstep : descend (family base.scheme) above (names.map piece) = above ++ first :: rest) :
    (landing base names).render = base.render ++ first ++ (Path.rooted rest).render := by
  have hpath := h.path_landing hfirst hstep
  have hguard : (landing base names).guard = base.guard := guard_append hpath h.path rfl hfirst
  have hrender : (landing base names).path.render = base.path.render ++ (first ++ (Path.rooted rest).render) := by
    rw [hpath, h.path, render_rooted_append, render_rooted_append, render_rooted_cons, render_rooted_cons]
    simp [Path.render, String.append_assoc]
  have hmarks : base.queryText = "" ∧ base.fragmentText = "" := by simp [queryText, fragmentText, h.query, h.fragment]
  rw [Url.render, Url.render, hguard, hrender, hmarks.1, hmarks.2]
  simp [landing, authorityText, queryText, fragmentText, String.append_assoc]

theorem unmarked_guard (u : Url) : Unmarked u.guard.toList := by
  unfold guard
  split <;> decide

theorem Bare.unmarked_render (hu : Bare u) (hpath : Unmarked u.path.render.toList) : Unmarked u.render.toList := by
  have hmarks : u.queryText = "" ∧ u.fragmentText = "" := by simp [queryText, fragmentText, hu.query, hu.fragment]
  have hcolon : Unmarked ":".toList := by decide
  rw [Url.render, hmarks.1, hmarks.2, String.append_empty, String.append_empty]
  simp only [String.toList_append]
  exact (((hu.scheme.append hcolon).append hu.authority).append (unmarked_guard u)).append hpath

theorem Front.unmarked_segments (h : Front cs u) : ∀ s ∈ u.path.segments, Unmarked s.toList := by
  intro s hs c hc
  cases hpath : u.path with
  | rootless text => simp [hpath, Path.segments] at hs
  | rooted segments =>
    rw [hpath] at hs
    apply h.path
    rw [hpath, toList_render_rooted]
    exact List.mem_flatMap.mpr ⟨s, hs, List.mem_cons_of_mem '/' hc⟩

theorem landing_withEnd (u : Url) (cs : List Char) (names : List String) :
    landing (u.withEnd cs) names = landing u names := by
  obtain ⟨query, fragment, h⟩ := exists_withEnd u cs
  rw [h]
  rfl

theorem Front.unmarked_landing (h : Front cs u) (names : List String) :
    Unmarked (landing u names).render.toList := by
  have hbare : Bare (landing u names) := ⟨rfl, rfl, h.scheme, h.authority⟩
  apply hbare.unmarked_render
  apply unmarked_rooted
  intro s hs
  rcases mem_settled hs with rfl | hs
  · exact unmarked_nil
  · have hsegments : ∀ s ∈ parent (family u.scheme) u.path.segments, Unmarked s.toList := fun s hs =>
      h.unmarked_segments s ((prefix_parent _ _).subset hs)
    exact unmarked_descend hsegments _ _ s hs

theorem unmarked_landing (h : parse text = .ok base) (names : List String) :
    Unmarked (landing base names).render.toList := by
  obtain ⟨front, tail, _, _, b, hb, rfl⟩ := exists_fronted h
  rw [landing_withEnd]
  exact hb.unmarked_landing names

theorem isDirectory_of_parse (h : parse text = .ok base) (hpath : base.path = .rooted (above ++ [""]))
    (hquery : base.query = none) (hfragment : base.fragment = none) : IsDirectory base above where
  path := hpath
  query := hquery
  fragment := hfragment
  settled := by
    obtain ⟨front, tail, _, _, b, hb, rfl⟩ := exists_fronted h
    rw [withEnd_path] at hpath
    rw [withEnd_scheme]
    exact hb.settled _ hpath

theorem slashed_clean (s : String) : Slashed (clean (s ++ "/")) := by
  obtain ⟨front, _, hclean⟩ := clean_append (t := "/") (by simp [Printed]) (by simp) s
  rw [hclean]
  simp [Slashed]

theorem exists_isDirectory {s : String} (h : parse (s ++ "/") = .ok base) (hquery : base.query = none)
    (hfragment : base.fragment = none) (hsegments : base.path.segments ≠ []) : ∃ above, IsDirectory base above := by
  obtain ⟨front, tail, hclean, htail, b, hb, hbase⟩ := exists_fronted h
  obtain rfl := eq_nil_of_withEnd htail (hbase ▸ hquery) (hbase ▸ hfragment)
  rw [withEnd_nil] at hbase
  subst hbase
  -- nothing is behind the front, so it ends as the text does
  have hslashed := slashed_clean s
  rw [hclean, List.append_nil] at hslashed
  obtain ⟨above, habove⟩ := hb.closed hslashed hsegments
  exact ⟨above, isDirectory_of_parse h habove hquery hfragment⟩

theorem end_none_of_unmarked (h : Unmarked u.render.toList) : u.query = none ∧ u.fragment = none := by
  have hmem (c : Char) (hc : isPathEnd c) : c ∉ u.render.toList := fun hmem => by simp [h c hmem] at hc
  have hquestion := hmem '?' rfl
  have hhash := hmem '#' rfl
  simp only [Url.render, String.toList_append, List.mem_append, not_or] at hquestion hhash
  constructor
  · cases hquery : u.query with
    | none => rfl
    | some q => simp [queryText, hquery] at hquestion
  · cases hfragment : u.fragment with
    | none => rfl
    | some f => simp [fragmentText, hfragment] at hhash

theorem clean_subset (text : String) : clean text ⊆ text.toList := by
  intro c hc
  have htrimmed := List.mem_filter.mp hc |>.1
  have hsuffix := List.dropWhile_suffix (l := text.toList) fun c => decide (c.toNat ≤ 0x20)
  exact hsuffix.subset ((List.rdropWhile_prefix _ _).subset htrimmed)

theorem parse_unmarked (htext : Unmarked text.toList) (h : parse text = .ok u) :
    u.query = none ∧ u.fragment = none := by
  have hclean : clean text = clean text ++ [] := (List.append_nil _).symm
  obtain ⟨b, hb, rfl⟩ := fronted_parse hclean (htext.subset (clean_subset text)) ending_nil h
  exact ⟨hb.query, hb.fragment⟩

theorem encodeQuery_eq (h : ∀ c ∈ cs, Percent.inWebQuery c) (fam : Family) :
    encodeQuery fam cs = String.ofList cs := by
  have hkept : ∀ c ∈ cs, (if fam = .other then Percent.inQuery else Percent.inWebQuery) c := by
    intro c hc
    have hweb := h c hc
    split
    · simp only [Percent.inWebQuery, Bool.and_eq_true] at hweb
      exact hweb.1
    · exact hweb
  rw [encodeQuery, Percent.encodeChars_of_kept hkept]

theorem printed_of_inWebQuery (h : Percent.inWebQuery c) : 0x20 < c.toNat ∧ c ≠ '#' := by
  simp only [Percent.inWebQuery, Percent.inQuery, Percent.visible, Bool.and_eq_true, decide_eq_true_eq,
    bne_iff_ne] at h
  have hspace : c.toNat ≠ 0x20 := fun hc => h.1.1.1.1.1.2 (Char.toNat_inj.mp hc)
  exact ⟨by omega, h.1.1.1.2⟩

theorem parse_append_query {s q : String} (hs : Unmarked s.toList) (hq : ∀ c ∈ q.toList, Percent.inWebQuery c)
    (h : parse (s ++ ("?" ++ q)) = .ok u) : u.query = some q ∧ u.fragment = none := by
  have htext : ("?" ++ q).toList = '?' :: q.toList := by simp
  have hprinted : Printed ("?" ++ q).toList := by
    rw [htext]
    exact List.forall_mem_cons.mpr ⟨by decide, fun c hc => (printed_of_inWebQuery (hq c hc)).1⟩
  have hmark : ∀ c ∈ q.toList, (c != '#') = true := fun c hc => bne_iff_ne.mpr (printed_of_inWebQuery (hq c hc)).2
  obtain ⟨front, hfront, hclean⟩ := clean_append hprinted (by simp [htext]) s
  rw [htext] at hclean
  obtain ⟨b, hb, rfl⟩ := fronted_parse hclean (hs.subset hfront) (by simp [Ending, isPathEnd]) h
  simp [withEnd, List.takeWhile_eq_self_iff.mpr hmark, List.dropWhile_eq_nil_iff.mpr hmark, encodeQuery_eq hq]

end FleetControl.Url
