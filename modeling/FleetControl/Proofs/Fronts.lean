import Mathlib
import FleetControl.Proofs.Hosts

/-!
The front of a URL, which is all before its query and its fragment. A text is read as its front, and then its
query and its fragment are put behind what was read.
-/
namespace FleetControl.Url

variable {u b base : Url} {q : Char → Bool} {cs ds front tail : List Char} {segments : List String}
  {scheme : String} {a : Authority} {host : Option Host}

def Ending (tail : List Char) : Prop := ∀ c ∈ tail.head?, isPathEnd c

theorem takeWhile_append_stop (h : ∀ c ∈ ds.head?, q c = false) (cs : List Char) :
    (cs ++ ds).takeWhile q = cs.takeWhile q := by
  have hnil : ds.takeWhile q = [] := by
    cases ds with
    | nil => rfl
    | cons c ds => exact List.takeWhile_cons_of_neg (by simp [h c rfl])
  rw [List.takeWhile_append, hnil, List.append_nil]
  by_cases hlength : (cs.takeWhile q).length = cs.length
  · rw [if_pos hlength]
    exact ((List.takeWhile_prefix q).eq_of_length hlength).symm
  · rw [if_neg hlength]

theorem dropWhile_append_stop (h : ∀ c ∈ ds.head?, q c = false) (cs : List Char) :
    (cs ++ ds).dropWhile q = cs.dropWhile q ++ ds := by
  have hself : ds.dropWhile q = ds := by
    cases ds with
    | nil => rfl
    | cons c ds => exact List.dropWhile_cons_of_neg (by simp [h c rfl])
  rw [List.dropWhile_append, hself]
  by_cases hempty : (cs.dropWhile q).isEmpty
  · rw [if_pos hempty, List.isEmpty_iff.mp hempty, List.nil_append]
  · rw [if_neg hempty]

theorem takeWhile_front (hq : ∀ c, isPathEnd c → q c = false) (htail : Ending tail) (front : List Char) :
    (front ++ tail).takeWhile q = front.takeWhile q :=
  takeWhile_append_stop (fun c hc => hq c (htail c hc)) front

theorem dropWhile_front (hq : ∀ c, isPathEnd c → q c = false) (htail : Ending tail) (front : List Char) :
    (front ++ tail).dropWhile q = front.dropWhile q ++ tail :=
  dropWhile_append_stop (fun c hc => hq c (htail c hc)) front

theorem exists_front (cs : List Char) : ∃ front tail, cs = front ++ tail ∧ Unmarked front ∧ Ending tail := by
  refine ⟨cs.takeWhile fun c => !isPathEnd c, cs.dropWhile fun c => !isPathEnd c,
    List.takeWhile_append_dropWhile.symm, ?_, ?_⟩
  · intro c hc
    simpa using List.mem_takeWhile_imp hc
  · intro c hc
    have hhead := List.head?_dropWhile_not (fun c => !isPathEnd c) cs
    simpa [Option.mem_def.mp hc] using hhead

theorem Unmarked.takeWhile (h : Unmarked front) (htail : Ending tail) :
    (front ++ tail).takeWhile (fun c => !isPathEnd c) = front := by
  rw [takeWhile_front (by simp) htail]
  exact List.takeWhile_eq_self_iff.mpr fun c hc => by simp [h c hc]

theorem Unmarked.dropWhile (h : Unmarked front) (htail : Ending tail) :
    (front ++ tail).dropWhile (fun c => !isPathEnd c) = tail := by
  rw [dropWhile_front (by simp) htail]
  exact List.append_left_eq_self.mpr (List.dropWhile_eq_nil_iff.mpr fun c hc => by simp [h c hc])

theorem ending_nil : Ending [] := by simp [Ending]

theorem Unmarked.of_cons {c : Char} (h : Unmarked (c :: cs)) : Unmarked cs := h.subset (List.subset_cons_self c cs)

theorem isSlash_of_isPathEnd {c : Char} {fam : Family} (h : isPathEnd c) : isSlash fam c = false :=
  eq_false_of_isPathEnd rfl rfl h

structure Bare (u : Url) : Prop where
  query : u.query = none
  fragment : u.fragment = none
  scheme : Unmarked u.scheme.toList
  authority : Unmarked u.authorityText.toList

/-- What comes of reading a front: a URL without any marks, whose path ends in a slash if the text does. -/
structure Front (cs : List Char) (u : Url) : Prop extends Bare u where
  path : Unmarked u.path.render.toList
  settled : ∀ segments, u.path = .rooted segments → Settled (family u.scheme) segments
  -- without segments the path is a text of its own, or an authority with nothing behind it
  closed : Slashed cs → u.path.segments ≠ [] → ∃ above, u.path = .rooted (above ++ [""])

theorem Front.of_suffix (h : Front ds u) (hsuffix : ds <:+ cs) : Front cs u :=
  { h with closed := fun hcs => h.closed (hcs.of_suffix hsuffix) }

theorem front_rooted (hu : Bare u) (hsegments : ∀ s ∈ segments, Unmarked s.toList)
    (hsettled : Settled (family u.scheme) segments) (hclosed : Slashed cs → ∃ above, segments = above ++ [""]) :
    Front cs { u with path := .rooted segments, query := none, fragment := none } where
  query := rfl
  fragment := rfl
  scheme := hu.scheme
  authority := hu.authority
  path := unmarked_rooted hsegments
  settled _ h := Path.rooted.inj h ▸ hsettled
  closed hcs _ := by
    obtain ⟨above, habove⟩ := hclosed hcs
    exact ⟨above, congrArg Path.rooted habove⟩

theorem withEnd_nil (u : Url) : u.withEnd [] = u := rfl

theorem exists_withEnd (u : Url) (cs : List Char) :
    ∃ query fragment, u.withEnd cs = { u with query, fragment } := by
  fun_cases withEnd u cs with
  | case1 | case2 => exact ⟨_, _, rfl⟩
  | case3 => exact ⟨u.query, _, rfl⟩
  | case4 => exact ⟨u.query, u.fragment, rfl⟩

@[simp] theorem withEnd_scheme (u : Url) (cs : List Char) : (u.withEnd cs).scheme = u.scheme := by
  obtain ⟨_, _, h⟩ := exists_withEnd u cs
  rw [h]

@[simp] theorem withEnd_path (u : Url) (cs : List Char) : (u.withEnd cs).path = u.path := by
  obtain ⟨_, _, h⟩ := exists_withEnd u cs
  rw [h]

theorem eq_nil_of_withEnd (htail : Ending tail) (hquery : (u.withEnd tail).query = none)
    (hfragment : (u.withEnd tail).fragment = none) : tail = [] := by
  revert hquery hfragment
  fun_cases withEnd u tail with
  | case1 | case2 => exact nofun
  | case3 => exact fun _ => nofun
  | case4 tail hquestion hhash =>
    intro _ _
    cases tail with
    | nil => rfl
    | cons c tail =>
      rcases isPathEnd_iff.mp (htail c rfl) with rfl | rfl
      · exact (hquestion tail rfl).elim
      · exact (hhash tail rfl).elim

theorem front_unrooted (hu : Bare u) (hother : family u.scheme = .other) (hpath : u.path = .rooted []) :
    Front cs u where
  toBare := hu
  path := by simp [hpath, Path.render, Unmarked]
  settled segments _ := by
    rw [hother]
    rfl
  closed _ h := by simp [hpath, Path.segments] at h

theorem front_root (hu : Bare u) : Front cs { u with path := .rooted [""] } where
  query := hu.query
  fragment := hu.fragment
  scheme := hu.scheme
  authority := hu.authority
  path := unmarked_rooted (by simp [unmarked_nil])
  settled _ h := Path.rooted.inj h ▸ settled_empty _
  closed _ _ := ⟨[], rfl⟩

/-- The text of a front read to its end, with what follows it put behind. -/
def Fronted (front tail : List Char) (u : Url) : Prop := ∃ b, Front front b ∧ u = b.withEnd tail

theorem Fronted.of_suffix (h : Fronted ds tail u) (hsuffix : ds <:+ front) : Fronted front tail u := by
  obtain ⟨b, hb, rfl⟩ := h
  exact ⟨b, hb.of_suffix hsuffix, rfl⟩

theorem fronted_withPath (hu : Bare u) (hsegments : ∀ s ∈ segments, Unmarked s.toList) (hfront : Unmarked front)
    (htail : Ending tail) : Fronted front tail (u.withPath segments (front ++ tail)) := by
  refine ⟨_, front_rooted hu (unmarked_readPath hsegments _ front) (settled_settled _ _)
    (exists_readPath_concat _ _), ?_⟩
  rw [withPath, hfront.takeWhile htail, hfront.dropWhile htail]

theorem fronted_withNewPath (hu : Bare u) (hfront : Unmarked front) (htail : Ending tail) :
    Fronted front tail (u.withPath [] (front ++ tail)) :=
  fronted_withPath hu (fun _ hs => by simp at hs) hfront htail

theorem fronted_withRootedPath (hu : Bare u) (hpath : family u.scheme = .other → u.path = .rooted [])
    (hfront : Unmarked front) (htail : Ending tail) : Fronted front tail (u.withRootedPath (front ++ tail)) := by
  cases front with
  | cons c front =>
    have hend : isPathEnd c = false := hfront c List.mem_cons_self
    by_cases hslash : isSlash (family u.scheme) c
    · rw [List.cons_append, withRootedPath, if_pos hslash]
      exact (fronted_withNewPath hu hfront.of_cons htail).of_suffix (List.suffix_cons c front)
    · rw [List.cons_append, withRootedPath, if_neg hslash, if_neg (by simp [hend])]
      exact fronted_withNewPath hu hfront htail
  | nil =>
    -- only other schemes leave the path empty
    rw [List.nil_append]
    by_cases hother : family u.scheme = .other
    · refine ⟨u, front_unrooted hu hother (hpath hother), ?_⟩
      cases tail with
      | nil => simp [withRootedPath, hother, withEnd]
      | cons c tail => simp [withRootedPath, hother, htail c rfl, isSlash_of_isPathEnd (htail c rfl)]
    · cases tail with
      | nil => exact ⟨_, front_root hu, by simp [withRootedPath, hother, withEnd]⟩
      | cons c tail =>
        rw [withRootedPath, if_neg (by simp [isSlash_of_isPathEnd (htail c rfl)]), if_neg (by simp [hother])]
        exact fronted_withNewPath hu unmarked_nil htail

theorem exists_of_map_eq_ok {ε α β : Type} {x : Except ε α} {g : α → β} {y : β} (h : x.map g = .ok y) :
    ∃ z, x = .ok z ∧ g z = y := by
  cases x with
  | error e => contradiction
  | ok z => exact ⟨z, rfl, Except.ok.inj h⟩

theorem exists_of_bind_eq_ok {ε α β : Type} {x : Except ε α} {g : α → Except ε β} {y : β}
    (h : (x >>= g) = .ok y) : ∃ z, x = .ok z ∧ g z = .ok y := by
  cases x with
  | error e => contradiction
  | ok z => exact ⟨z, rfl, h⟩

theorem of_check_eq_ok {ε α : Type} {p : Prop} [Decidable p] {fault : ε} {g : PUnit → Except ε α}
    {x : Except ε α} {y : α} (h : (if p then throw fault >>= g else x) = .ok y) : ¬ p ∧ x = .ok y := by
  by_cases hp : p
  · rw [if_pos hp] at h
    contradiction
  · rw [if_neg hp] at h
    exact ⟨hp, h⟩

theorem unmarked_encodeUserInfo (cs : List Char) : Unmarked (encodeUserInfo cs).toList := by
  rw [encodeUserInfo, String.toList_ofList]
  apply unmarked_encodeChars
  intro c _ hkeep
  simp only [Percent.inUserInfo, Bool.and_eq_true] at hkeep
  exact isPathEnd_of_inPath hkeep.1

theorem unmarked_password (cs : List Char) :
    Unmarked (((userInfo cs).2.map fun p => ":" ++ p).getD "").toList := by
  simp only [userInfo]
  by_cases hempty : ((cs.dropWhile (· != ':')).drop 1).isEmpty
  · rw [if_pos hempty]
    exact unmarked_nil
  · rw [if_neg hempty, Option.map_some, Option.getD_some, String.toList_append]
    exact Unmarked.append (by decide) (unmarked_encodeUserInfo _)

theorem unmarked_readHost {fam : Family} (h : readHost fam cs = .ok host) :
    Unmarked ((host.map Host.render).getD "").toList := by
  revert h
  fun_cases readHost fam cs with
  | case1 =>
    rintro ⟨⟩
    exact unmarked_nil
  | case2 =>
    intro h
    obtain ⟨name, hname, rfl⟩ := exists_of_map_eq_ok h
    exact unmarked_verbatim hname
  | case3 => exact nofun
  | case4 =>
    intro h
    obtain ⟨name, hname, rfl⟩ := exists_of_map_eq_ok h
    exact unmarked_host hname

theorem readAuthority_eq_ok (h : readAuthority scheme cs = .ok a) : ∃ user name host port,
    readHost (family scheme) name = .ok host ∧ a = ⟨(userInfo user).1, (userInfo user).2, host, port⟩ := by
  simp only [readAuthority] at h
  obtain ⟨_hnamed, h⟩ := of_check_eq_ok h
  obtain ⟨host, hhost, h⟩ := exists_of_bind_eq_ok h
  obtain ⟨_hunported, h⟩ := of_check_eq_ok h
  obtain ⟨port, _hport, h⟩ := exists_of_bind_eq_ok h
  obtain ⟨_hanonymous, h⟩ := of_check_eq_ok h
  exact ⟨_, _, host, port, hhost, (Except.ok.inj h).symm⟩

theorem unmarked_authority (h : readAuthority scheme cs = .ok a) : Unmarked a.render.toList := by
  obtain ⟨user, name, host, port, hhost, rfl⟩ := readAuthority_eq_ok h
  have huser : Unmarked (Authority.userInfo ⟨(userInfo user).1, (userInfo user).2, host, port⟩).toList := by
    fun_cases Authority.userInfo with
    | case1 => exact unmarked_nil
    | case2 =>
      rw [String.toList_append, String.toList_append]
      exact ((unmarked_encodeUserInfo _).append (unmarked_password user)).append (by decide)
  have hport : Unmarked ((port.map fun p => s!":{p}").getD "").toList := by
    cases port with
    | none => exact unmarked_nil
    | some n =>
      rw [Option.map_some, Option.getD_some, String.toList_append]
      exact Unmarked.append (by decide) (unmarked_nat n)
  rw [Authority.render, String.toList_append, String.toList_append]
  exact (huser.append (unmarked_readHost hhost)).append hport

theorem bare_of_authority (hscheme : Unmarked scheme.toList) (ha : Unmarked a.render.toList) (path : Path) :
    Bare ⟨scheme, some a, path, none, none⟩ where
  query := rfl
  fragment := rfl
  scheme := hscheme
  authority := by
    rw [authorityText, Option.map_some, Option.getD_some, String.toList_append]
    exact Unmarked.append (by decide) ha

theorem fronted_readAfterSlashes (hscheme : Unmarked scheme.toList) (hfront : Unmarked front)
    (htail : Ending tail) (h : readAfterSlashes scheme (front ++ tail) = .ok u) : Fronted front tail u := by
  have hstop : ∀ c, isPathEnd c → (!isAuthorityEnd (family scheme) c) = false := fun c hc => by
    simp [isAuthorityEnd, hc]
  simp only [readAfterSlashes, takeWhile_front hstop htail, dropWhile_front hstop htail] at h
  obtain ⟨a, ha, h⟩ := exists_of_bind_eq_ok h
  obtain rfl := Except.ok.inj h
  have hsuffix := List.dropWhile_suffix (l := front) fun c => !isAuthorityEnd (family scheme) c
  have hbare := bare_of_authority hscheme (unmarked_authority ha) (.rooted [])
  have hrest := fronted_withRootedPath hbare (fun _ => rfl) (hfront.subset hsuffix.subset) htail
  exact hrest.of_suffix hsuffix

theorem bare_file (hhost : Unmarked ((host.map Host.render).getD "").toList) : Bare (fileUrl host) := by
  apply bare_of_authority (by decide)
  simpa [Authority.render, Authority.userInfo, Authority.empty] using hhost

theorem bare_nameless : Bare (fileUrl none) := bare_file unmarked_nil

theorem unmarked_readFileHost (h : readFileHost cs = .ok host) :
    Unmarked ((host.map Host.render).getD "").toList := by
  revert h
  fun_cases readFileHost cs with
  | case1 =>
    rintro ⟨⟩
    exact unmarked_nil
  | case2 =>
    intro h
    obtain ⟨name, hname, rfl⟩ := exists_of_map_eq_ok h
    by_cases hlocal : name = .domain "localhost"
    · rw [if_pos hlocal]
      exact unmarked_nil
    · rw [if_neg hlocal]
      exact unmarked_host hname

theorem withEnd_withAuthority (b : Url) (authority : Option Authority) (tail : List Char) :
    { b with authority }.withEnd tail = { b.withEnd tail with authority } := by
  fun_cases withEnd b tail with
  | case1 rest query c fragment hmark =>
    rw [withEnd, hmark]
  | case2 rest query hmark =>
    rw [withEnd, hmark]
  | case3 rest => rfl
  | case4 tail hquestion hhash => rw [withEnd.eq_3 _ _ hquestion hhash]

theorem withoutDriveHost_withEnd (b : Url) (tail : List Char) :
    (b.withEnd tail).withoutDriveHost = b.withoutDriveHost.withEnd tail := by
  fun_cases withoutDriveHost b with
  | case1 s above hpath hdrive =>
    refine Eq.trans ?_ (withEnd_withAuthority b _ tail).symm
    rw [withoutDriveHost]
    simp only [withEnd_path, hpath, hdrive, if_true]
  | case2 s above hpath hdrive =>
    rw [withoutDriveHost]
    simp only [withEnd_path, hpath, hdrive, if_false, Bool.false_eq_true]
  | case3 hpath =>
    rw [withoutDriveHost, withEnd_path]
    cases hp : b.path with
    | rootless text => rfl
    | rooted segments =>
      cases segments with
      | nil => rfl
      | cons s above => exact (hpath s above hp).elim

theorem Front.withoutDriveHost (h : Front front b) : Front front b.withoutDriveHost := by
  fun_cases Url.withoutDriveHost b with
  | case1 => exact { h with authority := (by decide : Unmarked ("//" ++ Authority.empty.render).toList) }
  | case2 | case3 => exact h

theorem fronted_readFileAfterSlashes (hfront : Unmarked front) (htail : Ending tail)
    (h : readFileAfterSlashes (front ++ tail) = .ok u) : Fronted front tail u := by
  have hstop : ∀ c, isPathEnd c → (!(isEitherSlash c || isPathEnd c)) = false := fun c hc => by simp [hc]
  simp only [readFileAfterSlashes, takeWhile_front hstop htail, dropWhile_front hstop htail] at h
  by_cases hdrive : isDrive (front.takeWhile fun c => !(isEitherSlash c || isPathEnd c))
  · rw [if_pos hdrive] at h
    exact Except.ok.inj h ▸ fronted_withNewPath bare_nameless hfront htail
  · rw [if_neg hdrive] at h
    obtain ⟨host, hhost, h⟩ := exists_of_bind_eq_ok h
    obtain rfl := Except.ok.inj h
    have hsuffix := List.dropWhile_suffix (l := front) fun c => !(isEitherSlash c || isPathEnd c)
    have hbare := bare_file (unmarked_readFileHost hhost)
    obtain ⟨b, hb, hrest⟩ := fronted_withRootedPath hbare (fun h => by simp [fileUrl, family] at h)
      (hfront.subset hsuffix.subset) htail
    rw [hrest, withoutDriveHost_withEnd]
    exact ⟨_, (hb.of_suffix hsuffix).withoutDriveHost, rfl⟩

theorem exists_cons_of_append {c : Char} (hc : isPathEnd c = false) (htail : Ending tail)
    (h : front ++ tail = c :: cs) : ∃ rest, front = c :: rest ∧ cs = rest ++ tail := by
  cases front with
  | cons d rest =>
    obtain ⟨rfl, rfl⟩ := List.cons.inj h
    exact ⟨rest, rfl, rfl⟩
  | nil =>
    have hend : isPathEnd c := htail c (by simp [show tail = c :: cs from h])
    simp [hc] at hend

theorem isPathEnd_of_isEitherSlash {c : Char} (h : isEitherSlash c) : isPathEnd c = false :=
  isPathEnd_eq_false rfl rfl h

theorem readFile_eq_ok (h : readFile none cs = .ok u) :
    (cs = [] ∧ u = fileUrl none) ∨
    (∃ a b rest, isEitherSlash a ∧ isEitherSlash b ∧ cs = a :: b :: rest ∧ readFileAfterSlashes rest = .ok u) ∨
    (∃ a rest, isEitherSlash a ∧ cs = a :: rest ∧ u = (fileUrl none).withPath [] rest) ∨
    u = (fileUrl none).withPath [] cs := by
  revert h
  generalize hbase : (none : Option Url) = base
  fun_cases readFile base cs with
  | case1 _ a b rest hslashes => exact fun h => .inr (.inl ⟨a, b, rest, hslashes.1, hslashes.2, rfl, h⟩)
  | case2 _ a b rest _ hslash =>
    subst hbase
    rintro ⟨⟩
    exact .inr (.inr (.inl ⟨a, _, hslash, rfl, rfl⟩))
  | case3 =>
    subst hbase
    rintro ⟨⟩
    exact .inr (.inr (.inr rfl))
  | case4 _ a =>
    subst hbase
    rintro ⟨⟩
    by_cases hslash : isEitherSlash a
    · rw [if_pos hslash]
      exact .inr (.inr (.inl ⟨a, [], hslash, rfl, rfl⟩))
    · rw [if_neg hslash]
      exact .inr (.inr (.inr rfl))
  | case5 base => cases hbase
  | case6 =>
    rintro ⟨⟩
    exact .inl ⟨rfl, rfl⟩

theorem fronted_readFile (hfront : Unmarked front) (htail : Ending tail)
    (h : readFile none (front ++ tail) = .ok u) : Fronted front tail u := by
  rcases readFile_eq_ok h with ⟨hnil, rfl⟩ | ⟨a, b, rest, ha, hb, hcs, hread⟩ | ⟨a, rest, ha, hcs, rfl⟩ | rfl
  · obtain ⟨rfl, rfl⟩ := List.append_eq_nil_iff.mp hnil
    exact ⟨_, front_root bare_nameless, rfl⟩
  · obtain ⟨_, rfl, hbelow⟩ := exists_cons_of_append (isPathEnd_of_isEitherSlash ha) htail hcs
    obtain ⟨front, rfl, rfl⟩ := exists_cons_of_append (isPathEnd_of_isEitherSlash hb) htail hbelow.symm
    have hrest := fronted_readFileAfterSlashes hfront.of_cons.of_cons htail hread
    exact hrest.of_suffix ((List.suffix_cons b front).trans (List.suffix_cons a _))
  · obtain ⟨front, rfl, rfl⟩ := exists_cons_of_append (isPathEnd_of_isEitherSlash ha) htail hcs
    exact (fronted_withNewPath bare_nameless hfront.of_cons htail).of_suffix (List.suffix_cons a front)
  · exact fronted_withNewPath bare_nameless hfront htail

theorem bare_of_scheme (hscheme : Unmarked scheme.toList) (path : Path) : Bare ⟨scheme, none, path, none, none⟩ where
  query := rfl
  fragment := rfl
  scheme := hscheme
  authority := unmarked_nil

theorem front_rootless (hu : Bare u) (hcs : Unmarked cs) :
    Front cs { u with path := .rootless (String.ofList (Percent.encodeChars Percent.visible cs)) } where
  query := hu.query
  fragment := hu.fragment
  scheme := hu.scheme
  authority := hu.authority
  path := by
    rw [Path.render, String.toList_ofList]
    exact unmarked_encodeChars fun c hc _ => hcs c hc
  settled _ h := by contradiction
  closed _ h := by simp [Path.segments] at h

theorem fronted_readOther (hscheme : Unmarked scheme.toList) (hfront : Unmarked front) (htail : Ending tail)
    (h : readOther scheme (front ++ tail) = .ok u) : Fronted front tail u := by
  have hbare := bare_of_scheme hscheme
  have hslash : isPathEnd '/' = false := rfl
  revert h
  generalize hcs : front ++ tail = cs
  fun_cases readOther scheme cs with
  | case1 rest =>
    intro h
    obtain ⟨_, rfl, hbelow⟩ := exists_cons_of_append hslash htail hcs
    obtain ⟨front, rfl, rfl⟩ := exists_cons_of_append hslash htail hbelow.symm
    have hrest := fronted_readAfterSlashes hscheme hfront.of_cons.of_cons htail h
    exact hrest.of_suffix ((List.suffix_cons _ front).trans (List.suffix_cons _ _))
  | case2 _ rest _ =>
    rintro ⟨⟩
    obtain ⟨front, rfl, rfl⟩ := exists_cons_of_append hslash htail hcs
    exact (fronted_withNewPath (hbare _) hfront.of_cons htail).of_suffix (List.suffix_cons _ front)
  | case3 u _ _ _ text =>
    subst hcs
    rintro ⟨⟩
    refine ⟨_, front_rootless (hbare (.rooted [])) hfront, ?_⟩
    simp only [u, text, hfront.takeWhile htail, hfront.dropWhile htail]

theorem isPathEnd_toLower {c : Char} (h : isPathEnd c = false) : isPathEnd c.toLower = false := by
  by_cases hupper : c.val ≥ 'A'.val ∧ c.val ≤ 'Z'.val
  · have hbelow : c.val.toNat ≤ 90 := UInt32.le_iff_toNat_le.mp hupper.2
    have hsum : (c.val + ('a'.val - 'A'.val)).toNat = c.val.toNat + 32 := by
      rw [UInt32.toNat_add]
      exact Nat.mod_eq_of_lt (show c.val.toNat + 32 < 4294967296 by omega)
    have habove : 65 ≤ c.val.toNat := UInt32.le_iff_toNat_le.mp hupper.1
    rw [Char.toLower, dif_pos hupper]
    by_contra hend
    rcases isPathEnd_iff.mp (by simpa using hend) with hend | hend
    · have heq : c.val.toNat + 32 = 63 := hsum ▸ congrArg (fun d => d.val.toNat) hend
      omega
    · have heq : c.val.toNat + 32 = 35 := hsum ▸ congrArg (fun d => d.val.toNat) hend
      omega
  · rw [Char.toLower, dif_neg hupper]
    exact h

theorem scheme?_front (hfront : Unmarked front) (htail : Ending tail)
    (h : scheme? (front ++ tail) = some (scheme, cs)) :
    ∃ rest, cs = rest ++ tail ∧ rest <:+ front ∧ Unmarked scheme.toList := by
  have hstop : ∀ c, isPathEnd c → isSchemeCharacter c = false := fun c => eq_false_of_isPathEnd rfl rfl
  revert h
  fun_cases scheme? (front ++ tail) with
  | case1 _ rest hdrop =>
    intro h
    obtain ⟨hscheme, rfl⟩ := Prod.mk.inj (Option.some.inj h)
    rw [dropWhile_front hstop htail] at hdrop
    rw [takeWhile_front hstop htail] at hscheme
    obtain ⟨after, hafter, rfl⟩ := exists_cons_of_append rfl htail hdrop
    refine ⟨after, rfl, ?_, ?_⟩
    · have hsuffix := List.dropWhile_suffix (l := front) isSchemeCharacter
      rw [hafter] at hsuffix
      exact (List.suffix_cons _ after).trans hsuffix
    · rw [← hscheme, String.toList_ofList]
      exact List.forall_mem_map.mpr fun c hc =>
        isPathEnd_toLower (hfront c ((List.takeWhile_prefix _).subset hc))
  | case2 | case3 => exact nofun

theorem fronted_readAfterScheme (hscheme : Unmarked scheme.toList) (hfront : Unmarked front) (htail : Ending tail)
    (h : readAfterScheme none scheme (front ++ tail) = .ok u) : Fronted front tail u := by
  have hstop : ∀ c, isPathEnd c → isEitherSlash c = false := fun c => eq_false_of_isPathEnd rfl rfl
  revert h
  fun_cases readAfterScheme none scheme (front ++ tail) with
  | case1 => exact fronted_readFile hfront htail
  | case2 => exact fronted_readOther hscheme hfront htail
  | case3 _ _ base hbase => cases hbase
  | case4 =>
    intro h
    rw [dropWhile_front hstop htail] at h
    have hsuffix := List.dropWhile_suffix (l := front) isEitherSlash
    exact (fronted_readAfterSlashes hscheme (hfront.subset hsuffix.subset) htail h).of_suffix hsuffix

theorem fronted_parse {text : String} (hclean : clean text = front ++ tail) (hfront : Unmarked front)
    (htail : Ending tail) (h : parse text = .ok u) : Fronted front tail u := by
  simp only [parse, read, hclean] at h
  cases hscheme : scheme? (front ++ tail) with
  | none => simp [hscheme] at h
  | some p =>
    obtain ⟨scheme, rest⟩ := p
    simp only [hscheme] at h
    obtain ⟨rest, rfl, hsuffix, hunmarked⟩ := scheme?_front hfront htail hscheme
    exact (fronted_readAfterScheme hunmarked (hfront.subset hsuffix.subset) htail h).of_suffix hsuffix

theorem exists_fronted {text : String} (h : parse text = .ok u) :
    ∃ front tail, clean text = front ++ tail ∧ Ending tail ∧ Fronted front tail u := by
  obtain ⟨front, tail, hclean, hfront, htail⟩ := exists_front (clean text)
  exact ⟨front, tail, hclean, htail, fronted_parse hclean hfront htail h⟩

end FleetControl.Url
