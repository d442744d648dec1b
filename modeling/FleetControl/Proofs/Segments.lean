import Mathlib.Data.List.TakeWhile
import FleetControl.Proofs.PercentCoding
import FleetControl.Url.Reader

/-!
The segments of a path. Reading one keeps the marks of the query and the fragment out of it, and a last slash
leaves an empty segment at the end.
-/
namespace FleetControl.Url

variable {sep : Char → Bool} {c s : Char} {cs ds p rest : List Char} {ps : List (List Char)}
  {segments : List String} {fam : Family} {b : UInt8} {keep : Char → Bool}

def Unmarked (cs : List Char) : Prop := ∀ c ∈ cs, isPathEnd c = false

instance (cs : List Char) : Decidable (Unmarked cs) :=
  decidable_of_iff (cs.all fun c => !isPathEnd c) (by simp [Unmarked])

theorem unmarked_nil : Unmarked [] := by simp [Unmarked]

theorem Unmarked.append (h : Unmarked cs) (hd : Unmarked ds) : Unmarked (cs ++ ds) :=
  List.forall_mem_append.mpr ⟨h, hd⟩

theorem Unmarked.subset (h : Unmarked cs) (hd : ds ⊆ cs) : Unmarked ds := fun c hc => h c (hd hc)

theorem isPathEnd_iff : isPathEnd c ↔ c = '?' ∨ c = '#' := by simp [isPathEnd]

theorem eq_false_of_isPathEnd {q : Char → Bool} (hquery : q '?' = false) (hfragment : q '#' = false)
    (h : isPathEnd c) : q c = false := by
  rcases isPathEnd_iff.mp h with rfl | rfl
  · exact hquery
  · exact hfragment

theorem isPathEnd_eq_false {q : Char → Bool} (hquery : q '?' = false) (hfragment : q '#' = false) (h : q c) :
    isPathEnd c = false := by
  by_contra hend
  have hq := eq_false_of_isPathEnd hquery hfragment (by simpa using hend)
  simp [h] at hq

theorem isPathEnd_of_isAlphanum (h : c.isAlphanum) : isPathEnd c = false :=
  isPathEnd_eq_false (q := Char.isAlphanum) rfl rfl h

theorem unmarked_encodeChars (h : ∀ c ∈ cs, keep c → isPathEnd c = false) :
    Unmarked (Percent.encodeChars keep cs) := by
  intro c hc
  rcases Percent.mem_encodeChars hc with ⟨hkeep, hmem⟩ | rfl | halnum
  · exact h c hmem hkeep
  · rfl
  · exact isPathEnd_of_isAlphanum halnum

theorem isPathEnd_of_inPath (h : Percent.inPath c) : isPathEnd c = false := isPathEnd_eq_false rfl rfl h

theorem unmarked_segment (cs : List Char) : Unmarked (segment cs).toList := by
  rw [segment, String.toList_ofList]
  exact unmarked_encodeChars fun c _ => isPathEnd_of_inPath

theorem pieces_cons_sep (h : sep c) (cs : List Char) : pieces sep (c :: cs) = [] :: pieces sep cs := by
  simp [pieces, h]

theorem exists_pieces (sep : Char → Bool) (cs : List Char) : ∃ p ps, pieces sep cs = p :: ps := by
  cases cs with
  | nil => exact ⟨_, _, rfl⟩
  | cons c cs =>
    rw [pieces]
    split
    · exact ⟨_, _, rfl⟩
    · split <;> exact ⟨_, _, rfl⟩

theorem pieces_cons (h : sep c = false) (hcs : pieces sep cs = p :: ps) :
    pieces sep (c :: cs) = (c :: p) :: ps := by
  simp [pieces, h, hcs]

theorem pieces_append (hp : ∀ c ∈ p, sep c = false) (hs : sep s) (rest : List Char) :
    pieces sep (p ++ s :: rest) = p :: pieces sep rest := by
  induction p with
  | nil => exact pieces_cons_sep hs rest
  | cons c p ih =>
    have hrest := ih fun d hd => hp d (List.mem_cons_of_mem c hd)
    exact pieces_cons (hp c List.mem_cons_self) hrest

theorem pieces_eq_singleton (hp : ∀ c ∈ p, sep c = false) : pieces sep p = [p] := by
  induction p with
  | nil => rfl
  | cons c p ih =>
    have hrest := ih fun d hd => hp d (List.mem_cons_of_mem c hd)
    exact pieces_cons (hp c List.mem_cons_self) hrest

theorem pieces_joined (hs : sep s) (h : ∀ q ∈ p :: ps, ∀ c ∈ q, sep c = false) :
    pieces sep (p ++ ps.flatMap (s :: ·)) = p :: ps := by
  induction ps generalizing p with
  | nil =>
    rw [List.flatMap_nil, List.append_nil]
    exact pieces_eq_singleton (h p List.mem_cons_self)
  | cons q ps ih =>
    rw [List.flatMap_cons, List.cons_append, pieces_append (h p List.mem_cons_self) hs]
    rw [ih fun r hr => h r (List.mem_cons_of_mem p hr)]

theorem mem_of_mem_pieces (hp : p ∈ pieces sep cs) (hc : c ∈ p) : c ∈ cs := by
  induction cs generalizing p with
  | nil =>
    rw [pieces, List.mem_singleton] at hp
    exact absurd hc (by simp [hp])
  | cons d cs ih =>
    obtain ⟨q, qs, hq⟩ := exists_pieces sep cs
    by_cases hd : sep d
    · rw [pieces_cons_sep hd, List.mem_cons] at hp
      rcases hp with rfl | hp
      · simp at hc
      · exact List.mem_cons_of_mem d (ih hp hc)
    · rw [pieces_cons (Bool.eq_false_iff.mpr hd) hq, List.mem_cons] at hp
      rcases hp with rfl | hp
      · rw [List.mem_cons] at hc
        rcases hc with rfl | hc
        · exact List.mem_cons_self
        · exact List.mem_cons_of_mem d (ih (hq ▸ List.mem_cons_self) hc)
      · exact List.mem_cons_of_mem d (ih (hq ▸ List.mem_cons_of_mem q hp) hc)

def Slashed (cs : List Char) : Prop := ∀ c ∈ cs.getLast?, c = '/'

theorem Slashed.of_append (h : Slashed (cs ++ ds)) : Slashed ds := by
  intro c hc
  apply h c
  rw [List.getLast?_append, Option.mem_def.mp hc]
  rfl

theorem Slashed.of_suffix (h : Slashed cs) (hd : ds <:+ cs) : Slashed ds := by
  obtain ⟨a, rfl⟩ := hd
  exact h.of_append

theorem pieces_concat (hs : sep s) (cs : List Char) : pieces sep (cs ++ [s]) = pieces sep cs ++ [[]] := by
  induction cs with
  | nil => exact pieces_cons_sep hs []
  | cons c cs ih =>
    obtain ⟨p, ps, hp⟩ := exists_pieces sep cs
    by_cases hc : sep c
    · rw [List.cons_append, pieces_cons_sep hc, pieces_cons_sep hc, ih, List.cons_append]
    · have hf := Bool.eq_false_iff.mpr hc
      rw [hp] at ih
      rw [List.cons_append, pieces_cons hf ih, pieces_cons hf hp]
      rfl

theorem exists_pieces_concat (hs : sep '/') (h : Slashed cs) : ∃ ps, pieces sep cs = ps ++ [[]] := by
  rcases List.eq_nil_or_concat cs with rfl | ⟨front, c, rfl⟩
  · exact ⟨[], rfl⟩
  · obtain rfl := h c (by simp)
    rw [List.concat_eq_append]
    exact ⟨_, pieces_concat hs front⟩

theorem isSlash_slash (fam : Family) : isSlash fam '/' := by simp [isSlash]

theorem descend_dots (h : decodeDots p = ['.', '.']) (segments : List String) (ps : List (List Char)) :
    descend fam segments (p :: ps) =
      descend fam (parent fam segments ++ if ps.isEmpty then [""] else []) ps := by
  simp [descend, h]

theorem descend_dot (h : decodeDots p = ['.']) (segments : List String) (ps : List (List Char)) :
    descend fam segments (p :: ps) = descend fam (segments ++ if ps.isEmpty then [""] else []) ps := by
  simp [descend, h]

theorem descend_cons (hdots : decodeDots p ≠ ['.', '.']) (hdot : decodeDots p ≠ ['.']) (segments : List String)
    (ps : List (List Char)) : descend fam segments (p :: ps) =
      descend fam (segments ++ if fam = .file ∧ segments = [] then driveSegments p else [segment p]) ps := by
  rw [descend]
  split
  · contradiction
  · contradiction
  · rfl

theorem prefix_parent (fam : Family) (segments : List String) : parent fam segments <+: segments := by
  fun_cases parent fam segments with
  | case1 => exact List.prefix_rfl
  | case2 => exact List.nil_prefix
  | case3 => exact List.dropLast_prefix _

theorem isPathEnd_of_isAlpha (h : c.isAlpha) : isPathEnd c = false :=
  isPathEnd_of_isAlphanum (by simp [Char.isAlphanum, h])

theorem unmarked_drive (h : c.isAlpha) : Unmarked (String.ofList [c, ':']).toList := by
  rw [String.toList_ofList]
  exact List.forall_mem_cons.mpr ⟨isPathEnd_of_isAlpha h, List.forall_mem_singleton.mpr rfl⟩

theorem unmarked_driveSegments (p : List Char) : ∀ s ∈ driveSegments p, Unmarked s.toList := by
  fun_cases driveSegments p with
  | case1 a b hdrive =>
    have ha : a.isAlpha := by
      simp only [isDrive, Bool.and_eq_true] at hdrive
      exact hdrive.1
    exact List.forall_mem_singleton.mpr (unmarked_drive ha)
  | case3 a rest _ ha =>
    exact List.forall_mem_cons.mpr ⟨unmarked_drive ha, List.forall_mem_singleton.mpr (unmarked_segment _)⟩
  | case2 | case4 | case5 => exact List.forall_mem_singleton.mpr (unmarked_segment _)

theorem exists_step (fam : Family) (segments : List String) (p : List Char) (ps : List (List Char)) :
    ∃ kept added, kept <+: segments ∧ (∀ s ∈ added, Unmarked s.toList) ∧
      descend fam segments (p :: ps) = descend fam (kept ++ added) ps := by
  have hend : ∀ s ∈ (if ps.isEmpty then [""] else []), Unmarked s.toList := by
    split <;> simp [unmarked_nil]
  by_cases hdots : decodeDots p = ['.', '.']
  · exact ⟨_, _, prefix_parent fam segments, hend, descend_dots hdots segments ps⟩
  · by_cases hdot : decodeDots p = ['.']
    · exact ⟨_, _, List.prefix_rfl, hend, descend_dot hdot segments ps⟩
    · refine ⟨_, _, List.prefix_rfl, ?_, descend_cons hdots hdot segments ps⟩
      split
      · exact unmarked_driveSegments p
      · exact List.forall_mem_singleton.mpr (unmarked_segment p)

theorem unmarked_descend (h : ∀ s ∈ segments, Unmarked s.toList) (fam : Family) (ps : List (List Char)) :
    ∀ s ∈ descend fam segments ps, Unmarked s.toList := by
  induction ps generalizing segments with
  | nil => exact h
  | cons p ps ih =>
    obtain ⟨kept, added, hkept, hadded, hstep⟩ := exists_step fam segments p ps
    rw [hstep]
    apply ih
    exact List.forall_mem_append.mpr ⟨fun s hs => h s (hkept.subset hs), hadded⟩

theorem exists_descend_concat (fam : Family) (segments : List String) (ps : List (List Char)) :
    ∃ above, descend fam segments (ps ++ [[]]) = above ++ [""] := by
  induction ps generalizing segments with
  | nil =>
    refine ⟨segments, ?_⟩
    rw [List.nil_append, descend_cons (by simp [decodeDots]) (by simp [decodeDots])]
    split <;> rfl
  | cons p ps ih =>
    obtain ⟨kept, added, _, _, hstep⟩ := exists_step fam segments p (ps ++ [[]])
    rw [List.cons_append, hstep]
    exact ih _

/-- Only among files this says something: an empty segment comes first only if it is the only one. -/
def Settled (fam : Family) (segments : List String) : Prop := settled fam segments = segments

theorem settled_of_ne_nil {name : String} (h : name ≠ "") (fam : Family) (segments : List String) :
    Settled fam (name :: segments) := by
  cases fam with
  | file => simp [Settled, settled, h]
  | web => rfl
  | other => rfl

theorem settled_empty (fam : Family) : Settled fam [""] := by
  cases fam <;> rfl

theorem Settled.ne_nil {name next : String} (h : Settled .file (name :: next :: segments)) : name ≠ "" := by
  rintro rfl
  have hlength := congrArg List.length h
  have hsub := (List.dropWhile_sublist (l := next :: segments) (· == "")).length_le
  simp only [settled, beq_self_eq_true, List.dropWhile_cons_of_pos, List.length_cons] at hlength hsub
  split at hlength
  · simp at hlength
  · omega

theorem settled_settled (fam : Family) (segments : List String) : Settled fam (settled fam segments) := by
  cases fam with
  | file =>
    cases hrest : segments.dropWhile (· == "") with
    | nil =>
      simp only [settled, hrest]
      rfl
    | cons name rest =>
      have hname : name ≠ "" := by
        have hhead := List.head_dropWhile_not (· == "") (l := segments) (by simp [hrest])
        simpa [hrest] using hhead
      simp only [settled, hrest, List.isEmpty_cons, Bool.false_eq_true, if_false]
      exact settled_of_ne_nil hname .file rest
  | web => rfl
  | other => rfl

theorem mem_settled {name : String} (h : name ∈ settled fam segments) : name = "" ∨ name ∈ segments := by
  cases fam with
  | file =>
    simp only [settled] at h
    split at h
    · exact .inl (List.mem_singleton.mp h)
    · exact .inr ((List.dropWhile_sublist _).subset h)
  | web => exact .inr h
  | other => exact .inr h

theorem exists_settled_concat (fam : Family) (above : List String) :
    ∃ kept, settled fam (above ++ [""]) = kept ++ [""] := by
  cases fam with
  | file =>
    simp only [settled, List.dropWhile_append]
    split
    · exact ⟨[], rfl⟩
    · split
      · exact ⟨[], rfl⟩
      · exact ⟨_, rfl⟩
  | web => exact ⟨above, rfl⟩
  | other => exact ⟨above, rfl⟩

theorem unmarked_readPath (h : ∀ s ∈ segments, Unmarked s.toList) (fam : Family) (cs : List Char) :
    ∀ s ∈ readPath fam segments cs, Unmarked s.toList := by
  intro s hs
  rcases mem_settled hs with rfl | hs
  · exact unmarked_nil
  · exact unmarked_descend h fam _ s hs

theorem exists_readPath_concat (fam : Family) (segments : List String) (h : Slashed cs) :
    ∃ above, readPath fam segments cs = above ++ [""] := by
  obtain ⟨ps, hps⟩ := exists_pieces_concat (isSlash_slash fam) h
  obtain ⟨above, habove⟩ := exists_descend_concat fam segments ps
  rw [readPath, hps, habove]
  exact exists_settled_concat fam above

theorem toList_render_rooted (segments : List String) :
    (Path.rooted segments).render.toList = segments.flatMap fun s => '/' :: s.toList := by
  simp [Path.render, String.toList_join, List.flatMap_map]

theorem unmarked_rooted (h : ∀ s ∈ segments, Unmarked s.toList) :
    Unmarked (Path.rooted segments).render.toList := by
  rw [toList_render_rooted]
  intro c hc
  obtain ⟨s, hs, hc⟩ := List.mem_flatMap.mp hc
  rcases List.mem_cons.mp hc with rfl | hc
  · rfl
  · exact h s hs c hc

end FleetControl.Url
