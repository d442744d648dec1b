import Mathlib.Data.String.Basic
import FleetControl.Proofs.Plainness

namespace FleetControl

namespace Text

variable {s front rest t : String} {n room : Nat}

/-- The longest beginning of a text, in whole characters, that takes no more bytes than there is room for. -/
structure Fills (room : Nat) (s front : String) : Prop where
  begins : ∃ rest, s = front ++ rest
  fits : front.utf8ByteSize ≤ room
  longest : ∀ t rest, s = t ++ rest → t.utf8ByteSize ≤ room → ∃ more, front = t ++ more

theorem isCut_iff : isCut s n ↔ ∃ front rest, s = front ++ rest ∧ n = front.utf8ByteSize := by
  rw [isCut, String.Pos.Raw.isValid_eq_true_iff, String.Pos.Raw.isValid_iff_exists_append]
  simp only [String.Pos.Raw.ext_iff]
  rfl

theorem isCut_zero (s : String) : isCut s 0 :=
  isCut_iff.mpr ⟨"", s, String.empty_append.symm, rfl⟩

theorem lastCut?_eq_ok (s : String) (n : Nat) :
    ∃ m, lastCut? s n = .ok m ∧ isCut s m ∧ m ≤ n ∧ ∀ k, isCut s k → k ≤ n → k ≤ m := by
  induction n with
  | zero => exact ⟨0, if_pos (isCut_zero s), isCut_zero s, Nat.le_refl 0, fun _ _ hk => hk⟩
  | succ n ih =>
    by_cases hcut : isCut s (n + 1)
    · exact ⟨n + 1, if_pos hcut, hcut, Nat.le_refl _, fun _ _ hk => hk⟩
    · obtain ⟨m, hm, hcutm, hle, hlast⟩ := ih
      refine ⟨m, (if_neg hcut).trans hm, hcutm, Nat.le_succ_of_le hle, ?_⟩
      intro k hk hkn
      have hne : k ≠ n + 1 := by
        rintro rfl
        exact hcut hk
      exact hlast k hk (by omega)

theorem exists_splits (h : s = front ++ rest) :
    ∃ p : s.Pos, p.offset = ⟨front.utf8ByteSize⟩ ∧ p.Splits front rest := by
  have hvalid : (String.Pos.Raw.mk front.utf8ByteSize).IsValid s :=
    String.Pos.Raw.isValid_iff_exists_append.mpr ⟨front, rest, h, rfl⟩
  exact ⟨⟨_, hvalid⟩, rfl, h, rfl⟩

theorem before?_eq_ok (h : s = front ++ rest) : before? s front.utf8ByteSize = .ok front := by
  obtain ⟨⟨_, hvalid⟩, rfl, hsplits⟩ := exists_splits h
  rw [before?, dif_pos hvalid, hsplits.copy_sliceTo_eq]

theorem exists_append_of_size_le {u v : String} (hfront : s = front ++ u) (ht : s = t ++ v)
    (hle : t.utf8ByteSize ≤ front.utf8ByteSize) : ∃ more, front = t ++ more := by
  obtain ⟨p, hp, hsplits⟩ := exists_splits hfront
  obtain ⟨q, hq, hsplits'⟩ := exists_splits ht
  have hqp : q ≤ p := by
    rw [String.Pos.le_iff, hp, hq]
    exact hle
  obtain ⟨more, hmore, _⟩ := (hsplits'.le_iff_exists_eq_append hsplits).mp hqp
  exact ⟨more, hmore⟩

theorem exists_fills (s : String) (room : Nat) :
    ∃ m front, lastCut? s room = .ok m ∧ before? s m = .ok front ∧ Fills room s front := by
  obtain ⟨m, hm, hcut, hle, hlast⟩ := lastCut?_eq_ok s room
  obtain ⟨front, rest, hs, rfl⟩ := isCut_iff.mp hcut
  refine ⟨_, front, hm, before?_eq_ok hs, ⟨rest, hs⟩, hle, ?_⟩
  intro t rest' ht hroom
  exact exists_append_of_size_le hs ht (hlast _ (isCut_iff.mpr ⟨t, rest', ht, rfl⟩) hroom)

theorem Fills.unique {u : String} (ht : Fills room s t) (hu : Fills room s u) : t = u := by
  obtain ⟨rest, hrest⟩ := ht.begins
  obtain ⟨rest', hrest'⟩ := hu.begins
  obtain ⟨more, hmore⟩ := hu.longest t rest hrest ht.fits
  obtain ⟨more', hmore'⟩ := ht.longest u rest' hrest' hu.fits
  have hsize := congrArg String.utf8ByteSize hmore
  have hsize' := congrArg String.utf8ByteSize hmore'
  rw [String.utf8ByteSize_append] at hsize hsize'
  have hnone : more = "" := String.utf8ByteSize_eq_zero_iff.mp (by omega)
  rw [hmore, hnone, String.append_empty]

theorem fills_of_next {c : Char} (hfits : front.utf8ByteSize ≤ room)
    (hnext : room < front.utf8ByteSize + c.utf8Size) : Fills room (front ++ (String.singleton c ++ rest)) front := by
  refine ⟨⟨_, rfl⟩, hfits, ?_⟩
  intro t rest' ht hroom
  by_cases hle : t.utf8ByteSize ≤ front.utf8ByteSize
  · exact exists_append_of_size_le rfl ht hle
  -- A longer beginning has the next character too, so it does not fit.
  · obtain ⟨more, rfl⟩ := exists_append_of_size_le ht rfl (Nat.le_of_not_le hle)
    rw [String.append_assoc, String.append_right_inj] at ht
    have hchars := congrArg String.toList ht
    simp only [String.toList_append, String.toList_singleton, List.singleton_append] at hchars
    rw [String.utf8ByteSize_append] at hle hroom
    cases hmore : more.toList with
    | nil =>
      rw [String.toList_eq_nil_iff.mp hmore] at hle
      exact absurd (Nat.le_refl _) hle
    | cons d ds =>
      rw [hmore, List.cons_append, List.cons.injEq] at hchars
      obtain ⟨rfl, _⟩ := hchars
      rw [← String.ofList_toList (s := more), hmore, String.utf8ByteSize_ofList, String.utf8Len_cons] at hroom
      omega

theorem plain_nat (n : Nat) : Plain (toString n) := by
  intro c hc
  rw [Nat.toString_eq_ofList_toDigits, String.toList_ofList] at hc
  obtain ⟨hlow, hhigh⟩ := Char.isDigit_iff_toNat.mp (Nat.isDigit_of_mem_toDigits (by decide) (by decide) hc)
  have hzero : '0'.toNat = 48 := rfl
  have hnine : '9'.toNat = 57 := rfl
  simp only [isPlain, Bool.and_eq_true, decide_eq_true_eq]
  omega

end Text

open Text (Plain Fills isPlain)

variable {body : String}

def cutMark (size : Nat) : String := "... [truncated, " ++ toString size ++ " bytes total]"

theorem plain_cutMark (size : Nat) : Plain (cutMark size) :=
  Text.plain_append_iff.mpr ⟨Text.plain_append_iff.mpr ⟨by decide, Text.plain_nat size⟩, by decide⟩

theorem curtailed?_of_short (h : body.utf8ByteSize ≤ loggedBytes) : curtailed? body = .ok body :=
  if_neg (Nat.not_lt.mpr h)

theorem curtailed?_of_long (h : loggedBytes < body.utf8ByteSize) :
    ∃ front, Fills loggedBytes body front ∧ curtailed? body = .ok (front ++ cutMark body.utf8ByteSize) := by
  obtain ⟨m, front, hcut, hfront, hfills⟩ := Text.exists_fills body loggedBytes
  have hmark : front ++ cutMark body.utf8ByteSize =
      front ++ "... [truncated, " ++ toString body.utf8ByteSize ++ " bytes total]" := by
    simp only [String.append_assoc]
    rfl
  refine ⟨front, hfills, ?_⟩
  rw [curtailed?, if_pos h, hcut, hmark]
  change (Text.before? body m).bind _ = _
  rw [hfront]
  rfl

theorem loggable?_eq_ok {shown : String} (h : curtailed? body = .ok shown) :
    loggable? body = .ok (loggable body) ∧ (loggable body).toList = shown.toList.filter isPlain := by
  have hok : loggable? body = .ok (String.ofList (shown.toList.filter isPlain)) := by rw [loggable?, h]; rfl
  have hvalue : loggable body = String.ofList (shown.toList.filter isPlain) := by rw [loggable, hok]; rfl
  exact ⟨by rw [hok, hvalue], by rw [hvalue, String.toList_ofList]⟩

theorem filter_append_cutMark (front : String) (size : Nat) :
    (front ++ cutMark size).toList.filter isPlain = front.toList.filter isPlain ++ (cutMark size).toList := by
  rw [String.toList_append, List.filter_append, List.filter_eq_self.mpr (plain_cutMark size)]

theorem exists_curtailed (body : String) : ∃ shown, curtailed? body = .ok shown := by
  by_cases h : loggedBytes < body.utf8ByteSize
  · obtain ⟨front, _, hshown⟩ := curtailed?_of_long h
    exact ⟨_, hshown⟩
  · exact ⟨body, curtailed?_of_short (Nat.not_lt.mp h)⟩

/-- The log has the plain characters of a body of at most 200 bytes, and of a longer one those of the longest
beginning that 200 bytes hold, with the number of its bytes. The cut is always found and never bad. -/
theorem log_holds_fitting_beginning (body : String) :
    loggable? body = .ok (loggable body) ∧ Plain (loggable body) ∧
    (body.utf8ByteSize ≤ 200 → (loggable body).toList = body.toList.filter isPlain) ∧
    (200 < body.utf8ByteSize → ∃ front, Fills 200 body front ∧
      (loggable body).toList = front.toList.filter isPlain ++ (cutMark body.utf8ByteSize).toList) := by
  obtain ⟨shown, hshown⟩ := exists_curtailed body
  obtain ⟨hok, hvalue⟩ := loggable?_eq_ok hshown
  refine ⟨hok, ?_, ?_, ?_⟩
  · rw [Plain, hvalue]
    exact fun c hc => (List.mem_filter.mp hc).2
  · intro h
    exact (loggable?_eq_ok (curtailed?_of_short h)).2
  · intro h
    obtain ⟨front, hfills, hcurtailed⟩ := curtailed?_of_long h
    refine ⟨front, hfills, ?_⟩
    rw [(loggable?_eq_ok hcurtailed).2, filter_append_cutMark]

theorem accent_is_left_out :
    let front := String.ofList (List.replicate 199 'x')
    let body := front ++ (String.singleton 'é' ++ "\n")
    200 < body.utf8ByteSize ∧ (loggable body).toList = List.replicate 199 'x' ++ (cutMark 202).toList ∧
      "a\nb".utf8ByteSize ≤ 200 ∧ (loggable "a\nb").toList = ['a', 'b'] := by
  intro front body
  have hfront : front.utf8ByteSize = 199 := (String.utf8ByteSize_ofList _).trans (by decide +kernel)
  have hsize : body.utf8ByteSize = 202 := by rw [String.utf8ByteSize_append, hfront]; rfl
  have hlong : 200 < body.utf8ByteSize := by omega
  have hshort : "a\nb".utf8ByteSize ≤ 200 := by decide
  obtain ⟨_, _, _, hcut⟩ := log_holds_fitting_beginning body
  obtain ⟨_, _, hwhole, _⟩ := log_holds_fitting_beginning "a\nb"
  obtain ⟨t, hfills, hvalue⟩ := hcut hlong
  have hnext : 200 < front.utf8ByteSize + 'é'.utf8Size := by rw [hfront]; decide
  obtain rfl : t = front := hfills.unique (Text.fills_of_next (by omega) hnext)
  rw [hsize, String.toList_ofList, List.filter_replicate_of_pos (by decide)] at hvalue
  exact ⟨hlong, hvalue, hshort, hwhole hshort⟩

end FleetControl
