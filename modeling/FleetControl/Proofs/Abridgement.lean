import Mathlib.Data.List.Basic
import Mathlib.Data.String.Basic
import FleetControl.Proofs.Plainness

namespace FleetControl.ApiError

open Text (isPlain)

variable {s n : Nat} {code m : String} {cs ds : List Char}

def Loses (m : String) : Prop :=
  ∃ front c rest, m.toList = front ++ c :: rest ∧ (¬ isPlain c ∨ shownLength ≤ front.countP isPlain)

theorem utf8Len_lt_of_sublist (h : cs.Sublist ds) (hne : cs ≠ ds) : String.utf8Len cs < String.utf8Len ds := by
  induction h with
  | slnil => exact absurd rfl hne
  | @cons cs ds d h _ =>
    calc String.utf8Len cs
      _ ≤ String.utf8Len ds := String.utf8Len_le_of_sublist h
      _ < String.utf8Len (d :: ds) := Nat.lt_add_of_pos_right d.utf8Size_pos
  | cons_cons c _ ih =>
    have htail := ih fun heq => hne (by rw [heq])
    simpa only [String.utf8Len_cons] using Nat.add_lt_add_right htail c.utf8Size

theorem toList_abridged (m : String) : (abridged m).toList = (m.toList.filter isPlain).take shownLength :=
  String.toList_ofList

theorem sublist_abridged (m : String) : (abridged m).toList.Sublist m.toList := by
  rw [toList_abridged]
  exact (List.take_sublist _ _).trans List.filter_sublist

theorem size_abridged_lt_iff : (abridged m).utf8ByteSize < m.utf8ByteSize ↔ abridged m ≠ m := by
  have hsize (t : String) : t.utf8ByteSize = String.utf8Len t.toList := by
    rw [← String.utf8ByteSize_ofList, String.ofList_toList]
  constructor
  · rintro hlt heq
    rw [heq] at hlt
    exact Nat.lt_irrefl _ hlt
  · intro hne
    rw [hsize, hsize]
    exact utf8Len_lt_of_sublist (sublist_abridged m) fun heq => hne (String.toList_inj.mp heq)

theorem take_filter_eq_self_iff :
    (cs.filter isPlain).take n = cs ↔ (∀ c ∈ cs, isPlain c) ∧ cs.length ≤ n := by
  constructor
  · intro h
    have hlength : cs.length = ((cs.filter isPlain).take n).length := by rw [h]
    have hfilter : cs.filter isPlain = cs := by
      apply List.filter_sublist.eq_of_length_le
      rw [hlength]
      exact (List.take_sublist _ _).length_le
    refine ⟨List.filter_eq_self.mp hfilter, ?_⟩
    rw [hlength]
    exact List.length_take_le _ _
  · rintro ⟨hplain, hlength⟩
    rw [List.filter_eq_self.mpr hplain, List.take_of_length_le hlength]

theorem not_loses_iff : ¬ Loses m ↔ (∀ c ∈ m.toList, isPlain c) ∧ m.toList.length ≤ shownLength := by
  constructor
  · intro h
    have hplain : ∀ c ∈ m.toList, isPlain c := by
      intro c hc
      obtain ⟨front, rest, hsplit⟩ := List.append_of_mem hc
      by_contra hnot
      exact h ⟨front, c, rest, hsplit, .inl hnot⟩
    refine ⟨hplain, ?_⟩
    by_contra hlong
    -- The first character past the end of what is shown is lost.
    have hlt : shownLength < m.toList.length := Nat.lt_of_not_le hlong
    refine h ⟨m.toList.take shownLength, m.toList[shownLength], m.toList.drop (shownLength + 1), ?_, .inr ?_⟩
    · rw [List.getElem_cons_drop, List.take_append_drop]
    · have hall : ∀ c ∈ m.toList.take shownLength, isPlain c := fun c hc => hplain c (List.mem_of_mem_take hc)
      rw [List.countP_eq_length.mpr hall, List.length_take_of_le (Nat.le_of_lt hlt)]
  · rintro ⟨hplain, hlength⟩ ⟨front, c, rest, hsplit, hnot | hfull⟩
    · exact hnot (hplain c (by simp [hsplit]))
    · have hcount : front.countP isPlain ≤ front.length := List.countP_le_length
      simp only [hsplit, List.length_append, List.length_cons] at hlength
      omega

theorem abridged_eq_self_iff : abridged m = m ↔ ¬ Loses m := by
  rw [not_loses_iff, ← take_filter_eq_self_iff, ← toList_abridged, String.toList_inj]

theorem getElem?_abridged {front rest : List Char} {c : Char} (hsplit : m.toList = front ++ c :: rest)
    (hplain : isPlain c) (hroom : front.countP isPlain < shownLength) :
    (abridged m).toList[front.countP isPlain]? = some c := by
  rw [toList_abridged, List.getElem?_take_of_lt hroom, hsplit, List.filter_append, List.countP_eq_length_filter,
    List.filter_cons_of_pos hplain, List.getElem?_append_right (Nat.le_refl _), Nat.sub_self, List.getElem?_cons_zero]

theorem excerpt_of_loses (h : Loses m) : excerpt code m = abridged m ++ "... (" ++ code ++ ")" :=
  if_pos (size_abridged_lt_iff.mpr fun heq => abridged_eq_self_iff.mp heq h)

theorem excerpt_of_not_loses (h : ¬ Loses m) : excerpt code m = abridged m ++ " (" ++ code ++ ")" :=
  if_neg fun hlt => size_abridged_lt_iff.mp hlt (abridged_eq_self_iff.mpr h)

theorem ellipsis_ne {t : String} : t ++ "... (" ++ code ++ ")" ≠ t ++ " (" ++ code ++ ")" := by
  intro h
  simp only [String.append_assoc, String.append_right_inj] at h
  have hhead := congrArg (·.toList.head?) h
  simp at hhead

/-- What is shown of a message that is quoted are its plain characters, as many as there is room for, in their
order, and the code. An ellipsis comes between them exactly if some character of the message is lost, and without
one the message is shown as it is. -/
theorem ellipsis_iff_loses (s : Nat) (code m : String) (h : Quoted s) :
    (abridged m).toList.length = min shownLength (m.toList.countP isPlain) ∧
    (∀ front c rest, m.toList = front ++ c :: rest → isPlain c → front.countP isPlain < shownLength →
      (abridged m).toList[front.countP isPlain]? = some c) ∧
    ((status s code m).advice = abridged m ++ "... (" ++ code ++ ")" ↔ Loses m) ∧
    ((status s code m).advice = abridged m ++ " (" ++ code ++ ")" ↔ ¬ Loses m) ∧
    (abridged m = m ↔ ¬ Loses m) := by
  rw [advice_of_quoted h]
  refine ⟨?_, fun front c rest => getElem?_abridged, ?_, ?_, abridged_eq_self_iff⟩
  · rw [toList_abridged, List.length_take, List.countP_eq_length_filter]
  · by_cases hm : Loses m
    · exact iff_of_true (excerpt_of_loses hm) hm
    · rw [excerpt_of_not_loses hm]
      exact iff_of_false ellipsis_ne.symm hm
  · by_cases hm : Loses m
    · rw [excerpt_of_loses hm]
      exact iff_of_false ellipsis_ne (not_not.mpr hm)
    · exact iff_of_true (excerpt_of_not_loses hm) hm

theorem longest_is_told_apart :
    let m := String.ofList (List.replicate 80 'x')
    Quoted 409 ∧ (status 409 "C" m).advice = m ++ " (C)" ∧
      (status 409 "C" (m ++ "é")).advice = m ++ "... (C)" := by
  intro m
  have hquoted : Quoted 409 := ⟨by decide, by decide⟩
  have hm : abridged m = m := by decide +kernel
  have hlonger : abridged (m ++ "é") = m := by decide +kernel
  obtain ⟨_, _, _, hwhole, _⟩ := ellipsis_iff_loses 409 "C" m hquoted
  obtain ⟨_, _, hcut, _⟩ := ellipsis_iff_loses 409 "C" (m ++ "é") hquoted
  refine ⟨hquoted, ?_, ?_⟩
  · rw [hwhole.mpr (abridged_eq_self_iff.mp hm), hm]
    decide +kernel
  · rw [hcut.mpr ⟨m.toList, 'é', [], String.toList_append, .inl (by decide)⟩, hlonger]
    decide +kernel

end FleetControl.ApiError
