import Mathlib.Data.List.DropRight
import FleetControl.Text.Blank

namespace FleetControl.Text

variable {a b cs l r : List Char} {c : Char}

def Blank (cs : List Char) : Prop := ∀ c ∈ cs, isBlank c

theorem blank_nil : Blank [] := by simp [Blank]

theorem Blank.not_mem (h : Blank cs) (hc : isBlank c = false) : c ∉ cs := by
  intro hmem
  simp [h c hmem] at hc

theorem trimLeft_append (ha : Blank a) (cs : List Char) : trimLeft (a ++ cs) = trimLeft cs :=
  List.dropWhile_append_of_pos ha

theorem trimRight_append (cs : List Char) (hb : Blank b) : trimRight (cs ++ b) = trimRight cs := by
  have hrev : ∀ c ∈ b.reverse, isBlank c := fun c hc => hb c (List.mem_reverse.mp hc)
  rw [trimRight, trimRight, List.reverse_append, List.dropWhile_append_of_pos hrev]

theorem blank_of_trimLeft (h : trimLeft cs = []) : Blank cs := List.dropWhile_eq_nil_iff.mp h

theorem trimLeft_append_of_ne_nil (h : trimLeft cs ≠ []) (b : List Char) :
    trimLeft (cs ++ b) = trimLeft cs ++ b := by
  rw [trimLeft, List.dropWhile_append, if_neg]
  · rfl
  · rwa [List.isEmpty_iff]

theorem trimChars_append (ha : Blank a) (cs : List Char) (hb : Blank b) :
    trimChars (a ++ cs ++ b) = trimChars cs := by
  rw [List.append_assoc, trimChars, trimLeft_append ha]
  by_cases h : trimLeft cs = []
  · have hcs := blank_of_trimLeft h
    have hnil : trimLeft b = [] := List.dropWhile_eq_nil_iff.mpr hb
    rw [trimLeft_append hcs, hnil, trimChars, h]
  · rw [trimLeft_append_of_ne_nil h, trimRight_append _ hb]
    rfl

theorem exists_blank_append_trimLeft (cs : List Char) : ∃ a, Blank a ∧ cs = a ++ trimLeft cs := by
  refine ⟨cs.takeWhile isBlank, ?_, List.takeWhile_append_dropWhile.symm⟩
  intro c hc
  exact List.mem_takeWhile_imp hc

theorem exists_trimRight_append_blank (cs : List Char) : ∃ b, Blank b ∧ cs = trimRight cs ++ b := by
  obtain ⟨a, ha, hcs⟩ := exists_blank_append_trimLeft cs.reverse
  refine ⟨a.reverse, fun c hc => ha c (List.mem_reverse.mp hc), ?_⟩
  calc cs = cs.reverse.reverse := cs.reverse_reverse.symm
    _ = (a ++ trimLeft cs.reverse).reverse := by rw [← hcs]
    _ = trimRight cs ++ a.reverse := List.reverse_append

theorem exists_trimChars (cs : List Char) :
    ∃ a b, Blank a ∧ Blank b ∧ cs = a ++ trimChars cs ++ b := by
  obtain ⟨a, ha, hl⟩ := exists_blank_append_trimLeft cs
  obtain ⟨b, hb, hr⟩ := exists_trimRight_append_blank (trimLeft cs)
  refine ⟨a, b, ha, hb, ?_⟩
  rw [List.append_assoc]
  exact hl.trans (congrArg (a ++ ·) hr)

theorem trimChars_trimLeft (cs : List Char) : trimChars (trimLeft cs) = trimChars cs := by
  obtain ⟨a, ha, hcs⟩ := exists_blank_append_trimLeft cs
  have h := trimChars_append ha (trimLeft cs) blank_nil
  rw [List.append_nil, ← hcs] at h
  exact h.symm

theorem trimChars_trimRight (cs : List Char) : trimChars (trimRight cs) = trimChars cs := by
  obtain ⟨b, hb, hcs⟩ := exists_trimRight_append_blank cs
  have h := trimChars_append blank_nil (trimRight cs) hb
  rw [List.nil_append, ← hcs] at h
  exact h.symm

theorem trimChars_eq_nil_iff : trimChars cs = [] ↔ Blank cs := by
  constructor
  · intro h
    obtain ⟨a, b, ha, hb, hcs⟩ := exists_trimChars cs
    rw [h, List.append_nil] at hcs
    intro c hc
    rw [hcs] at hc
    exact (List.mem_append.mp hc).elim (ha c) (hb c)
  · intro h
    have hblank := trimChars_append h [] blank_nil
    rw [List.append_nil, List.append_nil] at hblank
    exact hblank

theorem trimChars_around (hc : isBlank c = false) (l r : List Char) :
    trimChars (l ++ c :: r) = trimLeft l ++ c :: trimRight r := by
  have hleft : trimLeft (l ++ c :: r) = trimLeft l ++ c :: r := by
    by_cases h : trimLeft l = []
    · rw [trimLeft_append (blank_of_trimLeft h), h]
      exact List.dropWhile_cons_of_neg (by simp [hc])
    · exact trimLeft_append_of_ne_nil h _
  have hright (x : List Char) : trimRight (x ++ c :: r) = x ++ c :: trimRight r := by
    have hrev : (x ++ c :: r).reverse = r.reverse ++ c :: x.reverse := by simp
    rw [trimRight, hrev, List.dropWhile_append]
    split
    next h =>
      have hr : trimRight r = [] := by simpa [trimRight] using h
      rw [List.dropWhile_cons_of_neg (by simp [hc]), hr]
      simp
    next => simp [trimRight]
  rw [trimChars, hleft, hright]

end FleetControl.Text
