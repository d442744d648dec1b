import FleetControl.Proofs.Trimming
import FleetControl.Text.Lower

/-!
Lower-casing and blanks. Blanks have no case and separate words, so those around a text stay as they are and
make no difference to how the text between them is lowered.
-/
namespace FleetControl.Text

variable {a b cs before after : List Char} {c : Char} {s : String}

def blanks : List Nat :=
  [0x9, 0xA, 0xB, 0xC, 0xD, 0x20, 0x85, 0xA0, 0x1680, 0x2000, 0x2001, 0x2002, 0x2003, 0x2004, 0x2005, 0x2006,
    0x2007, 0x2008, 0x2009, 0x200A, 0x2028, 0x2029, 0x202F, 0x205F, 0x3000]

theorem toNat_mem_blanks (h : isBlank c) : c.toNat ∈ blanks := by
  simp only [isBlank, Bool.or_eq_true, Bool.and_eq_true, decide_eq_true_eq, beq_iff_eq] at h
  simp only [blanks, List.mem_cons, List.not_mem_nil, or_false]
  omega

namespace Lower

def caseless (c : Char) : Bool :=
  char c == [c] && c != 'Σ' && !within cased c && !within ignorable c

theorem caseless_of_isBlank (h : isBlank c) : caseless c := by
  have hall : blanks.all fun n => caseless (Char.ofNat n) := by decide +kernel
  have hc := List.all_eq_true.mp hall c.toNat (toNat_mem_blanks h)
  rwa [Char.ofNat_toNat] at hc

theorem caseless_iff :
    caseless c ↔ char c = [c] ∧ c ≠ 'Σ' ∧ within cased c = false ∧ within ignorable c = false := by
  simp [caseless, and_assoc]

def nearestIsCased (cs : List Char) : Bool :=
  ((cs.dropWhile (within ignorable)).head?.map (within cased)).getD false

theorem sigmaIsFinal_eq (before after : List Char) :
    sigmaIsFinal before after = (nearestIsCased before && !nearestIsCased after) := rfl

theorem nearestIsCased_blank (hb : Blank b) : nearestIsCased b = false := by
  cases b with
  | nil => rfl
  | cons c b =>
    obtain ⟨_, _, hcased, hignorable⟩ := caseless_iff.mp (caseless_of_isBlank (hb c List.mem_cons_self))
    rw [nearestIsCased, List.dropWhile_cons_of_neg (by simp [hignorable])]
    exact hcased

theorem nearestIsCased_append_blank (cs : List Char) (hb : Blank b) :
    nearestIsCased (cs ++ b) = nearestIsCased cs := by
  rw [nearestIsCased, List.dropWhile_append]
  split
  next h =>
    have hnone : nearestIsCased cs = false := by
      rw [nearestIsCased, List.isEmpty_iff.mp h]
      rfl
    exact (nearestIsCased_blank hb).trans hnone.symm
  next h =>
    obtain ⟨c, rest, hcs⟩ := List.exists_cons_of_ne_nil (mt List.isEmpty_iff.mpr h)
    rw [nearestIsCased, hcs]
    rfl

theorem charsFrom_blank_append (before : List Char) (ha : Blank a) (cs : List Char) :
    charsFrom before (a ++ cs) = a ++ charsFrom (a.reverse ++ before) cs := by
  induction a generalizing before with
  | nil => rfl
  | cons c a ih =>
    obtain ⟨hc, ha⟩ := List.forall_mem_cons.mp ha
    obtain ⟨hchar, hsigma, _, _⟩ := caseless_iff.mp (caseless_of_isBlank hc)
    rw [List.cons_append, charsFrom, if_neg hsigma, hchar, ih _ ha]
    simp

theorem charsFrom_within_blanks (before : List Char) (ha : Blank a) (cs : List Char) (hb : Blank b) :
    charsFrom (before ++ a) (cs ++ b) = charsFrom before cs ++ b := by
  induction cs generalizing before with
  | nil => 
    have h := charsFrom_blank_append (before ++ a) hb []
    rw [List.append_nil] at h
    simpa [charsFrom] using h
  | cons c cs ih =>
    have hfinal : sigmaIsFinal (before ++ a) (cs ++ b) = sigmaIsFinal before cs := by
      rw [sigmaIsFinal_eq, sigmaIsFinal_eq, nearestIsCased_append_blank _ ha,
        nearestIsCased_append_blank _ hb]
    rw [List.cons_append, charsFrom, charsFrom, hfinal, ← List.cons_append, ih, List.append_assoc]

theorem charsFrom_around (ha : Blank a) (cs : List Char) (hb : Blank b) :
    charsFrom [] (a ++ cs ++ b) = a ++ charsFrom [] cs ++ b := by
  have hreverse : Blank a.reverse := fun c hc => ha c (List.mem_reverse.mp hc)
  have h := charsFrom_within_blanks [] hreverse cs hb
  rw [List.append_assoc, charsFrom_blank_append [] ha, List.append_nil, List.append_assoc]
  exact congrArg (a ++ ·) h

theorem char_ne_nil (c : Char) : char c ≠ [] := by
  unfold char
  split
  · simp
  · split <;> simp

theorem charsFrom_eq_nil_iff : charsFrom before cs = [] ↔ cs = [] := by
  cases cs with
  | nil => simp [charsFrom]
  | cons c cs =>
    rw [charsFrom, List.append_eq_nil_iff]
    split <;> simp [char_ne_nil]

end Lower

theorem lower_eq_empty_iff : lower s = "" ↔ s = "" := by
  rw [lower, String.ofList_eq_empty_iff, Lower.charsFrom_eq_nil_iff, String.toList_eq_nil_iff]

theorem lower_trim_eq_iff : lower (trim s) = lower s ↔ trim s = s := by
  constructor
  · intro h
    obtain ⟨a, b, ha, hb, hs⟩ := exists_trimChars s.toList
    have hlower : Lower.charsFrom [] (trimChars s.toList) =
        a ++ Lower.charsFrom [] (trimChars s.toList) ++ b := by
      rw [← Lower.charsFrom_around ha _ hb, ← hs]
      simpa [lower, trim] using congrArg String.toList h
    have hlength := congrArg List.length hlower
    simp only [List.length_append] at hlength
    have hanil : a = [] := List.eq_nil_of_length_eq_zero (by omega)
    have hbnil : b = [] := List.eq_nil_of_length_eq_zero (by omega)
    rw [hanil, hbnil, List.nil_append, List.append_nil] at hs
    rw [trim, ← hs, String.ofList_toList]
  · intro h
    rw [h]

theorem trim_eq_empty_iff : trim s = "" ↔ allBlank s := by
  rw [trim, String.ofList_eq_empty_iff, trimChars_eq_nil_iff, allBlank, List.all_eq_true, Blank]

end FleetControl.Text
