import Mathlib.Algebra.Group.Nat.Even
import FleetControl.IpDefinition

/-!
Commas outside quotes. A text whose quotes are closed is divided at some of its commas into parts, each of
which closes its own quotes and has no comma but between them; these are the pieces that are read.
-/
namespace FleetControl.IpDefinition

variable {quoted : Bool} {c : Char} {cs before part : List Char} {parts : List (List Char)}

/-- Whether one is between quotes after `before`, if one was or was not at its beginning. -/
def Inside (quoted : Bool) (before : List Char) : Prop := quoted = true ↔ Even (before.count '"')

theorem inside_nil : Inside quoted [] ↔ quoted = true := by simp [Inside]

theorem inside_quote : Inside quoted ('"' :: before) ↔ Inside (!quoted) before := by
  cases quoted <;> simp [Inside, Nat.even_add_one]

theorem inside_cons (hc : c ≠ '"') : Inside quoted (c :: before) ↔ Inside quoted before := by
  simp [Inside, List.count_cons_of_ne hc]

structure Part (quoted : Bool) (part : List Char) : Prop where
  closed : ¬ Inside quoted part
  commas : ∀ before after, part = before ++ ',' :: after → Inside quoted before

def unquoted (part : List Char) : List Char := part.filter (· ≠ '"')

structure Divides (cs : List Char) (parts : List (List Char)) : Prop where
  joined : [','].intercalate parts = cs
  ne_nil : parts ≠ []
  part : ∀ part ∈ parts, Part false part

theorem part_nil : Part quoted [] ↔ quoted = false := by
  constructor
  · intro h
    have hclosed := h.closed
    rw [inside_nil] at hclosed
    exact Bool.eq_false_iff.mpr hclosed
  · rintro rfl
    exact ⟨by simp [inside_nil], by simp⟩

theorem part_quote : Part quoted ('"' :: part) ↔ Part (!quoted) part := by
  constructor
  · rintro ⟨hclosed, hcommas⟩
    refine ⟨mt inside_quote.mpr hclosed, ?_⟩
    intro before after h
    exact inside_quote.mp (hcommas ('"' :: before) after (by rw [h]; rfl))
  · rintro ⟨hclosed, hcommas⟩
    refine ⟨mt inside_quote.mp hclosed, ?_⟩
    intro before after h
    cases before with
    | nil => simp at h
    | cons d before =>
      obtain ⟨rfl, hpart⟩ := List.cons.inj h
      exact inside_quote.mpr (hcommas before after hpart)

theorem part_cons (hc : c ≠ '"') :
    Part quoted (c :: part) ↔ (c = ',' → quoted = true) ∧ Part quoted part := by
  constructor
  · rintro ⟨hclosed, hcommas⟩
    refine ⟨?_, mt (inside_cons hc).mpr hclosed, ?_⟩
    · rintro rfl
      exact inside_nil.mp (hcommas [] part rfl)
    · intro before after h
      exact (inside_cons hc).mp (hcommas (c :: before) after (by rw [h]; rfl))
  · rintro ⟨hcomma, hclosed, hcommas⟩
    refine ⟨mt (inside_cons hc).mp hclosed, ?_⟩
    intro before after h
    cases before with
    | nil => exact inside_nil.mpr (hcomma (List.cons.inj h).1)
    | cons d before =>
      obtain ⟨rfl, hpart⟩ := List.cons.inj h
      exact (inside_cons hc).mpr (hcommas before after hpart)

theorem unquoted_quote (part : List Char) : unquoted ('"' :: part) = unquoted part := rfl

theorem unquoted_cons (hc : c ≠ '"') (part : List Char) : unquoted (c :: part) = c :: unquoted part :=
  List.filter_cons_of_pos (by simpa using hc)

theorem pieces_quote (quoted : Bool) (current rest : List Char) :
    pieces quoted current ('"' :: rest) = pieces (!quoted) current rest := by rw [pieces]

theorem pieces_comma (current rest : List Char) :
    pieces false current (',' :: rest) = (pieces false [] rest).map (current.reverse :: ·) := by
  rw [pieces] <;> simp

theorem pieces_cons (hc : c ≠ '"') (hcomma : c = ',' → quoted = true) (current rest : List Char) :
    pieces quoted current (c :: rest) = pieces quoted (c :: current) rest := by
  rw [pieces, if_neg]
  · rintro ⟨h, hq⟩
    simp [hcomma h] at hq
  · exact hc

theorem pieces_part (h : Part quoted part) (current rest : List Char) :
    pieces quoted current (part ++ rest) = pieces false ((unquoted part).reverse ++ current) rest := by
  induction part generalizing quoted current with
  | nil =>
    obtain rfl := part_nil.mp h
    rfl
  | cons c part ih =>
    rw [List.cons_append]
    by_cases hc : c = '"'
    · subst hc
      rw [pieces_quote, ih (part_quote.mp h), unquoted_quote]
    · obtain ⟨hcomma, hpart⟩ := (part_cons hc).mp h
      rw [pieces_cons hc hcomma, ih hpart, unquoted_cons hc]
      simp

theorem pieces_intercalate (h : ∀ part ∈ parts, Part false part) (hne : parts ≠ []) :
    pieces false [] ([','].intercalate parts) = some (parts.map unquoted) := by
  induction parts with
  | nil => exact absurd rfl hne
  | cons part parts ih =>
    have hpart := h part List.mem_cons_self
    cases parts with
    | nil =>
      have hread := pieces_part hpart [] []
      simp only [List.append_nil] at hread
      simp only [List.intercalate_singleton, hread, pieces]
      simp
    | cons next rest =>
      have hrest := ih (fun p hp => h p (List.mem_cons_of_mem _ hp)) (List.cons_ne_nil _ _)
      rw [List.intercalate_cons_cons, List.append_assoc, pieces_part hpart]
      simp [pieces_comma, hrest]

theorem Divides.pieces (h : Divides cs parts) : pieces false [] cs = some (parts.map unquoted) := by
  rw [← h.joined]
  exact pieces_intercalate h.part h.ne_nil

theorem exists_parts (h : ¬ Inside quoted cs) :
    ∃ part parts, [','].intercalate (part :: parts) = cs ∧ Part quoted part ∧ ∀ p ∈ parts, Part false p := by
  induction cs generalizing quoted with
  | nil =>
    rw [inside_nil, Bool.not_eq_true] at h
    exact ⟨[], [], by simp, part_nil.mpr h, by simp⟩
  | cons c cs ih =>
    by_cases hc : c = '"'
    · subst hc
      obtain ⟨part, parts, rfl, hpart, hparts⟩ := ih (mt inside_quote.mpr h)
      exact ⟨_, parts, List.intercalate_cons_cons_left, part_quote.mpr hpart, hparts⟩
    · obtain ⟨part, parts, rfl, hpart, hparts⟩ := ih (mt (inside_cons hc).mpr h)
      by_cases hcomma : c = ',' ∧ quoted = false
      · obtain ⟨rfl, rfl⟩ := hcomma
        refine ⟨[], part :: parts, by simp [List.intercalate_cons_cons], part_nil.mpr rfl, ?_⟩
        exact List.forall_mem_cons.mpr ⟨hpart, hparts⟩
      · refine ⟨_, parts, List.intercalate_cons_cons_left, (part_cons hc).mpr ⟨?_, hpart⟩, hparts⟩
        intro h
        simpa [h] using hcomma

theorem exists_divides (h : Even (cs.count '"')) : ∃ parts, Divides cs parts := by
  have hclosed : ¬ Inside false cs := by simpa [Inside] using h
  obtain ⟨part, parts, hjoined, hpart, hparts⟩ := exists_parts hclosed
  exact ⟨part :: parts, hjoined, List.cons_ne_nil _ _, List.forall_mem_cons.mpr ⟨hpart, hparts⟩⟩

theorem pieces_eq_none_iff (current : List Char) : pieces quoted current cs = none ↔ Inside quoted cs := by
  induction cs generalizing quoted current with
  | nil => cases quoted <;> simp [pieces, inside_nil]
  | cons c cs ih =>
    by_cases hc : c = '"'
    · subst hc
      rw [pieces_quote, ih, inside_quote]
    · rw [inside_cons hc]
      by_cases hcomma : c = ',' ∧ quoted = false
      · obtain ⟨rfl, rfl⟩ := hcomma
        rw [pieces_comma, Option.map_eq_none_iff, ih]
      · rw [pieces_cons hc (fun h => by simpa [h] using hcomma), ih]

end FleetControl.IpDefinition
