import Mathlib.Data.List.Forall2
import FleetControl.Json.Reader
import FleetControl.Json.Writer

/-!
JSON that is written over several lines is read back. A value is read up to the comma or the line break
behind it, with as much fuel as its text is long; the fields of an object come back in the order of their
keys, so what has its keys sorted comes back as it was.
-/
namespace FleetControl.Json

variable {c : Char} {cs ds rest text more lead closing : List Char} {texts : List (List Char)} {v : Json}
  {vs : List Json} {done members : Fields} {key : String} {fuel depth n : Nat}

theorem hexDigits4_control : ∀ n < 0x20, hexDigits4 n = ['0', '0', (n / 16).digitChar, (n % 16).digitChar] ∧
    unit? '0' '0' (n / 16).digitChar (n % 16).digitChar = some n := by decide +kernel

theorem textFrom_escape (acc : List Char) (c : Char) (rest : List Char) :
    textFrom acc (escape c ++ rest) = textFrom (c :: acc) rest := by
  unfold escape
  split
  -- Only what has no short escape is left: control characters by their number, all others as they are.
  case h_8 h₁ h₂ h₃ h₄ h₅ h₆ h₇ =>
    by_cases hlow : c.toNat < 0x20
    · obtain ⟨hhex, hunit⟩ := hexDigits4_control c.toNat hlow
      have hchar : Char.ofNat c.toNat = c := Char.ofNat_toNat c
      rw [if_pos hlow, hhex]
      simp only [List.cons_append, List.nil_append, textFrom, hunit]
      rw [if_neg (by omega), if_neg (by omega), hchar]
    · rw [if_neg hlow, List.singleton_append, textFrom, if_neg hlow]
      · exact h₁
      · rintro a b c d rest' rfl
        exact absurd rfl h₂
      · rintro c' rest' rfl
        exact absurd rfl h₂
  all_goals rfl

theorem textFrom_escaped (acc s rest : List Char) :
    textFrom acc (s.flatMap escape ++ '"' :: rest) = .ok (String.ofList (acc.reverse ++ s), rest) := by
  induction s generalizing acc with
  | nil => simp [textFrom]
  | cons c s ih =>
    rw [List.flatMap_cons, List.append_assoc, textFrom_escape, ih]
    simp

theorem textFrom_quote (s : String) (rest : List Char) :
    (quote s).toList ++ rest = '"' :: (s.toList.flatMap escape ++ '"' :: rest) := by
  simp [quote]

theorem digitsOf_append (hds : ∀ c ∈ ds, c.isDigit) (hrest : ∀ c ∈ rest.head?, ¬ c.isDigit) :
    digitsOf (ds ++ rest) = (ds, rest) := by
  have hnone : rest.takeWhile Char.isDigit = [] ∧ rest.dropWhile Char.isDigit = rest := by
    cases rest with
    | nil => exact ⟨rfl, rfl⟩
    | cons c rest =>
      have hc := hrest c rfl
      simp [hc]
  rw [digitsOf, List.takeWhile_append_of_pos hds, List.dropWhile_append_of_pos hds, hnone.1, hnone.2,
    List.append_nil]

def Closes (rest : List Char) : Prop := ∀ c ∈ rest.head?, c = ',' ∨ c = '\n'

theorem Closes.not_isDigit (h : Closes rest) : ∀ c ∈ rest.head?, ¬ c.isDigit := by
  intro c hc
  obtain rfl | rfl := h c hc <;> decide

theorem exists_toDigits (hn : 0 < n) : ∃ c cs, Nat.toDigits 10 n = c :: cs ∧ c ≠ '0' := by
  induction n using Nat.strongRecOn with
  | ind n ih =>
    rw [Nat.toDigits_eq_if (by decide)]
    by_cases hlt : n < 10
    · have hall : ∀ k < 10, 0 < k → Nat.digitChar k ≠ '0' := by decide
      rw [if_pos hlt]
      exact ⟨n.digitChar, [], rfl, hall n hlt hn⟩
    · obtain ⟨c, cs, heq, hc⟩ := ih (n / 10) (by omega) (by omega)
      rw [if_neg hlt, heq]
      exact ⟨c, cs ++ [(n % 10).digitChar], rfl, hc⟩

theorem isDigit_toDigits (n : Nat) : ∀ c ∈ Nat.toDigits 10 n, c.isDigit := fun _ hc =>
  Nat.isDigit_of_mem_toDigits (by decide) (by decide) hc

theorem wholePart_toDigits (n : Nat) (h : Closes rest) :
    wholePart (Nat.toDigits 10 n ++ rest) = .ok (Nat.toDigits 10 n, rest) := by
  have hdigits := digitsOf_append (isDigit_toDigits n) h.not_isDigit
  -- A zero is read by itself: a digit behind it would be refused, but none comes there.
  obtain rfl | hn := Nat.eq_zero_or_pos n
  · cases rest with
    | nil => rfl
    | cons c rest =>
      have hc := h.not_isDigit c rfl
      simp [wholePart, hc]
  · obtain ⟨c, cs, heq, hc⟩ := exists_toDigits hn
    have hdigit : c.isDigit := isDigit_toDigits n c (by simp [heq])
    rw [heq] at hdigits ⊢
    rw [List.cons_append, wholePart, if_pos hdigit, ← List.cons_append, hdigits]
    rintro c' rest' rfl
    exact absurd rfl hc

theorem fractionPart_of_closes (h : Closes rest) : fractionPart rest = .ok (none, rest) := by
  cases rest with
  | nil => rfl
  | cons c rest => obtain rfl | rfl := h c rfl <;> rfl

theorem exponentPart_of_closes (h : Closes rest) : exponentPart rest = .ok (none, rest) := by
  cases rest with
  | nil => rfl
  | cons c rest => obtain rfl | rfl := h c rfl <;> rfl

theorem numeral_toDigits (n : Nat) (h : Closes rest) :
    numeral (Nat.toDigits 10 n ++ rest) = .ok (⟨false, Nat.toDigits 10 n, none, none⟩, rest) := by
  obtain ⟨c, cs, heq⟩ := List.exists_cons_of_ne_nil (Nat.toDigits_ne_nil (n := n) (b := 10))
  have hc : c ≠ '-' := by
    rintro rfl
    exact absurd (isDigit_toDigits n '-' (by simp [heq])) (by decide)
  have hwhole := wholePart_toDigits n h
  rw [heq, List.cons_append] at hwhole ⊢
  simp [numeral, hc, hwhole, bind, Except.bind, fractionPart_of_closes h, exponentPart_of_closes h]

theorem numeral_negative (n : Nat) (h : Closes rest) :
    numeral ('-' :: (Nat.toDigits 10 n ++ rest)) = .ok (⟨true, Nat.toDigits 10 n, none, none⟩, rest) := by
  simp only [numeral, wholePart_toDigits n h, bind, Except.bind, fractionPart_of_closes h, exponentPart_of_closes h]

theorem decimalValue_toDigits (n : Nat) : decimalValue (Nat.toDigits 10 n) = n :=
  Nat.ofDigitChars_toDigits (by decide) (by decide)

def Fits (k : Int) : Prop := -(Nat.pow 2 63 : Int) ≤ k ∧ k < (Nat.pow 2 64 : Nat)

theorem fits_nat (h : n < Nat.pow 2 64) : Fits n := ⟨by omega, Int.ofNat_lt.mpr h⟩

theorem value?_nat (h : n < Nat.pow 2 64) :
    Numeral.value? ⟨false, Nat.toDigits 10 n, none, none⟩ = some (.whole n) := by
  simp [Numeral.value?, decimalValue_toDigits, h]

theorem value?_negative (hpos : n ≠ 0) (h : n ≤ Nat.pow 2 63) :
    Numeral.value? ⟨true, Nat.toDigits 10 n, none, none⟩ = some (.whole (-n)) := by
  simp [Numeral.value?, decimalValue_toDigits, h, hpos]

def Blank (cs : List Char) : Prop := ∀ c ∈ cs, isSpace c

theorem skipSpace_cons (h : ¬ isSpace c) (rest : List Char) : skipSpace (c :: rest) = c :: rest :=
  List.dropWhile_cons_of_neg h

theorem skipSpace_append (hcs : Blank cs) (h : ¬ isSpace c) (rest : List Char) :
    skipSpace (cs ++ c :: rest) = c :: rest := by
  rw [skipSpace, List.dropWhile_append_of_pos hcs]
  exact skipSpace_cons h rest

def Begins (text : List Char) : Prop :=
  ∃ c cs, text = c :: cs ∧ ¬ isSpace c ∧ c ≠ ']' ∧ c ≠ '\x7d'

namespace Begins

theorem append (h : Begins text) (rest : List Char) : Begins (text ++ rest) := by
  obtain ⟨c, cs, rfl, h⟩ := h
  exact ⟨c, cs ++ rest, rfl, h⟩

theorem intercalate (h : Begins text) (lead : List Char) (texts : List (List Char)) :
    Begins (lead.intercalate (text :: texts)) := by
  cases texts with
  | nil => rwa [List.intercalate_singleton]
  | cons text' texts =>
    rw [List.intercalate_cons_cons, List.append_assoc]
    exact h.append _

theorem skipSpace_append (h : Begins text) (hcs : Blank cs) (rest : List Char) :
    skipSpace (cs ++ (text ++ rest)) = text ++ rest := by
  obtain ⟨c, text, rfl, hspace, -⟩ := h
  exact Json.skipSpace_append hcs hspace (text ++ rest)

theorem skipSpace (h : Begins text) (rest : List Char) : skipSpace (text ++ rest) = text ++ rest := by
  obtain ⟨c, text, rfl, hspace, -⟩ := h
  exact skipSpace_cons hspace (text ++ rest)

end Begins

theorem value_skipSpace (h : Begins text) (hcs : Blank cs) (rest : List Char) :
    value fuel depth (cs ++ (text ++ rest)) = value fuel depth (text ++ rest) := by
  cases fuel with
  | zero => rfl
  | succ fuel => rw [value, h.skipSpace_append hcs, value, h.skipSpace]

theorem begins_numeral (hc : c = '-' ∨ c.isDigit) (cs : List Char) : Begins (c :: cs) := by
  refine ⟨c, cs, rfl, ?_, ?_, ?_⟩
  · simp only [isSpace, Bool.or_eq_true, beq_iff_eq]
    rintro (((rfl | rfl) | rfl) | rfl) <;> exact absurd hc (by decide)
  all_goals
    rintro rfl
    exact absurd hc (by decide)

theorem value_numeral {m : Numeral} {k : Number} (hc : c = '-' ∨ c.isDigit)
    (hm : numeral (c :: cs) = .ok (m, rest)) (hk : m.value? = some k) :
    value (fuel + 1) depth (c :: cs) = .ok (.number k, rest) := by
  have hspace : skipSpace (c :: cs) = c :: cs := (begins_numeral hc []).skipSpace cs
  rw [value, hspace]
  split
  case h_8 heq =>
    obtain ⟨rfl, rfl⟩ := List.cons.inj heq
    simp [hc, hm, hk]
  case h_1 heq => cases heq
  all_goals
    next heq =>
      obtain ⟨rfl, -⟩ := List.cons.inj heq
      exact absurd hc (by decide)

theorem value_quote (s : String) (rest : List Char) :
    value (fuel + 1) depth ((quote s).toList ++ rest) = .ok (.text s, rest) := by
  rw [textFrom_quote, value, skipSpace_cons (by decide)]
  simp [textFrom_escaped, Except.map, String.ofList_toList]

theorem value_list (h : Begins text) (hcs : Blank cs) :
    value (fuel + 1) (depth + 1) ('[' :: (cs ++ (text ++ rest))) =
      (items fuel depth (text ++ rest)).map fun (vs, rest) => (.list vs, rest) := by
  rw [value, skipSpace_cons (by decide)]
  simp only [h.skipSpace_append hcs]
  obtain ⟨c, cs, rfl, -, hlist, -⟩ := h
  split
  next heq => exact absurd (List.cons.inj heq).1 hlist
  next heq => cases heq
  next => rfl

theorem value_object (h : Begins text) (hcs : Blank cs) :
    value (fuel + 1) (depth + 1) ('\x7b' :: (cs ++ (text ++ rest))) =
      (fields fuel depth [] (text ++ rest)).map fun (fs, rest) => (.object fs, rest) := by
  rw [value, skipSpace_cons (by decide)]
  simp only [h.skipSpace_append hcs]
  obtain ⟨c, cs, rfl, -, -, hobject⟩ := h
  split
  next heq => exact absurd (List.cons.inj heq).1 hobject
  next heq => cases heq
  next => rfl

/-- `v` is what is read of the text wherever a value ends behind it. -/
structure Reads (depth : Nat) (v : Json) (text : List Char) : Prop where
  begins : Begins text
  -- a step for each character is enough, as no token is empty
  back : ∀ fuel rest, text.length ≤ fuel → Closes rest → value (fuel + 1) depth (text ++ rest) = .ok (v, rest)

theorem items_last (h : Reads depth v text) (hfuel : text.length ≤ fuel) (hcloses : Closes cs)
    (hcs : skipSpace cs = ']' :: rest) : items (fuel + 2) depth (text ++ cs) = .ok ([v], rest) := by
  rw [items, h.back fuel cs hfuel hcloses]
  simp only [hcs]

theorem items_next (h : Reads depth v text) (hfuel : text.length ≤ fuel) (hmore : Begins more) (hcs : Blank cs) :
    items (fuel + 2) depth (text ++ ',' :: (cs ++ (more ++ rest))) =
      (items (fuel + 1) depth (more ++ rest)).map fun (vs, rest) => (v :: vs, rest) := by
  rw [items, h.back fuel _ hfuel (by simp [Closes])]
  simp only [skipSpace_cons (c := ',') (by decide), hmore.skipSpace_append hcs]
  obtain ⟨c, cs, rfl, -, hlist, -⟩ := hmore
  split
  next heq => exact absurd (List.cons.inj heq).1 hlist
  next => rfl

theorem items_intercalate (hlead : Blank lead) (hcloses : Closes closing) (hclosing : skipSpace closing = ']' :: rest)
    (hreads : List.Forall₂ (Reads depth) vs texts) (hne : texts ≠ [])
    (hfuel : ((',' :: lead).intercalate texts).length ≤ fuel) :
    items (fuel + 2) depth ((',' :: lead).intercalate texts ++ closing) = .ok (vs, rest) := by
  -- The last item meets the closing bracket, every other one a comma with more behind it.
  induction hreads generalizing fuel with
  | nil => exact absurd rfl hne
  | @cons v text vs texts h hreads ih =>
    cases hreads with
    | nil =>
      rw [List.intercalate_singleton] at hfuel ⊢
      exact items_last h hfuel hcloses hclosing
    | @cons v' text' vs texts h' hreads =>
      have hbegins := h'.begins.intercalate (',' :: lead) texts
      rw [List.intercalate_cons_cons] at hfuel ⊢
      simp only [List.length_append, List.length_cons] at hfuel
      simp only [List.append_assoc, List.cons_append]
      obtain ⟨fuel, rfl⟩ := Nat.exists_eq_add_one_of_ne_zero (n := fuel) (by omega)
      rw [items_next h (by omega) hbegins hlead, ih (by simp) (by omega)]
      rfl

def member (key : String) (text : List Char) : List Char := (quote key).toList ++ ':' :: ' ' :: text

theorem begins_member (key : String) (text : List Char) : Begins (member key text) := by
  rw [member, textFrom_quote]
  exact ⟨_, _, rfl, by decide, by decide, by decide⟩

def fieldsBehind (fuel depth : Nat) (done : Fields) (rest : List Char) : Step Fields :=
  match skipSpace rest with
  | '\x7d' :: rest => .ok (done, rest)
  | ',' :: rest =>
    match skipSpace rest with
    | '\x7d' :: rest => fault .trailingComma rest
    | rest => fields fuel depth done rest
  | [] => fault .endInObject []
  | _ :: rest => fault .noObjectEnd rest

theorem fields_member (h : Reads depth v text) (hfuel : text.length ≤ fuel) (hcloses : Closes rest) :
    fields (fuel + 2) depth done (member key text ++ rest) =
      fieldsBehind (fuel + 1) depth (done.insert key v) rest := by
  have hblank : Blank [' '] := List.forall_mem_singleton.mpr rfl
  have hvalue : value (fuel + 1) depth (' ' :: (text ++ rest)) = .ok (v, rest) := by
    rw [← h.back fuel rest hfuel hcloses]
    exact value_skipSpace h.begins hblank rest
  rw [fields, (begins_member key text).skipSpace, member, List.append_assoc, textFrom_quote]
  simp only [textFrom_escaped, List.reverse_nil, List.nil_append, String.ofList_toList, List.cons_append,
    skipSpace_cons (c := ':') (by decide), hvalue]
  rfl

theorem fields_last (h : Reads depth v text) (hfuel : text.length ≤ fuel) (hcloses : Closes cs)
    (hcs : skipSpace cs = '\x7d' :: rest) :
    fields (fuel + 2) depth done (member key text ++ cs) = .ok (done.insert key v, rest) := by
  rw [fields_member h hfuel hcloses]
  simp only [fieldsBehind, hcs]

theorem fields_next (h : Reads depth v text) (hfuel : text.length ≤ fuel) (hmore : Begins more) (hcs : Blank cs) :
    fields (fuel + 2) depth done (member key text ++ ',' :: (cs ++ (more ++ rest))) =
      fields (fuel + 1) depth (done.insert key v) (more ++ rest) := by
  rw [fields_member h hfuel (by simp [Closes]), fieldsBehind, skipSpace_cons (by decide)]
  simp only [hmore.skipSpace_append hcs]
  obtain ⟨c, cs, rfl, -, -, hobject⟩ := hmore
  split
  next heq => exact absurd (List.cons.inj heq).1 hobject
  next => rfl

def ReadsField (depth : Nat) (field : String × Json) (text : List Char) : Prop :=
  ∃ inner, text = member field.1 inner ∧ Reads depth field.2 inner

theorem fields_intercalate (hlead : Blank lead) (hcloses : Closes closing)
    (hclosing : skipSpace closing = '\x7d' :: rest) (hreads : List.Forall₂ (ReadsField depth) members texts)
    (hne : texts ≠ []) (hfuel : ((',' :: lead).intercalate texts).length ≤ fuel) (done : Fields) :
    fields (fuel + 2) depth done ((',' :: lead).intercalate texts ++ closing) =
      .ok (members.foldl (fun done field => done.insert field.1 field.2) done, rest) := by
  induction hreads generalizing fuel done with
  | nil => exact absurd rfl hne
  | @cons field _ members texts h hreads ih =>
    obtain ⟨text, rfl, h⟩ := h
    have hlength : text.length ≤ (member field.1 text).length := by simp [member]; omega
    cases hreads with
    | nil =>
      rw [List.intercalate_singleton] at hfuel ⊢
      exact fields_last h (by omega) hcloses hclosing
    | @cons _ text' members texts h' hreads =>
      have hbegins : Begins ((',' :: lead).intercalate (text' :: texts)) := by
        obtain ⟨_, rfl, -⟩ := h'
        exact (begins_member _ _).intercalate _ _
      rw [List.intercalate_cons_cons] at hfuel ⊢
      simp only [List.length_append, List.length_cons] at hfuel
      simp only [List.append_assoc, List.cons_append]
      obtain ⟨fuel, rfl⟩ := Nat.exists_eq_add_one_of_ne_zero (n := fuel) (by omega)
      rw [fields_next h (by omega) hbegins hlead]
      exact ih (by simp) (by omega) _

theorem insert_of_lt (h : ∀ f ∈ done, f.1 < key) : done.insert key v = done ++ [(key, v)] := by
  induction done with
  | nil => rfl
  | cons f done ih =>
    have hlt : f.1 < key := h f List.mem_cons_self
    rw [Fields.insert, if_neg (String.lt_asymm hlt), if_neg (by rintro rfl; exact String.lt_irrefl _ hlt),
      ih fun f hf => h f (List.mem_cons_of_mem _ hf)]
    rfl

theorem foldl_insert_of_pairwise (h : (done ++ members).Pairwise fun f g => f.1 < g.1) :
    members.foldl (fun done field => done.insert field.1 field.2) done = done ++ members := by
  induction members generalizing done with
  | nil => simp
  | cons f members ih =>
    have hlast : done.insert f.1 f.2 = done ++ [f] :=
      insert_of_lt fun g hg => (List.pairwise_append.mp h).2.2 g hg f List.mem_cons_self
    rw [List.foldl_cons, hlast, ih (by simpa using h)]
    simp

theorem forall_mem_insert {P : String × Json → Prop} (h : ∀ f ∈ members, P f) (hkey : P (key, v)) :
    ∀ f ∈ members.insert key v, P f := by
  induction members with
  | nil => exact List.forall_mem_singleton.mpr hkey
  | cons f members ih =>
    obtain ⟨hf, hmembers⟩ := List.forall_mem_cons.mp h
    rw [Fields.insert]
    split
    · exact List.forall_mem_cons.mpr ⟨hkey, h⟩
    split
    · exact List.forall_mem_cons.mpr ⟨hkey, hmembers⟩
    · exact List.forall_mem_cons.mpr ⟨hf, ih hmembers⟩

theorem pairwise_insert (h : members.Pairwise fun f g => f.1 < g.1) (key : String) (v : Json) :
    (members.insert key v).Pairwise fun f g => f.1 < g.1 := by
  induction members with
  | nil => exact List.pairwise_singleton _ _
  | cons f members ih =>
    obtain ⟨hf, hmembers⟩ := List.pairwise_cons.mp h
    by_cases hlt : key < f.1
    · have hall : ∀ g ∈ members, key < g.1 := fun g hg => String.lt_trans hlt (hf g hg)
      rw [Fields.insert, if_pos hlt]
      exact List.pairwise_cons.mpr ⟨List.forall_mem_cons.mpr ⟨hlt, hall⟩, h⟩
    · by_cases heq : key = f.1
      · rw [Fields.insert, if_neg hlt, if_pos heq]
        exact List.pairwise_cons.mpr ⟨heq ▸ hf, hmembers⟩
      · have hgt : f.1 < key := Std.lt_of_le_of_ne (String.not_lt.mp hlt) (Ne.symm heq)
        rw [Fields.insert, if_neg hlt, if_neg heq]
        exact List.pairwise_cons.mpr ⟨forall_mem_insert (P := fun g => f.1 < g.1) hf hgt, ih hmembers⟩

theorem sortKeysList_eq (vs : List Json) : sortKeysList vs = vs.map sortKeys := by
  induction vs with
  | nil => rfl
  | cons v vs ih => rw [sortKeysList, ih, List.map_cons]

theorem pairwise_sortKeysFields (members : Fields) :
    (sortKeysFields members).Pairwise fun f g => f.1 < g.1 := by
  induction members with
  | nil => exact .nil
  | cons f members ih =>
    rw [sortKeysFields]
    exact pairwise_insert ih _ _

theorem forall_mem_sortKeysFields {P : Json → Prop} (h : ∀ f ∈ members, P f.2.sortKeys) :
    ∀ f ∈ sortKeysFields members, P f.2 := by
  induction members with
  | nil => exact List.forall_mem_nil _
  | cons f members ih =>
    obtain ⟨hf, hmembers⟩ := List.forall_mem_cons.mp h
    rw [sortKeysFields]
    exact forall_mem_insert (ih hmembers) hf

/-- Values no deeper than so many levels, without reals, the keys of whose objects are in order. -/
inductive Legible (before : String → String → Prop) : Nat → Json → Prop
  | null {depth : Nat} : Legible before depth .null
  | bool {depth : Nat} (b : Bool) : Legible before depth (.bool b)
  | whole {depth : Nat} {k : Int} (h : Fits k) : Legible before depth (whole k)
  | text {depth : Nat} (s : String) : Legible before depth (.text s)
  | list {depth : Nat} {vs : List Json} (h : ∀ v ∈ vs, Legible before depth v) :
      Legible before (depth + 1) (.list vs)
  | object {depth : Nat} {members : Fields} (h : ∀ f ∈ members, Legible before depth f.2)
      (hkeys : members.Pairwise fun f g => before f.1 g.1) : Legible before (depth + 1) (.object members)

abbrev Presentable : Nat → Json → Prop := Legible fun _ _ => True

theorem prettyList_eq (level : Nat) (vs : List Json) : prettyList level vs = vs.map (prettyAt level) := by
  induction vs with
  | nil => rfl
  | cons v vs ih => rw [prettyList, ih, List.map_cons]

theorem prettyFields_eq (level : Nat) (members : Fields) :
    prettyFields level members = members.map fun f => quote f.1 ++ ": " ++ prettyAt level f.2 := by
  induction members with
  | nil => rfl
  | cons f members ih => rw [prettyFields, ih, List.map_cons]

def margin (level : Nat) : List Char := '\n' :: List.replicate (2 * level) ' '

theorem blank_margin (level : Nat) : Blank (margin level) := by
  intro c hc
  obtain rfl | hc := List.mem_cons.mp hc
  · rfl
  · rw [List.eq_of_mem_replicate hc]
    rfl

theorem toList_block (level : Nat) {opening closing : String} {o c : Char} {parts : List String}
    (ho : opening.toList = [o]) (hc : closing.toList = [c]) (hne : parts ≠ []) :
    (block level opening closing parts).toList = o :: (margin (level + 1) ++
      ((',' :: margin (level + 1)).intercalate (parts.map String.toList) ++ (margin level ++ [c]))) := by
  rw [block, if_neg (by simpa using hne)]
  simp [indentation, margin, String.toList_intercalate, ho, hc]

theorem reads_natural (h : n < Nat.pow 2 64) : Reads depth (whole n) (Nat.toDigits 10 n) := by
  obtain ⟨c, cs, heq⟩ := List.exists_cons_of_ne_nil (Nat.toDigits_ne_nil (n := n) (b := 10))
  have hc : c = '-' ∨ c.isDigit := .inr (isDigit_toDigits n c (by simp [heq]))
  refine ⟨heq ▸ begins_numeral hc cs, fun fuel rest _ hrest => ?_⟩
  have hnumeral := numeral_toDigits n hrest
  rw [heq] at hnumeral ⊢
  exact value_numeral hc hnumeral (heq ▸ value?_nat h)

theorem reads_negative (hpos : n ≠ 0) (h : n ≤ Nat.pow 2 63) :
    Reads depth (whole (-n)) ('-' :: Nat.toDigits 10 n) := by
  refine ⟨begins_numeral (.inl rfl) _, fun fuel rest _ hrest => ?_⟩
  exact value_numeral (.inl rfl) (numeral_negative n hrest) (value?_negative hpos h)

theorem reads_whole {k : Int} (h : Fits k) : Reads depth (whole k) (Number.render (.whole k)).toList := by
  cases k with
  | ofNat n =>
    have hrender : (Number.render (.whole n)).toList = Nat.toDigits 10 n := Nat.toList_repr
    simp only [Int.ofNat_eq_natCast, hrender]
    exact reads_natural (Int.ofNat_lt.mp h.2)
  | negSucc n =>
    have hrender : (Number.render (.whole (.negSucc n))).toList = '-' :: Nat.toDigits 10 (n + 1) := by
      rw [← Nat.toList_repr]
      exact String.toList_append
    rw [hrender]
    exact reads_negative (Nat.succ_ne_zero n) (by have := h.1; omega)

theorem reads_quote (s : String) : Reads depth (.text s) (quote s).toList := by
  have hquote := textFrom_quote s []
  rw [List.append_nil] at hquote
  exact ⟨⟨_, _, hquote, by decide, by decide, by decide⟩, fun _ rest _ _ => value_quote s rest⟩

theorem reads_null : Reads depth .null "null".toList := by
  refine ⟨⟨_, _, rfl, by decide, by decide, by decide⟩, fun fuel rest _ _ => ?_⟩
  simp [value, skipSpace, isSpace, word]

theorem reads_bool (b : Bool) : Reads depth (.bool b) (if b then "true" else "false").toList := by
  cases b
  all_goals
    refine ⟨⟨_, _, rfl, by decide, by decide, by decide⟩, fun fuel rest _ _ => ?_⟩
    simp [value, skipSpace, isSpace, word]

theorem closes_margin (level : Nat) (rest : List Char) : Closes (margin level ++ rest) := by simp [Closes, margin]

theorem Reads.enclosed {o : Char} {body : List Char} {level : Nat} (ho : Begins [o])
    (h : ∀ fuel rest, body.length ≤ fuel →
      value (fuel + 3) depth (o :: (margin (level + 1) ++ (body ++ (margin level ++ c :: rest)))) = .ok (v, rest)) :
    Reads depth v (o :: (margin (level + 1) ++ (body ++ (margin level ++ [c])))) := by
  refine ⟨ho.append _, fun fuel rest hfuel _ => ?_⟩
  simp only [List.length_append, List.length_cons, List.length_nil] at hfuel
  obtain ⟨fuel, rfl⟩ := Nat.exists_eq_add_of_le' (show 2 ≤ fuel by omega)
  have hvalue := h fuel rest (by omega)
  simpa only [List.append_assoc, List.cons_append, List.nil_append] using hvalue

theorem reads_list {level : Nat} (h : ∀ v ∈ vs, Reads depth v (prettyAt (level + 1) v).toList) :
    Reads (depth + 1) (.list vs) (prettyAt level (.list vs)).toList := by
  rw [prettyAt, prettyList_eq]
  cases vs with
  | nil =>
    refine ⟨⟨'[', [']'], by simp [block], by decide, by decide, by decide⟩, fun fuel rest _ _ => ?_⟩
    simp [value, skipSpace, isSpace, block]
  | cons v vs =>
    have hreads : List.Forall₂ (Reads depth) (v :: vs)
        (((v :: vs).map (prettyAt (level + 1))).map String.toList) := by
      rw [List.map_map, List.forall₂_map_right_iff, List.forall₂_same]
      exact h
    have hbegins := (h v List.mem_cons_self).begins.intercalate (',' :: margin (level + 1))
      ((vs.map (prettyAt (level + 1))).map String.toList)
    rw [toList_block level (o := '[') (c := ']') rfl rfl (by simp)]
    refine .enclosed ⟨'[', [], rfl, by decide, by decide, by decide⟩ fun fuel rest hfuel => ?_
    have hclosing := skipSpace_append (blank_margin level) (c := ']') (by decide) rest
    have hitems := items_intercalate (blank_margin _) (closes_margin level _) hclosing hreads (by simp) hfuel
    rw [List.map_cons, List.map_cons] at hitems ⊢
    rw [value_list hbegins (blank_margin _), hitems]
    rfl

theorem reads_object {level : Nat} (h : ∀ f ∈ members, Reads depth f.2 (prettyAt (level + 1) f.2).toList)
    (hkeys : members.Pairwise fun f g => f.1 < g.1) :
    Reads (depth + 1) (.object members) (prettyAt level (.object members)).toList := by
  rw [prettyAt, prettyFields_eq]
  cases members with
  | nil =>
    refine ⟨⟨'\x7b', ['\x7d'], by simp [block], by decide, by decide, by decide⟩, fun fuel rest _ _ => ?_⟩
    simp [value, skipSpace, isSpace, block]
  | cons f members =>
    have hmember (f : String × Json) : (quote f.1 ++ ": " ++ prettyAt (level + 1) f.2).toList =
        member f.1 (prettyAt (level + 1) f.2).toList := by simp [member]
    have hreads : List.Forall₂ (ReadsField depth) (f :: members)
        (((f :: members).map fun f => quote f.1 ++ ": " ++ prettyAt (level + 1) f.2).map String.toList) := by
      rw [List.map_map, List.forall₂_map_right_iff, List.forall₂_same]
      exact fun g hg => ⟨_, hmember g, h g hg⟩
    have hbegins := (begins_member f.1 (prettyAt (level + 1) f.2).toList).intercalate (',' :: margin (level + 1))
      ((members.map fun f => quote f.1 ++ ": " ++ prettyAt (level + 1) f.2).map String.toList)
    rw [toList_block level (o := '\x7b') (c := '\x7d') rfl rfl (by simp)]
    refine .enclosed ⟨'\x7b', [], rfl, by decide, by decide, by decide⟩ fun fuel rest hfuel => ?_
    have hclosing := skipSpace_append (blank_margin level) (c := '\x7d') (by decide) rest
    have hfields := fields_intercalate (blank_margin _) (closes_margin level _) hclosing hreads (by simp) hfuel []
    rw [foldl_insert_of_pairwise hkeys] at hfields
    rw [List.map_cons, List.map_cons, hmember] at hfields ⊢
    rw [value_object hbegins (blank_margin _), hfields]
    rfl

theorem Legible.reads (h : Legible (· < ·) depth v) (level : Nat) : Reads depth v (prettyAt level v).toList := by
  induction h generalizing level with
  | null => exact reads_null
  | bool b => exact reads_bool b
  | whole h => exact reads_whole h
  | text s => exact reads_quote s
  | list _ ih => exact reads_list fun v hv => ih v hv (level + 1)
  | object _ hkeys ih => exact reads_object (fun f hf => ih f hf (level + 1)) hkeys

theorem presentable_object (h : ∀ f ∈ members, Presentable depth f.2) :
    Presentable (depth + 1) (.object members) :=
  .object h (List.pairwise_of_forall fun _ _ => trivial)

theorem Presentable.sortKeys (h : Presentable depth v) : Legible (· < ·) depth v.sortKeys := by
  induction h with
  | null => exact .null
  | bool b => exact .bool b
  | whole h => exact .whole h
  | text s => exact .text s
  | list _ ih =>
    rw [Json.sortKeys, sortKeysList_eq]
    exact .list (List.forall_mem_map.mpr ih)
  | object _ _ ih =>
    rw [Json.sortKeys]
    exact .object (forall_mem_sortKeysFields ih) (pairwise_sortKeysFields _)

theorem read_pretty (h : Legible (· < ·) maxDepth v) : read (v.pretty ++ "\n") = .ok v := by
  have hfuel : v.pretty.toList.length ≤ (v.pretty ++ "\n").toList.length := by simp
  have hvalue := (h.reads 0).back (v.pretty ++ "\n").toList.length ['\n'] hfuel (by simp [Closes])
  have htext : (prettyAt 0 v).toList ++ ['\n'] = (v.pretty ++ "\n").toList := by
    simp [pretty]
  rw [htext] at hvalue
  rw [read, readChars, hvalue]
  rfl

end FleetControl.Json
