import FleetControl.Proofs.Segments

/-! Hosts as they are written: whatever was read, no mark of a query or a fragment gets into one. -/
namespace FleetControl.Url

variable {c : Char} {cs label name : List Char} {n base : Nat}

theorem isAlphanum_of_mem_toDigits (hpos : 1 < base) (hbase : base ≤ 16) (hc : c ∈ Nat.toDigits base n) :
    c.isAlphanum := by
  have hdigit : ∀ d < 16, d.digitChar.isAlphanum := by decide
  induction n using Nat.strong_induction_on with
  | _ n ih =>
    rw [Nat.toDigits_eq_if hpos] at hc
    by_cases hn : n < base
    · rw [if_pos hn, List.mem_singleton] at hc
      exact hc ▸ hdigit n (by omega)
    · rw [if_neg hn] at hc
      have hmod := Nat.mod_lt n (show 0 < base by omega)
      rcases List.mem_append.mp hc with hc | hc
      · exact ih (n / base) (Nat.div_lt_self (by omega) hpos) hc
      · rw [List.mem_singleton] at hc
        exact hc ▸ hdigit (n % base) (by omega)

theorem unmarked_toDigits (hpos : 1 < base) (hbase : base ≤ 16) (n : Nat) : Unmarked (Nat.toDigits base n) :=
  fun _ hc => isPathEnd_of_isAlphanum (isAlphanum_of_mem_toDigits hpos hbase hc)

theorem unmarked_nat (n : Nat) : Unmarked (toString n).toList := by
  rw [Nat.toString_eq_ofList_toDigits, String.toList_ofList]
  exact unmarked_toDigits (by decide) (by decide) n

theorem unmarked_intercalate {mark : List Char} (hmark : Unmarked mark) {parts : List (List Char)}
    (h : ∀ p ∈ parts, Unmarked p) : Unmarked (mark.intercalate parts) := by
  induction parts with
  | nil => exact unmarked_nil
  | cons p parts ih =>
    have hp := h p List.mem_cons_self
    cases parts with
    | nil => simpa using hp
    | cons q parts =>
      have hrest := ih fun r hr => h r (List.mem_cons_of_mem p hr)
      rw [List.intercalate_cons_cons]
      exact (hp.append hmark).append hrest

theorem unmarked_ipv4 (n : Nat) : Unmarked (Ipv4.render n).toList := by
  rw [Ipv4.render, String.toList_intercalate, List.map_map]
  apply unmarked_intercalate (by decide)
  exact List.forall_mem_map.mpr fun unit _ => unmarked_nat _

theorem unmarked_renderRun (ns : List Nat) : Unmarked (Ipv6.renderRun ns).toList := by
  rw [Ipv6.renderRun, String.toList_intercalate, List.map_map]
  apply unmarked_intercalate (by decide)
  intro p hp
  obtain ⟨n, _, rfl⟩ := List.mem_map.mp hp
  rw [Function.comp, String.toList_ofList]
  exact unmarked_toDigits (by decide) (by decide) n

theorem unmarked_ipv6 (ns : List Nat) : Unmarked (Ipv6.render ns).toList := by
  fun_cases Ipv6.render ns with
  | case1 => exact unmarked_renderRun ns
  | case2 =>
    rw [String.toList_append, String.toList_append]
    exact ((unmarked_renderRun _).append (by decide)).append (unmarked_renderRun _)

namespace Punycode

theorem isAlphanum_digit : ∀ n < 36, (digit n).isAlphanum := by decide

theorem isAlphanum_digits (q bias k : Nat) : ∀ c ∈ digits q bias k, c.isAlphanum := by
  induction q, k using digits.induct bias with
  | case1 q k t hq =>
    have ht := threshold_le k bias
    rw [digits, if_pos hq]
    exact List.forall_mem_singleton.mpr (isAlphanum_digit q (by omega))
  | case2 q k t hq ih =>
    have ht : t ≤ 26 := threshold_le k bias
    have hmod := Nat.mod_lt (q - t) (show 0 < 36 - t by omega)
    rw [digits, if_neg hq]
    exact List.forall_mem_cons.mpr ⟨isAlphanum_digit (t + (q - t) % (36 - t)) (by omega), ih⟩

def Written (s : State) : Prop := ∀ c ∈ s.out, c.isAlphanum

theorem Written.encodeAt {s : State} (h : Written s) (point : Nat) (c : Char) : Written (encodeAt point s c) := by
  fun_cases Punycode.encodeAt point s c with
  | case1 | case3 => exact h
  | case2 => exact List.forall_mem_append.mpr ⟨h, isAlphanum_digits _ _ _⟩

theorem Written.foldl {s : State} (h : Written s) (point : Nat) (label : List Char) :
    Written (label.foldl (Punycode.encodeAt point) s) := by
  induction label generalizing s with
  | nil => exact h
  | cons c label ih => exact ih (h.encodeAt point c)

theorem Written.rounds {s : State} (h : Written s) (label : List Char) (points : List Nat) (reached : Nat) :
    Written (rounds label points reached s) := by
  induction points generalizing s reached with
  | nil => exact h
  | cons point points ih =>
    apply ih
    exact Written.foldl (s := { s with delta := s.delta + (point - reached) * (s.written + 1) }) h point label

theorem mem_encode (hc : c ∈ encode label) : c ∈ label ∨ c = '-' ∨ c.isAlphanum := by
  rw [encode] at hc
  rcases List.mem_append.mp hc with hc | hc
  · split at hc
    · simp at hc
    · rcases List.mem_append.mp hc with hc | hc
      · exact .inl (List.mem_filter.mp hc |>.1)
      · exact .inr (.inl (List.mem_singleton.mp hc))
  · exact .inr (.inr (Written.rounds (by simp [Written]) label _ _ c hc))

end Punycode

namespace Domain

theorem unmarked_label? (h : Unmarked cs) (hlabel : label? cs = some label) : Unmarked label := by
  have hdash : isPathEnd '-' = false := rfl
  revert hlabel
  fun_cases label? cs with
  | case1 | case3 =>
    rintro ⟨⟩
    exact h
  | case2 | case4 => exact nofun
  | case5 =>
    rintro ⟨⟩
    refine Unmarked.append (by decide) ?_
    intro c hc
    rcases Punycode.mem_encode hc with hc | rfl | halnum
    · exact h c hc
    · exact hdash
    · exact isPathEnd_of_isAlphanum halnum

theorem isForbidden_of_isPathEnd (h : isPathEnd c) : isForbidden c := by
  rcases isPathEnd_iff.mp h with rfl | rfl <;> simp [isForbidden, String.contains_char_eq]

theorem mem_of_mapM_eq_some {α β : Type} {g : α → Option β} {as : List α} {bs : List β} {b : β}
    (h : as.mapM g = some bs) (hb : b ∈ bs) : ∃ a ∈ as, g a = some b := by
  induction as generalizing bs with
  | nil =>
    obtain rfl : [] = bs := Option.some.inj h
    simp at hb
  | cons a as ih =>
    simp only [List.mapM_cons, Option.bind_eq_bind, Option.bind_eq_some_iff, Option.pure_def] at h
    obtain ⟨first, hfirst, rest, hrest, hbs⟩ := h
    obtain rfl := Option.some.inj hbs
    rcases List.mem_cons.mp hb with rfl | hb
    · exact ⟨a, List.mem_cons_self, hfirst⟩
    · obtain ⟨d, hd, hbd⟩ := ih hrest hb
      exact ⟨d, List.mem_cons_of_mem a hd, hbd⟩

theorem unmarked_ofChars? (h : ofChars? cs = some name) : Unmarked name := by
  simp only [ofChars?] at h
  by_cases hforbidden : (fold cs).any isForbidden
  · rw [if_pos hforbidden] at h
    contradiction
  · rw [if_neg hforbidden] at h
    have hfolded : Unmarked (fold cs) := by
      intro c hc
      by_contra hend
      exact hforbidden (List.any_eq_true.mpr ⟨c, hc, isForbidden_of_isPathEnd (by simpa using hend)⟩)
    obtain ⟨labels, hlabels, hname⟩ := Option.bind_eq_some_iff.mp h
    obtain rfl := Option.some.inj hname
    apply unmarked_intercalate (by decide)
    intro label hlabel
    obtain ⟨p, hp, hread⟩ := mem_of_mapM_eq_some hlabels hlabel
    exact unmarked_label? (fun c hc => hfolded c (mem_of_mem_pieces hp hc)) hread

end Domain

variable {h : Host}

theorem unmarked_bracketed (hread : Host.bracketed cs = .ok h) : Unmarked h.render.toList := by
  revert hread
  fun_cases Host.bracketed cs with
  | case1 _ ns _ =>
    rintro ⟨⟩
    rw [Host.render, String.toList_append, String.toList_append]
    exact (Unmarked.append (by decide) (unmarked_ipv6 ns)).append (by decide)
  | case2 | case3 => exact nofun

theorem unmarked_host (hread : Host.ofChars cs = .ok h) : Unmarked h.render.toList := by
  revert hread
  fun_cases Host.ofChars cs with
  | case1 => exact unmarked_bracketed
  | case2 | case3 | case5 => exact nofun
  | case4 _ _ name _ _ _ n _ =>
    rintro ⟨⟩
    exact unmarked_ipv4 n
  | case6 _ _ name _ hname _ =>
    rintro ⟨⟩
    obtain ⟨s, _, hs⟩ := Option.bind_eq_some_iff.mp hname
    rw [Host.render, String.toList_ofList]
    exact Domain.unmarked_ofChars? hs

theorem isDelimiter_of_isPathEnd (hc : isPathEnd c) : Host.isDelimiter c := by
  rcases isPathEnd_iff.mp hc with rfl | rfl <;> simp [Host.isDelimiter, String.contains_char_eq]

theorem unmarked_verbatim (hread : Host.verbatim cs = .ok h) : Unmarked h.render.toList := by
  revert hread
  fun_cases Host.verbatim cs with
  | case1 => exact unmarked_bracketed
  | case2 => exact nofun
  | case3 cs _ hdelimiter =>
    rintro ⟨⟩
    rw [Host.render, String.toList_ofList]
    apply unmarked_encodeChars
    intro c hc _
    by_contra hend
    exact hdelimiter (List.any_eq_true.mpr ⟨c, hc, isDelimiter_of_isPathEnd (by simpa using hend)⟩)

end FleetControl.Url
