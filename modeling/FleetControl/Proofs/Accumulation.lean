import Mathlib.Data.List.Induction
import FleetControl.Proofs.Tally

namespace FleetControl.Match

section Duplicates

variable {α : Type} [BEq α] [LawfulBEq α] {as : List α} {a : α}

theorem eraseDups_concat_of_mem (h : a ∈ as) : (as ++ [a]).eraseDups = as.eraseDups :=
  eraseDups_append_of_forall_mem (List.forall_mem_singleton.mpr h)

theorem pairwise_eraseDups (as : List α) : as.eraseDups.Pairwise fun a b => as.idxOf a < as.idxOf b := by
  induction as using List.reverseRecOn with
  | nil => exact .nil
  | append_singleton as a ih =>
    have hold : as.eraseDups.Pairwise fun b c => (as ++ [a]).idxOf b < (as ++ [a]).idxOf c := by
      apply ih.imp_of_mem
      intro b c hb hc hlt
      rwa [List.idxOf_append_of_mem (List.mem_eraseDups.mp hb), List.idxOf_append_of_mem (List.mem_eraseDups.mp hc)]
    by_cases ha : a ∈ as
    · rwa [eraseDups_concat_of_mem ha]
    · rw [eraseDups_concat ha, List.pairwise_append]
      refine ⟨hold, List.pairwise_singleton _ _, ?_⟩
      intro b hb c hc
      obtain rfl := List.mem_singleton.mp hc
      have hbefore := List.idxOf_lt_length_of_mem (List.mem_eraseDups.mp hb)
      rw [List.idxOf_append_of_mem (List.mem_eraseDups.mp hb), List.idxOf_append_of_notMem ha]
      exact Nat.lt_add_right _ hbefore

end Duplicates

variable {token u : String} {r : Reason} {hits : List (String × Reason)}
  {a : String × Option Reason} {adds others : List (String × Option Reason)}

theorem tally_concat_of_mem (h : (u, r) ∈ hits) : tally (hits ++ [(u, r)]) = tally hits := by
  have huuids : ((hits ++ [(u, r)]).map (·.1)).eraseDups = (hits.map (·.1)).eraseDups := by
    rw [List.map_append]
    exact eraseDups_concat_of_mem (List.mem_map_of_mem h)
  have hreasons (v : String) : reasonsFor (hits ++ [(u, r)]) v = reasonsFor hits v := by
    apply List.filter_congr
    intro x _
    have hmem : (v, x) ∈ hits ++ [(u, r)] ↔ (v, x) ∈ hits := by
      rw [List.mem_append, List.mem_singleton]
      exact or_iff_left_of_imp fun heq => heq ▸ h
    simp only [hmem]
  simp only [tally, huuids, hreasons]

theorem tally_eraseDups (hits : List (String × Reason)) : tally hits.eraseDups = tally hits := by
  induction hits using List.reverseRecOn with
  | nil => rfl
  | append_singleton hits hit ih =>
    obtain ⟨u, r⟩ := hit
    by_cases h : (u, r) ∈ hits
    · rw [eraseDups_concat_of_mem h, tally_concat_of_mem h, ih]
    · rw [eraseDups_concat h, ← hit_tally, ih, hit_tally]

theorem reasonsFor_ne_nil_iff : reasonsFor hits u ≠ [] ↔ ∃ r, (u, r) ∈ hits := by
  constructor
  · intro h
    obtain ⟨r, hr⟩ := List.exists_mem_of_ne_nil _ h
    exact ⟨r, mem_reasonsFor.mp hr⟩
  · rintro ⟨r, hr⟩
    exact List.ne_nil_of_mem (mem_reasonsFor.mpr hr)

theorem mem_uuids_tally : u ∈ (tally hits).map (·.uuid) ↔ ∃ r, (u, r) ∈ hits := by
  rw [uuids_tally, List.mem_eraseDups]
  simp

theorem reasons?_tally (token : String) (hits : List (String × Reason)) (u : String) :
    reasons? ⟨token, tally hits⟩ u = if u ∈ hits.map (·.1) then some (reasonsFor hits u) else none := by
  have hfind (us : List String) : (us.map fun v => (⟨v, reasonsFor hits v⟩ : Candidate)).find? (·.uuid == u) =
      if u ∈ us then some ⟨u, reasonsFor hits u⟩ else none := by
    induction us with
    | nil => rfl
    | cons v us ih =>
      by_cases hv : v = u
      · simp [hv]
      · simp [hv, Ne.symm hv, ih]
  simp only [reasons?, tally, hfind, List.mem_eraseDups]
  split <;> rfl

def addAll (m : Match) (adds : List (String × Option Reason)) : Match :=
  adds.foldl (fun m a => m.add a.1 a.2) m

def recorded (adds : List (String × Option Reason)) : List (String × Reason) :=
  adds.filterMap fun a => a.2.map (a.1, ·)

theorem mem_recorded : (u, r) ∈ recorded adds ↔ (u, some r) ∈ adds := by
  simp [recorded]

theorem addAll_tally (token : String) (hits : List (String × Reason)) (adds : List (String × Option Reason)) :
    addAll ⟨token, tally hits⟩ adds = ⟨token, tally (hits ++ recorded adds)⟩ := by
  induction adds generalizing hits with
  | nil => simp [addAll, recorded]
  | cons a adds ih =>
    change addAll (add ⟨token, tally hits⟩ a.1 a.2) adds = _
    rw [add_tally, ih, List.append_assoc]
    cases h : a.2 <;> simp [recorded, h]

theorem addAll_start (token : String) (adds : List (String × Option Reason)) :
    (start token).addAll adds = ⟨token, tally (recorded adds)⟩ :=
  addAll_tally token [] adds

theorem add_of_mem (h : a ∈ adds) : ((start token).addAll adds).add a.1 a.2 = (start token).addAll adds := by
  obtain ⟨u, reason⟩ := a
  rw [addAll_start, add_tally]
  cases reason with
  | none => simp
  | some r => exact congrArg _ (tally_concat_of_mem (mem_recorded.mpr h))

theorem addAll_congr (h : (recorded others).eraseDups = (recorded adds).eraseDups) :
    (start token).addAll others = (start token).addAll adds := by
  rw [addAll_start, addAll_start, ← tally_eraseDups, h, tally_eraseDups]

/-- However identifiers are added, each that was hit is one candidate, in the order of the first hits, with exactly
the reasons of its hits. An addition without a reason and one that was made before change nothing, so that nothing
but the hits, repetitions left out, counts. -/
theorem additions_count_once (token : String) (adds : List (String × Option Reason)) :
    let hits := recorded adds
    let m := (start token).addAll adds
    (m.token = token ∧ m.uuids.Nodup ∧
      (m.uuids.Pairwise fun u v => (hits.map (·.1)).idxOf u < (hits.map (·.1)).idxOf v) ∧
      ∀ u, u ∈ m.uuids ↔ ∃ r, (u, r) ∈ hits) ∧
    (∀ c ∈ m.candidates, m.reasons? c.uuid = some c.reasons ∧ c.reasons ≠ [] ∧ c.reasons.Sublist Reason.all ∧
      ∀ r, r ∈ c.reasons ↔ (c.uuid, r) ∈ hits) ∧
    (∀ u, m.reasons? u = none ↔ u ∉ m.uuids) ∧
    (∀ u, m.add u none = m) ∧ (∀ a ∈ adds, m.add a.1 a.2 = m) ∧
    ∀ others, (recorded others).eraseDups = hits.eraseDups → (start token).addAll others = m := by
  intro hits m
  have hm : m = ⟨token, tally hits⟩ := addAll_start token adds
  have huuids : m.uuids = (hits.map (·.1)).eraseDups := by rw [uuids, hm, uuids_tally]
  have hhit (u : String) : u ∈ m.uuids ↔ ∃ r, (u, r) ∈ hits := by
    rw [uuids, hm]
    exact mem_uuids_tally
  refine ⟨⟨by rw [hm], ?_, ?_, hhit⟩, ?_, ?_, fun u => rfl, fun a => add_of_mem, fun others => addAll_congr⟩
  · rw [huuids]
    exact nodup_eraseDups _
  · rw [huuids]
    exact pairwise_eraseDups _
  · intro c hc
    have hreasons : c.reasons = reasonsFor hits c.uuid := by
      rw [hm] at hc
      exact reasons_of_mem_tally hc
    have hmem := (hhit c.uuid).mp (List.mem_map_of_mem hc)
    have hfirst : c.uuid ∈ hits.map (·.1) := by simpa using hmem
    rw [hreasons, hm, reasons?_tally, if_pos hfirst]
    exact ⟨rfl, reasonsFor_ne_nil_iff.mpr hmem, List.filter_sublist, fun r => mem_reasonsFor⟩
  · intro u
    rw [hm, reasons?_tally, uuids, uuids_tally, List.mem_eraseDups]
    simp

def doubled : List (String × Option Reason) :=
  [("b", some .exactName), ("a", none), ("a", some .exactName), ("b", some .exactUuid), ("b", some .exactName)]

theorem doubled_counts_once :
    let m := (start "b").addAll doubled
    m.candidates = [⟨"b", [.exactUuid, .exactName]⟩, ⟨"a", [.exactName]⟩] ∧
      ("b", some .exactName) ∈ doubled ∧ m.add "b" (some .exactName) = m ∧
      m.reasons? "b" = some [.exactUuid, .exactName] ∧
      (start "b").addAll [("b", some .exactName), ("a", some .exactName), ("b", some .exactUuid)] = m := by
  intro m
  have hm : m.candidates = [⟨"b", [.exactUuid, .exactName]⟩, ⟨"a", [.exactName]⟩] := by decide
  have hmem : ("b", some .exactName) ∈ doubled := by decide
  have hsame : (recorded [("b", some .exactName), ("a", some .exactName), ("b", some .exactUuid)]).eraseDups =
      (recorded doubled).eraseDups := by decide
  obtain ⟨_, hcandidates, _, _, hagain, hothers⟩ := additions_count_once "b" doubled
  have hfirst : ⟨"b", [.exactUuid, .exactName]⟩ ∈ m.candidates := hm ▸ List.mem_cons_self
  exact ⟨hm, hmem, hagain _ hmem, (hcandidates _ hfirst).1, hothers _ hsame⟩

end FleetControl.Match
