import Mathlib.Data.List.Nodup
import FleetControl.Match

/-!
What a match has counted up. However often an identifier was hit it is one candidate, in the place of its
first hit, and its reasons are those of all its hits.
-/
namespace FleetControl.Match

section Duplicates

variable {α : Type} [BEq α] [LawfulBEq α] {as bs cs : List α} {a : α}

theorem nodup_eraseDups (as : List α) : as.eraseDups.Nodup := by
  cases as with
  | nil => exact .nil
  | cons a as =>
    rw [List.eraseDups_cons, List.nodup_cons]
    constructor
    · simp
    · exact nodup_eraseDups (as.filter fun b => !b == a)
termination_by as.length
decreasing_by
  have h := List.length_filter_le (fun b => !b == a) as
  simp only [List.length_cons]
  omega

theorem eraseDups_of_nodup (h : as.Nodup) : as.eraseDups = as := by
  induction as with
  | nil => rfl
  | cons a as ih =>
    obtain ⟨ha, has⟩ := List.nodup_cons.mp h
    have hothers : (as.filter fun b => !b == a) = as := by
      rw [List.filter_eq_self]
      intro b hb
      simpa using ne_of_mem_of_not_mem hb ha
    rw [List.eraseDups_cons, hothers, ih has]

theorem eraseDups_append_of_forall_mem (h : ∀ b ∈ bs, b ∈ as) : (as ++ bs).eraseDups = as.eraseDups := by
  have hnone : bs.removeAll as = [] := by
    simp only [List.removeAll, List.filter_eq_nil_iff]
    intro b hb
    simp [h b hb]
  rw [List.eraseDups_append, hnone, List.eraseDups_nil, List.append_nil]

theorem eraseDups_concat (h : a ∉ as) : (as ++ [a]).eraseDups = as.eraseDups ++ [a] := by
  have hone : [a].removeAll as = [a] := by simp [List.removeAll, h]
  rw [List.eraseDups_append, hone]
  rfl

theorem eraseDups_append_same (hne : bs ≠ []) (h : ∀ b ∈ bs, b = a) :
    (as ++ bs).eraseDups = (as ++ [a]).eraseDups := by
  obtain ⟨b, rest, rfl⟩ := List.exists_cons_of_ne_nil hne
  obtain ⟨rfl, hrest⟩ := List.forall_mem_cons.mp h
  have hmem : ∀ c ∈ rest, c ∈ as ++ [b] := by
    intro c hc
    simp [hrest c hc]
  rw [List.append_cons, eraseDups_append_of_forall_mem hmem]

theorem eraseDups_append_congr (h : as.eraseDups = bs.eraseDups) (cs : List α) :
    (as ++ cs).eraseDups = (bs ++ cs).eraseDups := by
  have hmem : ∀ a, a ∈ as ↔ a ∈ bs := by
    intro a
    rw [← List.mem_eraseDups, h, List.mem_eraseDups]
  have hremove : cs.removeAll as = cs.removeAll bs := by
    simp only [List.removeAll, List.elem_eq_mem, hmem]
  rw [List.eraseDups_append, List.eraseDups_append, h, hremove]

end Duplicates

variable {hits : List (String × Reason)} {cs : List Candidate} {c : Candidate} {u : String} {r : Reason}

theorem hit_of_notMem (h : u ∉ cs.map (·.uuid)) : hit u r cs = cs ++ [⟨u, [r]⟩] := by
  induction cs with
  | nil => rfl
  | cons c rest ih =>
    simp only [List.map_cons, List.mem_cons, not_or] at h
    rw [hit, if_neg (Ne.symm h.1), ih h.2]
    rfl

theorem hit_of_mem (hnodup : (cs.map (·.uuid)).Nodup) (h : u ∈ cs.map (·.uuid)) :
    hit u r cs = cs.map fun c => if c.uuid = u then c.add r else c := by
  induction cs with
  | nil => contradiction
  | cons c rest ih =>
    obtain ⟨hfirst, hrest⟩ := List.nodup_cons.mp hnodup
    by_cases hc : c.uuid = u
    · have hothers : ∀ d ∈ rest, (if d.uuid = u then d.add r else d) = id d := by
        intro d hd
        have hne : d.uuid ≠ u := by
          rw [← hc]
          exact ne_of_mem_of_not_mem (List.mem_map_of_mem hd) hfirst
        rw [if_neg hne, id]
      rw [hit, if_pos hc, List.map_cons, if_pos hc, List.map_congr_left hothers, List.map_id]
    · have hu : u ∈ rest.map (·.uuid) := (List.mem_cons.mp h).resolve_left (Ne.symm hc)
      rw [hit, if_neg hc, List.map_cons, if_neg hc, ih hrest hu]

def reasonsFor (hits : List (String × Reason)) (u : String) : List Reason :=
  Reason.all.filter fun r => (u, r) ∈ hits

def tally (hits : List (String × Reason)) : List Candidate :=
  (hits.map (·.1)).eraseDups.map fun u => ⟨u, reasonsFor hits u⟩

theorem mem_reasonsFor : r ∈ reasonsFor hits u ↔ (u, r) ∈ hits := by
  cases r <;> simp [reasonsFor, Reason.all]

theorem uuids_tally (hits : List (String × Reason)) :
    (tally hits).map (·.uuid) = (hits.map (·.1)).eraseDups := by
  rw [tally, List.map_map]
  exact List.map_id _

theorem reasons_of_mem_tally (h : c ∈ tally hits) : c.reasons = reasonsFor hits c.uuid := by
  obtain ⟨u, _, rfl⟩ := List.mem_map.mp h
  rfl

theorem add_reasonsFor (hits : List (String × Reason)) (u : String) (r : Reason) :
    Candidate.add ⟨u, reasonsFor hits u⟩ r = ⟨u, reasonsFor (hits ++ [(u, r)]) u⟩ := by
  rw [Candidate.add, Candidate.mk.injEq]
  refine ⟨rfl, List.filter_congr fun x _ => ?_⟩
  simp [mem_reasonsFor]

theorem reasonsFor_concat_ne {v : String} (h : v ≠ u) (hits : List (String × Reason)) (r : Reason) :
    reasonsFor (hits ++ [(u, r)]) v = reasonsFor hits v := by
  apply List.filter_congr
  intro x _
  simp [h]

theorem reasonsFor_concat_unhit (h : u ∉ hits.map (·.1)) (r : Reason) :
    reasonsFor (hits ++ [(u, r)]) u = [r] := by
  have hnone : ∀ x, (u, x) ∉ hits := fun x hx => h (List.mem_map_of_mem hx)
  cases r <;> simp [reasonsFor, Reason.all, hnone]

theorem hit_tally (hits : List (String × Reason)) (u : String) (r : Reason) :
    hit u r (tally hits) = tally (hits ++ [(u, r)]) := by
  have hone : [(u, r)].map (·.1) = [u] := rfl
  by_cases h : u ∈ hits.map (·.1)
  -- The candidate stands where it stood and has one more reason.
  · have hmem : u ∈ (tally hits).map (·.uuid) := by rwa [uuids_tally, List.mem_eraseDups]
    have hnodup : ((tally hits).map (·.uuid)).Nodup := uuids_tally hits ▸ nodup_eraseDups _
    have hsame : ((hits ++ [(u, r)]).map (·.1)).eraseDups = (hits.map (·.1)).eraseDups := by
      rw [List.map_append, hone]
      exact eraseDups_append_of_forall_mem (by simpa using h)
    rw [hit_of_mem hnodup hmem, tally, tally, hsame, List.map_map]
    apply List.map_congr_left
    intro v _
    by_cases hv : v = u
    · subst hv
      rw [Function.comp_apply, if_pos rfl, add_reasonsFor]
    · rw [Function.comp_apply, if_neg hv, reasonsFor_concat_ne hv]
  -- A candidate with this reason alone comes last.
  · have hnot : u ∉ (tally hits).map (·.uuid) := by rwa [uuids_tally, List.mem_eraseDups]
    have hothers : ∀ v ∈ (hits.map (·.1)).eraseDups,
        (⟨v, reasonsFor (hits ++ [(u, r)]) v⟩ : Candidate) = ⟨v, reasonsFor hits v⟩ := by
      intro v hv
      rw [reasonsFor_concat_ne (ne_of_mem_of_not_mem (List.mem_eraseDups.mp hv) h)]
    rw [hit_of_notMem hnot, tally, tally, List.map_append, hone, eraseDups_concat h, List.map_append,
      List.map_congr_left hothers, List.map_singleton, reasonsFor_concat_unhit h]

theorem add_tally (token : String) (hits : List (String × Reason)) (u : String) (reason : Option Reason) :
    add ⟨token, tally hits⟩ u reason = ⟨token, tally (hits ++ (reason.map (u, ·)).toList)⟩ := by
  cases reason with
  | none => simp [add]
  | some r => simp [add, hit_tally]

end FleetControl.Match
