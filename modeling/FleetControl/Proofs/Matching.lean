import Mathlib.Data.List.Induction
import FleetControl.Proofs.Tally

namespace FleetControl

variable {token name uuid u : String} {reason : Reason} {r : Record} {records : List Record}

theorem matchUuid_eq_some_iff :
    matchUuid token uuid = some reason ↔ (uuid ≠ "" ∧ token = uuid) ∧ reason = .exactUuid := by
  fun_cases matchUuid token uuid with
  | case1 h => simp [h, eq_comm]
  | case2 h => simp [h]

theorem matchName_eq_some_iff :
    matchName token name = some reason ↔ (name ≠ "" ∧ Text.trim token ≠ "") ∧
      (reason = .exactName ∧ Text.trim token = name ∨
        reason = .caseInsensitiveName ∧ Text.trim token ≠ name ∧
          Text.lower (Text.trim token) = Text.lower name) := by
  have hyes (h : ¬ (Text.trim token = "" ∨ name = "")) : name ≠ "" ∧ Text.trim token ≠ "" :=
    ⟨fun hn => h (.inr hn), fun ht => h (.inl ht)⟩
  fun_cases matchName token name with
  | case1 _ h =>
    have hno : ¬ (name ≠ "" ∧ Text.trim token ≠ "") := fun ⟨hn, ht⟩ => h.elim ht hn
    simp only [reduceCtorEq, hno, false_and]
  | case2 _ h heq => simp [hyes h, show Text.trim token = name from heq, eq_comm]
  | case3 _ h hne hlower =>
    simp [hyes h, show Text.trim token ≠ name from hne,
      show Text.lower (Text.trim token) = Text.lower name from hlower, eq_comm]
  | case4 _ h hne hlower =>
    simp [hyes h, show Text.trim token ≠ name from hne,
      show Text.lower (Text.trim token) ≠ Text.lower name from hlower]

theorem matchName_isSome_iff :
    (matchName token name).isSome ↔
      (name ≠ "" ∧ Text.trim token ≠ "") ∧ Text.lower (Text.trim token) = Text.lower name := by
  simp only [Option.isSome_iff_exists, matchName_eq_some_iff]
  constructor
  · rintro ⟨reason, hfilled, ⟨_, rfl⟩ | ⟨_, _, hlower⟩⟩
    · exact ⟨hfilled, rfl⟩
    · exact ⟨hfilled, hlower⟩
  · rintro ⟨hfilled, hlower⟩
    by_cases heq : Text.trim token = name
    · exact ⟨_, hfilled, .inl ⟨rfl, heq⟩⟩
    · exact ⟨_, hfilled, .inr ⟨rfl, heq, hlower⟩⟩

namespace Record

def Matches (token : String) (r : Record) : Prop :=
  (r.uuid ≠ "" ∧ token = r.uuid) ∨
    ∃ name ∈ r.names, name ≠ "" ∧ Text.trim token ≠ "" ∧
      (Text.trim token = name ∨ Text.lower (Text.trim token) = Text.lower name)

instance (token : String) : DecidablePred (Matches token) := fun r =>
  inferInstanceAs (Decidable (_ ∨ ∃ name ∈ r.names, _))

inductive MatchesBy (token : String) (r : Record) : Reason → Prop
  | exactUuid : r.uuid ≠ "" → token = r.uuid → MatchesBy token r .exactUuid
  | exactName {name : String} : name ∈ r.names → name ≠ "" → Text.trim token = name →
    MatchesBy token r .exactName
  | caseInsensitiveName {name : String} : name ∈ r.names → name ≠ "" → Text.trim token ≠ "" →
    Text.trim token ≠ name → Text.lower (Text.trim token) = Text.lower name →
    MatchesBy token r .caseInsensitiveName

def hits (token : String) (r : Record) : List (String × Reason) :=
  ((matchUuid token r.uuid).toList ++ r.names.filterMap (matchName token)).map (r.uuid, ·)

theorem matchesBy_iff :
    r.MatchesBy token reason ↔
      matchUuid token r.uuid = some reason ∨ ∃ name ∈ r.names, matchName token name = some reason := by
  simp only [matchUuid_eq_some_iff, matchName_eq_some_iff]
  constructor
  · intro h
    cases h with
    | exactUuid hu ht => exact .inl ⟨⟨hu, ht⟩, rfl⟩
    | exactName hmem hn ht => exact .inr ⟨_, hmem, ⟨hn, ht ▸ hn⟩, .inl ⟨rfl, ht⟩⟩
    | caseInsensitiveName hmem hn ht hne hl => exact .inr ⟨_, hmem, ⟨hn, ht⟩, .inr ⟨rfl, hne, hl⟩⟩
  · rintro (⟨⟨hu, ht⟩, rfl⟩ | ⟨name, hmem, ⟨hn, ht⟩, ⟨rfl, heq⟩ | ⟨rfl, hne, hl⟩⟩)
    · exact .exactUuid hu ht
    · exact .exactName hmem hn heq
    · exact .caseInsensitiveName hmem hn ht hne hl

theorem mem_hits : (u, reason) ∈ r.hits token ↔ r.uuid = u ∧ r.MatchesBy token reason := by
  rw [matchesBy_iff, hits, List.mem_map]
  constructor
  · rintro ⟨x, hx, heq⟩
    obtain ⟨rfl, rfl⟩ := Prod.mk.inj heq
    exact ⟨rfl, by simpa using hx⟩
  · rintro ⟨rfl, h⟩
    exact ⟨reason, by simpa using h, rfl⟩

theorem matches_iff : r.Matches token ↔ ∃ reason, r.MatchesBy token reason := by
  constructor
  · rintro (⟨hu, ht⟩ | ⟨name, hmem, hn, ht, h⟩)
    · exact ⟨_, .exactUuid hu ht⟩
    · by_cases heq : Text.trim token = name
      · exact ⟨_, .exactName hmem hn heq⟩
      · exact ⟨_, .caseInsensitiveName hmem hn ht heq (h.resolve_left heq)⟩
  · rintro ⟨reason, h⟩
    cases h with
    | exactUuid hu ht => exact .inl ⟨hu, ht⟩
    | exactName hmem hn heq => exact .inr ⟨_, hmem, hn, heq ▸ hn, .inl heq⟩
    | caseInsensitiveName hmem hn ht _ hl => exact .inr ⟨_, hmem, hn, ht, .inr hl⟩

theorem hits_ne_nil_iff : r.hits token ≠ [] ↔ r.Matches token := by
  rw [matches_iff]
  constructor
  · intro h
    obtain ⟨hit, hmem⟩ := List.exists_mem_of_ne_nil _ h
    exact ⟨hit.2, (mem_hits.mp hmem).2⟩
  · rintro ⟨reason, h⟩
    exact List.ne_nil_of_mem (mem_hits.mpr ⟨rfl, h⟩)

end Record

namespace Match

variable {m : Match}

theorem foldl_names (token uuid : String) (hits : List (String × Reason)) (names : List String) :
    names.foldl (fun (m : Match) name => m.add uuid (matchName m.token name)) ⟨token, tally hits⟩ =
      ⟨token, tally (hits ++ (names.filterMap (matchName token)).map (uuid, ·))⟩ := by
  induction names generalizing hits with
  | nil => simp
  | cons name names ih =>
    rw [List.foldl_cons, add_tally, ih, List.append_assoc]
    cases h : matchName token name <;> simp [h]

theorem addRecord_tally (token : String) (hits : List (String × Reason)) (r : Record) :
    addRecord ⟨token, tally hits⟩ r = ⟨token, tally (hits ++ r.hits token)⟩ := by
  rw [addRecord, add_tally, foldl_names, Record.hits, List.map_append, List.append_assoc]
  cases matchUuid token r.uuid <;> rfl

theorem ofRecords_eq_tally (token : String) (records : List Record) :
    ofRecords token records = ⟨token, tally (records.flatMap (Record.hits token))⟩ := by
  have hfold (hits : List (String × Reason)) : records.foldl addRecord ⟨token, tally hits⟩ =
      ⟨token, tally (hits ++ records.flatMap (Record.hits token))⟩ := by
    induction records generalizing hits with
    | nil => simp
    | cons r records ih => rw [List.foldl_cons, addRecord_tally, ih, List.flatMap_cons, List.append_assoc]
  exact hfold []

theorem token_ofRecords (token : String) (records : List Record) : (ofRecords token records).token = token := by
  rw [ofRecords_eq_tally]

theorem uuids_ofRecords (token : String) (records : List Record) :
    (ofRecords token records).uuids = ((records.filter (Record.Matches token)).map (·.uuid)).eraseDups := by
  rw [ofRecords_eq_tally, uuids, uuids_tally]
  -- From the end of the listing: what a record adds depends on the records before it.
  induction records using List.reverseRecOn with
  | nil => rfl
  | append_singleton records r ih =>
    rw [List.flatMap_append, List.map_append, List.filter_append, List.map_append,
      eraseDups_append_congr ih, List.flatMap_singleton]
    by_cases hr : r.Matches token
    · have hne : (r.hits token).map (·.1) ≠ [] := by simpa using Record.hits_ne_nil_iff.mpr hr
      have hall : ∀ u ∈ (r.hits token).map (·.1), u = r.uuid := by
        rintro u hu
        obtain ⟨hit, hmem, rfl⟩ := List.mem_map.mp hu
        exact (Record.mem_hits.mp hmem).1.symm
      rw [eraseDups_append_same hne hall, List.filter_singleton, decide_eq_true hr]
      rfl
    · have hnil : r.hits token = [] := by simpa using Record.hits_ne_nil_iff.not.mpr hr
      rw [hnil, List.filter_singleton, decide_eq_false hr]
      rfl

theorem nodup_uuids (token : String) (records : List Record) : (ofRecords token records).uuids.Nodup :=
  uuids_ofRecords token records ▸ nodup_eraseDups _

theorem mem_uuids_iff :
    u ∈ (ofRecords token records).uuids ↔ ∃ r ∈ records, r.Matches token ∧ r.uuid = u := by
  simp [uuids_ofRecords, and_assoc]

theorem mem_reasons_iff {c : Candidate} (h : c ∈ (ofRecords token records).candidates) :
    reason ∈ c.reasons ↔ ∃ r ∈ records, r.uuid = c.uuid ∧ r.MatchesBy token reason := by
  rw [ofRecords_eq_tally] at h
  rw [reasons_of_mem_tally h, mem_reasonsFor, List.mem_flatMap]
  simp only [Record.mem_hits]

inductive Answers (token : String) : List String → Except ResolveError String → Prop
  | notFound : Answers token [] (.error (.notFound token))
  | resolved (u : String) : Answers token [u] (.ok u)
  | ambiguous {us : List String} : 2 ≤ us.length → Answers token us (.error (.ambiguous token us))

theorem answers_only (m : Match) : Answers m.token m.uuids m.only := by
  obtain ⟨token, candidates⟩ := m
  match candidates with
  | [] => exact .notFound
  | [c] => exact .resolved c.uuid
  | c :: d :: rest => exact .ambiguous (by simp [uuids])

theorem only_ok_iff : m.only = .ok u ↔ m.uuids = [u] := by
  have h := answers_only m
  generalize m.uuids = us, m.only = answer at h ⊢
  cases h with
  | notFound => simp
  | resolved v => simp
  | ambiguous hlength =>
    have hne : us ≠ [u] := by rintro rfl; simp at hlength
    simp [hne]

theorem only_notFound_iff : m.only = .error (.notFound token) ↔ token = m.token ∧ m.uuids = [] := by
  have h := answers_only m
  generalize m.uuids = us, m.only = answer at h ⊢
  cases h with
  | notFound => simp [eq_comm]
  | resolved v => simp
  | ambiguous hlength =>
    have hne : us ≠ [] := by rintro rfl; simp at hlength
    simp [hne]

theorem only_ambiguous_iff {us : List String} :
    m.only = .error (.ambiguous token us) ↔ token = m.token ∧ us = m.uuids ∧ 2 ≤ us.length := by
  have h := answers_only m
  generalize m.uuids = vs, m.only = answer at h ⊢
  cases h with
  | notFound => simp +contextual
  | resolved v => simp +contextual
  | ambiguous hlength =>
    constructor
    · intro heq
      cases heq
      exact ⟨rfl, rfl, hlength⟩
    · rintro ⟨rfl, rfl, _⟩
      rfl

theorem answers_ofRecords (token : String) (records : List Record) :
    Answers token (ofRecords token records).uuids (ofRecords token records).only := by
  have h := answers_only (ofRecords token records)
  rwa [token_ofRecords] at h

theorem resolved_iff :
    (ofRecords token records).only = .ok u ↔
      (∃ r ∈ records, r.Matches token) ∧ ∀ r ∈ records, r.Matches token → r.uuid = u := by
  rw [only_ok_iff]
  constructor
  · intro honly
    have hmem (v : String) : (∃ r ∈ records, r.Matches token ∧ r.uuid = v) ↔ v = u := by
      rw [← mem_uuids_iff, honly, List.mem_singleton]
    obtain ⟨r, hr, hmatches, _⟩ := (hmem u).mpr rfl
    exact ⟨⟨r, hr, hmatches⟩, fun s hs hs' => (hmem s.uuid).mp ⟨s, hs, hs', rfl⟩⟩
  · rintro ⟨⟨r, hr, hmatches⟩, hall⟩
    apply List.perm_singleton.mp
    apply (List.perm_ext_iff_of_nodup (nodup_uuids token records) (List.nodup_singleton u)).mpr
    intro v
    rw [mem_uuids_iff, List.mem_singleton]
    constructor
    · rintro ⟨s, hs, hs', rfl⟩
      exact hall s hs hs'
    · rintro rfl
      exact ⟨r, hr, hmatches, hall r hr hmatches⟩

theorem contested {s : Record} (hr : r ∈ records) (hs : s ∈ records) (hr' : r.Matches token)
    (hs' : s.Matches token) (hne : r.uuid ≠ s.uuid) :
    (ofRecords token records).only = .error (.ambiguous token (ofRecords token records).uuids) := by
  have hu := mem_uuids_iff.mpr ⟨r, hr, hr', rfl⟩
  have hv := mem_uuids_iff.mpr ⟨s, hs, hs', rfl⟩
  have h := answers_ofRecords token records
  generalize (ofRecords token records).uuids = us, (ofRecords token records).only = answer at hu hv h ⊢
  cases h with
  | notFound => contradiction
  | resolved w => exact absurd ((List.mem_singleton.mp hu).trans (List.mem_singleton.mp hv).symm) hne
  | ambiguous => rfl

/-- The candidates of a token are the uuids of the records that it matches, in the order of the first
such record of each, with all the reasons for which one of them is matched. A token without candidates is
not found, one with several is ambiguous, and only one with a single candidate is resolved. -/
theorem candidates_are_matching_records (token : String) (records : List Record) :
    (ofRecords token records).uuids = ((records.filter (Record.Matches token)).map (·.uuid)).eraseDups ∧
    (∀ c ∈ (ofRecords token records).candidates, c.reasons.Sublist Reason.all ∧
      ∀ reason, reason ∈ c.reasons ↔ ∃ r ∈ records, r.uuid = c.uuid ∧ r.MatchesBy token reason) ∧
    (∀ u, (ofRecords token records).only = .ok u ↔ (ofRecords token records).uuids = [u]) ∧
    (∀ t, (ofRecords token records).only = .error (.notFound t) ↔
      t = token ∧ (ofRecords token records).uuids = []) ∧
    ∀ t us, (ofRecords token records).only = .error (.ambiguous t us) ↔
      t = token ∧ us = (ofRecords token records).uuids ∧ 2 ≤ us.length := by
  have htoken := token_ofRecords token records
  refine ⟨uuids_ofRecords token records, ?_, fun u => only_ok_iff, fun t => ?_, fun t us => ?_⟩
  · intro c hc
    refine ⟨?_, fun reason => mem_reasons_iff hc⟩
    rw [ofRecords_eq_tally] at hc
    rw [reasons_of_mem_tally hc]
    exact List.filter_sublist
  · rw [only_notFound_iff, htoken]
  · rw [only_ambiguous_iff, htoken]

def namesakes : List Record := [
  .server { uuid := "a", title := "b", hostname := "B", state := "", zone := "", plan := "" },
  .router { uuid := "c", name := "b ", type := "", networks := [] },
  .server { uuid := "b", title := "", hostname := " b", state := "", zone := "", plan := "" },
  .server { uuid := "a", title := "", hostname := "b", state := "", zone := "", plan := "" }]

theorem namesakes_are_candidates :
    ⟨"a", [.exactName, .caseInsensitiveName]⟩ ∈ (ofRecords "b" namesakes).candidates ∧
      (∃ r ∈ namesakes, r.uuid = "a" ∧ r.MatchesBy "b" .caseInsensitiveName) ∧
      (ofRecords "b" namesakes).only = .error (.ambiguous "b" ["a", "b"]) := by
  have hcandidates : (ofRecords "b" namesakes).candidates =
      [⟨"a", [.exactName, .caseInsensitiveName]⟩, ⟨"b", [.exactUuid]⟩] := by decide +kernel
  obtain ⟨_, hreasons, _, _, hambiguous⟩ := candidates_are_matching_records "b" namesakes
  have hmem : ⟨"a", [.exactName, .caseInsensitiveName]⟩ ∈ (ofRecords "b" namesakes).candidates := by
    rw [hcandidates]
    exact List.mem_cons_self
  have hreason := ((hreasons _ hmem).2 .caseInsensitiveName).mp (by decide)
  have huuids : ["a", "b"] = (ofRecords "b" namesakes).uuids := by
    rw [uuids, hcandidates]
    rfl
  exact ⟨hmem, hreason, (hambiguous _ _).mpr ⟨rfl, huuids, Nat.le_refl 2⟩⟩

end Match
end FleetControl
