import FleetControl.Proofs.Casing
import FleetControl.Proofs.Relisting

namespace FleetControl

variable {token name u : String} {r : Record} {records : List Record}

def Record.AnswersTo (token : String) (r : Record) : Prop := ∃ name ∈ r.names, (matchName token name).isSome

instance (token : String) : DecidablePred (Record.AnswersTo token) := fun r =>
  inferInstanceAs (Decidable (∃ name ∈ r.names, _))

theorem Record.matches_iff_answersTo :
    r.Matches token ↔ (r.uuid ≠ "" ∧ token = r.uuid) ∨ r.AnswersTo token := by
  apply or_congr Iff.rfl
  simp only [AnswersTo, matchName_isSome_iff]
  constructor
  · rintro ⟨name, hname, hn, ht, rfl | hlower⟩
    · exact ⟨_, hname, ⟨hn, ht⟩, rfl⟩
    · exact ⟨name, hname, ⟨hn, ht⟩, hlower⟩
  · rintro ⟨name, hname, ⟨hn, ht⟩, hlower⟩
    exact ⟨name, hname, hn, ht, .inr hlower⟩

namespace Shelf

section Distinct

variable (hdistinct : (records.map (·.uuid)).Nodup) (hfilled : ∀ x ∈ records, x.uuid ≠ "") (hr : r ∈ records)

include hdistinct hr in
theorem eq_of_uuid_eq {x : Record} (hx : x ∈ records) (h : x.uuid = r.uuid) : x = r :=
  List.inj_on_of_nodup_map hdistinct hx hr h

include hdistinct hfilled hr

theorem matches_uuid_iff {x : Record} (hx : x ∈ records) :
    x.Matches r.uuid ↔ x = r ∨ x.AnswersTo r.uuid := by
  rw [Record.matches_iff_answersTo]
  apply or_congr _ Iff.rfl
  constructor
  · rintro ⟨_, h⟩
    exact eq_of_uuid_eq hdistinct hr hx h.symm
  · rintro rfl
    exact ⟨hfilled x hx, rfl⟩

theorem uuids_of_uuid : (Match.ofRecords r.uuid records).uuids =
    (records.filter fun x => x = r ∨ x.AnswersTo r.uuid).map (·.uuid) := by
  have hfilter : records.filter (Record.Matches r.uuid) =
      records.filter fun x => x = r ∨ x.AnswersTo r.uuid := by
    apply List.filter_congr
    intro x hx
    exact decide_eq_decide.mpr (matches_uuid_iff hdistinct hfilled hr hx)
  rw [Match.uuids_ofRecords, hfilter]
  exact Match.eraseDups_of_nodup (hdistinct.sublist (List.filter_sublist.map _))

end Distinct

/-- To give the uuid is a way out of an ambiguity unless another record has it for a name. -/
theorem uuid_reaches_unless_borne (kind : Kind) (hdistinct : (records.map (·.uuid)).Nodup)
    (hfilled : ∀ x ∈ records, x.uuid ≠ "") (hr : r ∈ records) :
    (resolve ⟨kind, some records⟩ r.uuid = .ok r.uuid ↔
      ∀ x ∈ records, x ≠ r → ¬ x.AnswersTo r.uuid) ∧
    ((∃ x ∈ records, x ≠ r ∧ x.AnswersTo r.uuid) → resolve ⟨kind, some records⟩ r.uuid =
      .error (.ambiguous r.uuid ((records.filter fun x => x = r ∨ x.AnswersTo r.uuid).map (·.uuid)))) := by
  have hmatches {x : Record} (hx : x ∈ records) := matches_uuid_iff hdistinct hfilled hr hx
  have hsame {x : Record} (hx : x ∈ records) := eq_of_uuid_eq hdistinct hr hx
  have hself : r.Matches r.uuid := (hmatches hr).mpr (.inl rfl)
  constructor
  · rw [resolve, Match.resolved_iff]
    constructor
    · rintro ⟨_, hall⟩ x hx hne hanswers
      exact hne (hsame hx (hall x hx ((hmatches hx).mpr (.inr hanswers))))
    · intro hnone
      refine ⟨⟨r, hr, hself⟩, fun x hx hx' => ?_⟩
      by_contra hne
      have hxr : x ≠ r := fun h => hne (congrArg Record.uuid h)
      exact hnone x hx hxr (((hmatches hx).mp hx').resolve_left hxr)
  · rintro ⟨x, hx, hne, hanswers⟩
    have hcontested := Match.contested hr hx hself ((hmatches hx).mpr (.inr hanswers))
      fun h => hne (hsame hx h.symm)
    rwa [uuids_of_uuid hdistinct hfilled hr] at hcontested

def rack : List Record := [
  .server { uuid := "u1", title := "web", hostname := "", state := "", zone := "", plan := "" },
  .server { uuid := "u2", title := "web", hostname := "U1", state := "", zone := "", plan := "" }]

theorem hostname_contests_uuid :
    (rack.map (·.uuid)).Nodup ∧ (∀ x ∈ rack, x.uuid ≠ "") ∧
      resolve ⟨.server, some rack⟩ "u2" = .ok "u2" ∧
      resolve ⟨.server, some rack⟩ "u1" = .error (.ambiguous "u1" ["u1", "u2"]) := by
  have hdistinct : (rack.map (·.uuid)).Nodup := by decide
  have hfilled : ∀ x ∈ rack, x.uuid ≠ "" := by decide
  have hfirst := uuid_reaches_unless_borne .server hdistinct hfilled (by decide : rack[0] ∈ rack)
  have hsecond := uuid_reaches_unless_borne .server hdistinct hfilled (by decide : rack[1] ∈ rack)
  have hborne : ∃ x ∈ rack, x ≠ rack[0] ∧ x.AnswersTo "u1" := by decide +kernel
  have hcandidates : (rack.filter fun x => x = rack[0] ∨ x.AnswersTo "u1").map (·.uuid) = ["u1", "u2"] := by
    decide +kernel
  have hambiguous := hfirst.2 hborne
  rw [show rack[0].uuid = "u1" from rfl, hcandidates] at hambiguous
  exact ⟨hdistinct, hfilled, hsecond.1.mpr (by decide +kernel), hambiguous⟩

end Shelf

/-- A name that is not blank is matched by every token that differs from it in the case of letters and in
surrounding blanks only, if and only if the name itself has no surrounding blanks. -/
theorem matchName_isSome_iff_trimmed (hname : Text.allBlank name = false)
    (htoken : Text.lower (Text.trim token) = Text.lower (Text.trim name)) :
    ((matchName token name).isSome ↔ Text.trim name = name) ∧
      ∀ records, ∀ r ∈ records, name ∈ r.names → Text.trim name = name →
        r.uuid ∈ (Match.ofRecords token records).uuids := by
  have hn : Text.trim name ≠ "" := by simp [Text.trim_eq_empty_iff, hname]
  have ht : Text.trim token ≠ "" := by rwa [ne_eq, ← Text.lower_eq_empty_iff, htoken, Text.lower_eq_empty_iff]
  have hfilled : name ≠ "" := by
    rintro rfl
    exact hn rfl
  have hiff : (matchName token name).isSome ↔ Text.trim name = name := by
    rw [matchName_isSome_iff, htoken, Text.lower_trim_eq_iff]
    exact and_iff_right ⟨hfilled, ht⟩
  refine ⟨hiff, fun records r hr hmem htrim => ?_⟩
  have hanswers : r.AnswersTo token := ⟨name, hmem, hiff.mpr htrim⟩
  exact Match.mem_uuids_iff.mpr ⟨r, hr, Record.matches_iff_answersTo.mpr (.inr hanswers), rfl⟩

theorem capitals_reach_name :
    Text.allBlank "οδος" = false ∧
      Text.lower (Text.trim " ΟΔΟΣ ") = Text.lower (Text.trim "οδος") ∧
      (matchName " ΟΔΟΣ " "οδος").isSome ∧
      "1" ∈ (Match.ofRecords " ΟΔΟΣ " [Shelf.disk "1" "οδος"]).uuids := by
  have hname : Text.allBlank "οδος" = false := by decide
  have htoken : Text.lower (Text.trim " ΟΔΟΣ ") = Text.lower (Text.trim "οδος") := by decide +kernel
  have htrim : Text.trim "οδος" = "οδος" := by decide
  obtain ⟨hiff, hcandidate⟩ := matchName_isSome_iff_trimmed hname htoken
  refine ⟨hname, htoken, hiff.mpr htrim, ?_⟩
  exact hcandidate [Shelf.disk "1" "οδος"] (Shelf.disk "1" "οδος") List.mem_cons_self (by decide) htrim

theorem padded_name_is_missed :
    Text.allBlank "web " = false ∧ matchName "web " "web " = none ∧ matchName "web" "web " = none ∧
      (Match.ofRecords "web " [Shelf.disk "1" "web "]).only = .error (.notFound "web ") := by
  decide +kernel

end FleetControl
