import Mathlib.Data.List.Perm.Subperm
import FleetControl.Catalog
import FleetControl.Proofs.Matching

namespace FleetControl

namespace Match

inductive Reordered (token : String) : Except ResolveError String → Except ResolveError String → Prop
  | resolved (u : String) : Reordered token (.ok u) (.ok u)
  | notFound : Reordered token (.error (.notFound token)) (.error (.notFound token))
  | ambiguous {us vs : List String} : us.Perm vs →
    Reordered token (.error (.ambiguous token us)) (.error (.ambiguous token vs))

inductive Extended (token : String) : Except ResolveError String → Except ResolveError String → Prop
  | resolved (u : String) : Extended token (.ok u) (.ok u)
  | contested {u : String} {vs : List String} : u ∈ vs →
    Extended token (.ok u) (.error (.ambiguous token vs))
  | ambiguous {us vs : List String} : us ⊆ vs →
    Extended token (.error (.ambiguous token us)) (.error (.ambiguous token vs))
  | notFound (answer : Except ResolveError String) : Extended token (.error (.notFound token)) answer

variable {token : String} {us vs : List String} {a b : Except ResolveError String}
  {records others : List Record}

theorem Answers.reordered (ha : Answers token us a) (hb : Answers token vs b) (h : us.Perm vs) :
    Reordered token a b := by
  have hlength := h.length_eq
  cases ha with
  | notFound =>
    obtain rfl := List.nil_perm.mp h
    cases hb with
    | notFound => exact .notFound
    | ambiguous htwo => contradiction
  | resolved u =>
    obtain rfl := List.singleton_perm.mp h
    cases hb with
    | resolved => exact .resolved u
    | ambiguous htwo => simp at htwo
  | ambiguous htwo =>
    cases hb with
    | notFound => simp [hlength] at htwo
    | resolved v => simp [hlength] at htwo
    | ambiguous => exact .ambiguous h

theorem Answers.extended (ha : Answers token us a) (hb : Answers token vs b) (hnodup : us.Nodup)
    (h : us ⊆ vs) : Extended token a b := by
  have hlength := (List.Nodup.subperm hnodup h).length_le
  cases ha with
  | notFound => exact .notFound b
  | resolved u =>
    have hu : u ∈ vs := h List.mem_cons_self
    cases hb with
    | notFound => contradiction
    | resolved v =>
      obtain rfl := List.mem_singleton.mp hu
      exact .resolved u
    | ambiguous => exact .contested hu
  | ambiguous htwo =>
    cases hb with
    | notFound => simp only [List.length_nil] at hlength; omega
    | resolved v => simp only [List.length_singleton] at hlength; omega
    | ambiguous => exact .ambiguous h

theorem uuids_subset (token : String) (h : records ⊆ others) :
    (ofRecords token records).uuids ⊆ (ofRecords token others).uuids := by
  intro u hu
  obtain ⟨r, hr, hmatches⟩ := mem_uuids_iff.mp hu
  exact mem_uuids_iff.mpr ⟨r, h hr, hmatches⟩

theorem uuids_perm (token : String) (h : records.Perm others) :
    (ofRecords token records).uuids.Perm (ofRecords token others).uuids := by
  apply (List.perm_ext_iff_of_nodup (nodup_uuids token records) (nodup_uuids token others)).mpr
  intro u
  exact ⟨fun hu => uuids_subset token h.subset hu, fun hu => uuids_subset token h.symm.subset hu⟩

end Match

namespace Shelf

/-- `more` has all the records of a listing, wherever in it the further ones stand. -/
theorem resolution_survives_relisting (kind : Kind) (token : String) {records reordered more : List Record}
    (hreordered : records.Perm reordered) (hmore : records ⊆ more) :
    Match.Reordered token (resolve ⟨kind, some records⟩ token) (resolve ⟨kind, some reordered⟩ token) ∧
      Match.Extended token (resolve ⟨kind, some records⟩ token) (resolve ⟨kind, some more⟩ token) := by
  have hanswers := Match.answers_ofRecords token records
  constructor
  · exact hanswers.reordered (Match.answers_ofRecords token reordered) (Match.uuids_perm token hreordered)
  · exact hanswers.extended (Match.answers_ofRecords token more) (Match.nodup_uuids token records)
      (Match.uuids_subset token hmore)

def disk (uuid title : String) : Record :=
  .storage { uuid, title, state := "", access := "", type := "", zone := "", size := 0, tier := "" }

def disks : List Record := [disk "1" "Backup", disk "2" "Archive"]

theorem disks_relisted :
    disks.Perm disks.reverse ∧ disks ⊆ disk "3" "BACKUP" :: disks ∧
      resolve ⟨.storage, some disks⟩ "backup" = .ok "1" ∧
      resolve ⟨.storage, some (disk "3" "BACKUP" :: disks)⟩ "backup" =
        .error (.ambiguous "backup" ["3", "1"]) ∧
      Match.Reordered "backup" (.ok "1") (resolve ⟨.storage, some disks.reverse⟩ "backup") ∧
      Match.Extended "backup" (.ok "1") (.error (.ambiguous "backup" ["3", "1"])) := by
  have hperm : disks.Perm disks.reverse := (List.reverse_perm disks).symm
  have hmore : disks ⊆ disk "3" "BACKUP" :: disks := List.subset_cons_self _ _
  have hone : resolve ⟨.storage, some disks⟩ "backup" = .ok "1" := by decide +kernel
  have htwo : resolve ⟨.storage, some (disk "3" "BACKUP" :: disks)⟩ "backup" =
      .error (.ambiguous "backup" ["3", "1"]) := by decide +kernel
  have h := resolution_survives_relisting .storage "backup" hperm hmore
  rw [hone, htwo] at h
  exact ⟨hperm, hmore, hone, htwo, h⟩

end Shelf
end FleetControl
