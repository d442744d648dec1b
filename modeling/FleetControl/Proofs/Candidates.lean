import FleetControl.Proofs.Matching
import FleetControl.Proofs.Resolution

namespace FleetControl

variable {token uuid : String}

theorem Shelf.lookup_isOk_of_resolve {s : Shelf} (h : s.resolve token = .ok uuid) :
    ∃ record, s.lookup uuid = .ok record := by
  unfold resolve at h
  unfold lookup
  cases hcached : s.cached with
  | none => simp [hcached] at h
  | some records =>
    simp only [hcached] at h
    obtain ⟨⟨r, hr, hmatches⟩, hall⟩ := Match.resolved_iff.mp h
    have huuid := hall r hr hmatches
    have hsome : (records.find? fun r => r.uuid == uuid).isSome :=
      List.find?_isSome.mpr ⟨r, hr, by simpa using huuid⟩
    obtain ⟨record, hrecord⟩ := Option.isSome_iff_exists.mp hsome
    exact ⟨record, by simp only [hrecord]⟩

namespace Catalog

variable {cloud : Cloud} {c : Catalog} {kind : Kind} {tokens : List String}

theorem mapM_isOk {ε α β : Type} {g : α → Except ε β} {as : List α} (h : ∀ a ∈ as, ∃ b, g a = .ok b) :
    ∃ bs, as.mapM g = .ok bs := by
  simp only [mapM_ok_iff]
  induction as with
  | nil => exact ⟨[], .nil⟩
  | cons a as ih =>
    obtain ⟨hfirst, hothers⟩ := List.forall_mem_cons.mp h
    obtain ⟨b, hb⟩ := hfirst
    obtain ⟨bs, hbs⟩ := ih hothers
    exact ⟨b :: bs, .cons hb hbs⟩

theorem find_isOk_iff (hne : tokens ≠ []) :
    (∃ found, (c.find cloud kind tokens).2 = .ok found) ↔
      ∀ token ∈ tokens, ∃ uuid, (c.resolveOne cloud kind token).2 = .ok uuid := by
  rw [← resolve_isOk_iff hne]
  cases h : (c.resolve cloud kind tokens).2 with
  | error e => simp [find, h, Except.bind]
  | ok uuids =>
    have hlookup : ∀ uuid ∈ uuids, ∃ record, (c.ensure cloud kind).1.lookup kind uuid = .ok record := by
      intro uuid hmem
      obtain ⟨i, hi, rfl⟩ := List.mem_iff_getElem.mp hmem
      have hall := (resolve_ok_iff hne).mp h
      have hone := resolveOne_ok_iff.mp (hall.get (hall.length_eq ▸ hi) hi)
      exact Shelf.lookup_isOk_of_resolve hone.2
    obtain ⟨found, hfound⟩ := mapM_isOk hlookup
    have hfind : (c.find cloud kind tokens).2 = .ok found := by
      simp only [find, h, Except.bind]
      exact hfound
    simp [hfind]

end Catalog
end FleetControl
