import Mathlib.Data.List.Forall2
import FleetControl.Catalog

namespace FleetControl.Catalog

variable {cloud : Cloud} {c : Catalog} {kind : Kind} {token uuid : String} {tokens uuids : List String}

theorem mapM_ok_iff {ε α β : Type} {g : α → Except ε β} {as : List α} {bs : List β} :
    as.mapM g = .ok bs ↔ List.Forall₂ (fun a b => g a = .ok b) as bs := by
  induction as generalizing bs with
  | nil =>
    rw [List.mapM_nil, List.forall₂_nil_left_iff]
    exact ⟨fun h => (Except.ok.inj h).symm, fun h => by rw [h]; rfl⟩
  | cons a as ih =>
    rw [List.mapM_cons, List.forall₂_cons_left_iff]
    constructor
    · intro h
      cases ha : g a with
      | error e => simp [ha, bind, Except.bind] at h
      | ok b =>
        cases has : as.mapM g with
        | error e => simp [ha, has, bind, Except.bind] at h
        | ok rest =>
          simp only [ha, has, bind, Except.bind, pure, Except.pure, Except.ok.injEq] at h
          exact ⟨b, rest, rfl, ih.mp has, h.symm⟩
    · rintro ⟨b, rest, ha, hrest, rfl⟩
      simp [ha, ih.mpr hrest, bind, Except.bind, pure, Except.pure]

theorem resolve_fst : (c.resolve cloud kind tokens).1 = (c.ensure cloud kind).1 := rfl

theorem resolveOne_ok_iff :
    (c.resolveOne cloud kind token).2 = .ok uuid ↔
      (∃ records, (c.ensure cloud kind).2 = .ok records) ∧
        ((c.ensure cloud kind).1.shelf kind).resolve token = .ok uuid := by
  cases h : (c.ensure cloud kind).2 <;> simp [resolveOne, h, Except.bind]

theorem resolve_ok_iff (hne : tokens ≠ []) :
    (c.resolve cloud kind tokens).2 = .ok uuids ↔
      List.Forall₂ (fun token uuid => (c.resolveOne cloud kind token).2 = .ok uuid) tokens uuids := by
  have hbind : (c.resolve cloud kind tokens).2 = .ok uuids ↔
      (∃ records, (c.ensure cloud kind).2 = .ok records) ∧
        tokens.mapM ((c.ensure cloud kind).1.shelf kind).resolve = .ok uuids := by
    cases h : (c.ensure cloud kind).2 <;> simp [resolve, h, Except.bind]
  rw [hbind, mapM_ok_iff]
  constructor
  · rintro ⟨hlisted, hall⟩
    exact hall.imp fun _ _ h => resolveOne_ok_iff.mpr ⟨hlisted, h⟩
  · intro hall
    refine ⟨?_, hall.imp fun _ _ h => (resolveOne_ok_iff.mp h).2⟩
    cases hall with
    | nil => exact absurd rfl hne
    | cons h _ => exact (resolveOne_ok_iff.mp h).1

theorem resolve_isOk_iff (hne : tokens ≠ []) :
    (∃ uuids, (c.resolve cloud kind tokens).2 = .ok uuids) ↔
      ∀ token ∈ tokens, ∃ uuid, (c.resolveOne cloud kind token).2 = .ok uuid := by
  constructor
  · rintro ⟨uuids, h⟩ token ht
    rw [resolve_ok_iff hne] at h
    obtain ⟨i, hi, rfl⟩ := List.mem_iff_getElem.mp ht
    have hj : i < uuids.length := h.length_eq ▸ hi
    exact ⟨uuids[i], h.get hi hj⟩
  · intro h
    choose! uuidOf huuid using h
    refine ⟨tokens.map uuidOf, (resolve_ok_iff hne).mpr ?_⟩
    rw [List.forall₂_map_right_iff, List.forall₂_same]
    exact huuid

end FleetControl.Catalog
