import FleetControl.Catalog

/-!
What can become of the shelves. A kind is listed only while nothing of it is kept, what is kept stays as
it is, and the other kinds are left alone.
-/
namespace FleetControl.Catalog

variable {cloud : Cloud} {c d e : Catalog} {kind k : Kind} {records : List Record} {P Q : Kind → Prop}

def Labelled (c : Catalog) : Prop := ∀ k, (c.shelf k).kind = k

theorem labelled_empty : empty.Labelled := fun _ => rfl

theorem Labelled.shelf_eq (h : c.Labelled) (k : Kind) : c.shelf k = ⟨k, (c.shelf k).cached⟩ :=
  congrArg (Shelf.mk · (c.shelf k).cached) (h k)

def chargeListing (cloud : Cloud) (c : Catalog) (kind : Kind) : Catalog :=
  { c with
    listed := c.listed ++ [kind]
    now := c.now + (cloud.list c.listed.length kind).delay }

theorem shelf_put_self (c : Catalog) (s : Shelf) : (c.put s).shelf s.kind = s := if_pos rfl

theorem shelf_put_ne (c : Catalog) {s : Shelf} (h : k ≠ s.kind) : (c.put s).shelf k = c.shelf k := if_neg h

theorem put_shelf (c : Catalog) {s : Shelf} (h : c.shelf s.kind = s) : c.put s = c := by
  have hshelf : (c.put s).shelf = c.shelf := by
    funext k
    by_cases hk : k = s.kind
    · rw [hk, shelf_put_self, h]
    · exact shelf_put_ne c hk
  cases c
  exact congrArg (Catalog.mk · _ _) hshelf

theorem Labelled.put (h : c.Labelled) (s : Shelf) : (c.put s).Labelled := by
  intro k
  by_cases hk : k = s.kind
  · rw [hk, shelf_put_self]
  · rw [shelf_put_ne c hk]
    exact h k

inductive Ensures (cloud : Cloud) (c : Catalog) (kind : Kind) :
    Catalog → Except ResolveError (List Record) → Prop
  | kept {records : List Record} : (c.shelf kind).cached = some records →
    Ensures cloud c kind c (.ok records)
  | filled {records : List Record} : (c.shelf kind).cached = none →
    (cloud.list c.listed.length kind).outcome = .ok records →
    Ensures cloud c kind ((c.chargeListing cloud kind).put ⟨kind, some records⟩) (.ok records)
  | failed {e : ApiError} : (c.shelf kind).cached = none →
    (cloud.list c.listed.length kind).outcome = .error e →
    Ensures cloud c kind (c.chargeListing cloud kind) (.error (.fetch kind e))

theorem ensures_ensure (cloud : Cloud) (h : c.Labelled) (kind : Kind) :
    Ensures cloud c kind (c.ensure cloud kind).1 (c.ensure cloud kind).2 := by
  have hlabel := h.shelf_eq kind
  cases hcached : (c.shelf kind).cached with
  | some records =>
    have hput : c.put ⟨kind, some records⟩ = c := put_shelf c (by rw [hlabel, hcached])
    have he : c.ensure cloud kind = (c, .ok records) := by
      rw [hcached] at hlabel
      simp [ensure, Shelf.get, hlabel, hput]
    rw [he]
    exact .kept hcached
  | none =>
    rw [hcached] at hlabel
    cases hout : (cloud.list c.listed.length kind).outcome with
    | ok records =>
      have he : c.ensure cloud kind =
          ((c.chargeListing cloud kind).put ⟨kind, some records⟩, .ok records) := by
        simp [ensure, Shelf.get, hlabel, hout, chargeListing, put]
      rw [he]
      exact .filled hcached hout
    | error e =>
      have hput : (c.chargeListing cloud kind).put ⟨kind, none⟩ = c.chargeListing cloud kind :=
        put_shelf _ hlabel
      have he : c.ensure cloud kind = (c.chargeListing cloud kind, .error (.fetch kind e)) := by
        rw [← hput]
        simp [ensure, Shelf.get, hlabel, hout, chargeListing, put]
      rw [he]
      exact .failed hcached hout

structure Grows (P : Kind → Prop) (c d : Catalog) : Prop where
  labelled : d.Labelled
  kept : ∀ k records, (c.shelf k).cached = some records → (d.shelf k).cached = some records
  listed : ∃ new, d.listed = c.listed ++ new ∧ ∀ k ∈ new, P k ∧ (c.shelf k).cached = none
  others : ∀ k, ¬ P k → d.shelf k = c.shelf k

theorem Grows.refl (h : c.Labelled) : Grows P c c :=
  ⟨h, fun _ _ h => h, ⟨[], (List.append_nil _).symm, by simp⟩, fun _ _ => rfl⟩

theorem Grows.mono (h : Grows P c d) (hPQ : ∀ k, P k → Q k) : Grows Q c d := by
  obtain ⟨new, hnew, hall⟩ := h.listed
  exact ⟨h.labelled, h.kept, ⟨new, hnew, fun k hk => ⟨hPQ k (hall k hk).1, (hall k hk).2⟩⟩,
    fun k hk => h.others k fun hp => hk (hPQ k hp)⟩

theorem Grows.withNow (h : Grows P c d) (now : Nat) : Grows P c { d with now } :=
  ⟨h.labelled, h.kept, h.listed, h.others⟩

theorem Grows.unset (h : Grows P c d) (hd : (d.shelf k).cached = none) : (c.shelf k).cached = none := by
  rw [Option.eq_none_iff_forall_ne_some]
  intro records hc
  simp [h.kept k records hc] at hd

theorem Grows.trans (hcd : Grows P c d) (hde : Grows P d e) : Grows P c e := by
  obtain ⟨new, hnew, hall⟩ := hcd.listed
  obtain ⟨more, hmore, hall'⟩ := hde.listed
  refine ⟨hde.labelled, fun k records h => hde.kept k records (hcd.kept k records h),
    ⟨new ++ more, ?_, ?_⟩, fun k hk => (hde.others k hk).trans (hcd.others k hk)⟩
  · rw [hmore, hnew, List.append_assoc]
  · intro k hk
    rcases List.mem_append.mp hk with hk | hk
    · exact hall k hk
    · exact ⟨(hall' k hk).1, hcd.unset (hall' k hk).2⟩

theorem Grows.count_eq (h : Grows P c d) (hk : ¬ P k ∨ (c.shelf k).cached ≠ none) :
    d.listed.count k = c.listed.count k := by
  obtain ⟨new, hnew, hall⟩ := h.listed
  have hzero : new.count k = 0 := by
    rw [List.count_eq_zero]
    intro hmem
    obtain ⟨hp, hnone⟩ := hall k hmem
    rcases hk with hk | hk
    · exact hk hp
    · exact hk hnone
  rw [hnew, List.count_append, hzero, Nat.add_zero]

theorem grows_ensure (cloud : Cloud) (h : c.Labelled) (kind : Kind) :
    Grows (· = kind) c (c.ensure cloud kind).1 := by
  have he := ensures_ensure cloud h kind
  generalize c.ensure cloud kind = r at he ⊢
  obtain ⟨d, answer⟩ := r
  cases he with
  | kept _ => exact .refl h
  | failed hnone _ => exact ⟨h, fun _ _ h => h, ⟨[kind], rfl, by simp [hnone]⟩, fun _ _ => rfl⟩
  | filled hnone _ =>
    refine ⟨Labelled.put (c := c.chargeListing cloud kind) h _, ?_, ⟨[kind], rfl, by simp [hnone]⟩,
      fun k hk => shelf_put_ne _ hk⟩
    intro k records hc
    have hk : k ≠ kind := by
      rintro rfl
      simp [hnone] at hc
    exact (congrArg Shelf.cached (shelf_put_ne (c.chargeListing cloud kind) hk)).trans hc

end FleetControl.Catalog
