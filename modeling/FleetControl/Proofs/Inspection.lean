import FleetControl.Proofs.Candidates
import FleetControl.Proofs.Reaching
import FleetControl.Proofs.Retention

namespace FleetControl

def FirstWith (records : List Record) (uuid : String) (r : Record) : Prop :=
  ∃ front rest, records = front ++ r :: rest ∧ r.uuid = uuid ∧ ∀ x ∈ front, x.uuid ≠ uuid

namespace Shelf

variable {kind : Kind} {records : List Record} {token uuid : String} {r : Record}

theorem lookup_ok_iff : lookup ⟨kind, some records⟩ uuid = .ok r ↔ FirstWith records uuid r := by
  have hfind : lookup ⟨kind, some records⟩ uuid = .ok r ↔
      (records.find? fun x => x.uuid == uuid) = some r := by
    unfold lookup
    cases h : records.find? fun x => x.uuid == uuid <;> simp [h]
  rw [hfind, List.find?_eq_some_iff_append, FirstWith]
  constructor
  · rintro ⟨huuid, front, rest, rfl, hfront⟩
    exact ⟨front, rest, rfl, by simpa using huuid, by simpa using hfront⟩
  · rintro ⟨front, rest, rfl, huuid, hfront⟩
    exact ⟨by simpa using huuid, front, rest, rfl, by simpa using hfront⟩

theorem matches_iff_of_resolve (hdistinct : (records.map (·.uuid)).Nodup)
    (hresolve : resolve ⟨kind, some records⟩ token = .ok uuid) (hr : FirstWith records uuid r)
    {x : Record} (hx : x ∈ records) : x.Matches token ↔ x = r := by
  obtain ⟨⟨y, hy, hmatches⟩, hall⟩ := Match.resolved_iff.mp hresolve
  obtain ⟨front, rest, hsplit, rfl, -⟩ := hr
  have hmem : r ∈ records := by simp [hsplit]
  have hsame {z : Record} (hz : z ∈ records) (hz' : z.Matches token) : z = r :=
    eq_of_uuid_eq hdistinct hmem hz (hall z hz hz')
  constructor
  · exact hsame hx
  · rintro rfl
    rwa [hsame hy hmatches] at hmatches

end Shelf

namespace Catalog

variable {cloud : Cloud} {c d : Catalog} {kind : Kind} {token uuid : String} {tokens : List String}
  {records found : List Record} {r : Record} {why : ResolveError}
  {operations : List (Cloud × Operation)}

section Traversal

variable {ε α β γ : Type} {f : α → Except ε β} {g : β → Except ε γ} {as : List α} {e : ε}

theorem mapM_cons_of_error {a : α} (ha : f a = .error e) : (a :: as).mapM f = .error e := by
  rw [List.mapM_cons, ha]
  rfl

theorem mapM_cons_of_ok {a : α} {b : β} (ha : f a = .ok b) :
    (a :: as).mapM f = (as.mapM f).map (b :: ·) := by
  rw [List.mapM_cons, ha]
  cases as.mapM f <;> rfl

theorem mapM_error_iff :
    as.mapM f = .error e ↔
      ∃ front a rest, as = front ++ a :: rest ∧ (∀ x ∈ front, ∃ b, f x = .ok b) ∧ f a = .error e := by
  constructor
  · intro h
    induction as with
    | nil => cases h
    | cons a as ih =>
      cases ha : f a with
      | error e' =>
        rw [mapM_cons_of_error ha] at h
        cases h
        exact ⟨[], a, as, rfl, by simp, ha⟩
      | ok b =>
        rw [mapM_cons_of_ok ha] at h
        have hrest : as.mapM f = .error e := by
          cases has : as.mapM f with
          | error e' => rwa [has] at h
          | ok bs =>
            rw [has] at h
            cases h
        obtain ⟨front, x, rest, rfl, hfront, hx⟩ := ih hrest
        exact ⟨a :: front, x, rest, rfl, List.forall_mem_cons.mpr ⟨⟨b, ha⟩, hfront⟩, hx⟩
  · rintro ⟨front, a, rest, rfl, hfront, ha⟩
    induction front with
    | nil => exact mapM_cons_of_error ha
    | cons x front ih =>
      obtain ⟨⟨b, hx⟩, hfront⟩ := List.forall_mem_cons.mp hfront
      rw [List.cons_append, mapM_cons_of_ok hx, ih hfront]
      rfl

theorem mapM_bind (h : ∀ a b, f a = .ok b → ∃ c, g b = .ok c) (as : List α) :
    (as.mapM f).bind (·.mapM g) = as.mapM fun a => (f a).bind g := by
  induction as with
  | nil => rfl
  | cons a as ih =>
    cases ha : f a with
    | error e =>
      rw [mapM_cons_of_error ha, mapM_cons_of_error (by rw [ha]; rfl)]
      rfl
    | ok b =>
      obtain ⟨c, hc⟩ := h a b ha
      rw [mapM_cons_of_ok ha, mapM_cons_of_ok (by rw [ha]; exact hc), ← ih]
      cases as.mapM f with
      | error e => rfl
      | ok bs => exact mapM_cons_of_ok hc

end Traversal

theorem cached_of_ensure_ok (hc : c.Labelled) (h : (c.ensure cloud kind).2 = .ok records) :
    (c.ensure cloud kind).1.shelf kind = ⟨kind, some records⟩ := by
  have he := ensures_ensure cloud hc kind
  generalize c.ensure cloud kind = r at he h ⊢
  obtain ⟨d, answer⟩ := r
  cases he with
  | kept hk =>
    cases h
    rw [hc.shelf_eq kind, hk]
  | filled _ _ =>
    cases h
    exact shelf_put_self _ _
  | failed _ _ => cases h

theorem lookup_isOk_of_resolveOne (h : (c.resolveOne cloud kind token).2 = .ok uuid) :
    ∃ r, (c.ensure cloud kind).1.lookup kind uuid = .ok r :=
  Shelf.lookup_isOk_of_resolve (resolveOne_ok_iff.mp h).2

theorem find_eq_mapM (cloud : Cloud) (c : Catalog) (kind : Kind) (hne : tokens ≠ []) :
    (c.find cloud kind tokens).2 = tokens.mapM fun token =>
      (c.resolveOne cloud kind token).2.bind ((c.ensure cloud kind).1.lookup kind) := by
  cases h : (c.ensure cloud kind).2 with
  | error why =>
    have hfind : (c.find cloud kind tokens).2 = .error why := by simp [find, resolve, h, Except.bind]
    obtain ⟨token, rest, rfl⟩ := List.exists_cons_of_ne_nil hne
    rw [hfind, mapM_cons_of_error]
    simp [resolveOne, h, Except.bind]
  | ok records =>
    let shelf := (c.ensure cloud kind).1.shelf kind
    have hone (token : String) : (c.resolveOne cloud kind token).2 = shelf.resolve token := by
      simp [resolveOne, h, Except.bind, shelf]
    have hall : (c.resolve cloud kind tokens).2 = tokens.mapM shelf.resolve := by
      simp [resolve, h, Except.bind, shelf]
    calc (c.find cloud kind tokens).2
      _ = (tokens.mapM shelf.resolve).bind (·.mapM shelf.lookup) := by rw [← hall]; rfl
      _ = tokens.mapM fun token => (shelf.resolve token).bind shelf.lookup :=
        mapM_bind (fun _ _ => Shelf.lookup_isOk_of_resolve) tokens
      _ = _ := by simp only [hone]; rfl

theorem bind_lookup_ok_iff :
    (c.resolveOne cloud kind token).2.bind ((c.ensure cloud kind).1.lookup kind) = .ok r ↔
      ∃ uuid, (c.resolveOne cloud kind token).2 = .ok uuid ∧
        (c.ensure cloud kind).1.lookup kind uuid = .ok r := by
  cases (c.resolveOne cloud kind token).2 <;> simp [Except.bind]

theorem bind_lookup_error_iff :
    (c.resolveOne cloud kind token).2.bind ((c.ensure cloud kind).1.lookup kind) = .error why ↔
      (c.resolveOne cloud kind token).2 = .error why := by
  cases h : (c.resolveOne cloud kind token).2 with
  | error _ => simp [Except.bind]
  | ok uuid =>
    obtain ⟨r, hr⟩ := lookup_isOk_of_resolveOne h
    simp [Except.bind, hr]

theorem find_ok_iff (hne : tokens ≠ []) :
    (c.find cloud kind tokens).2 = .ok found ↔
      List.Forall₂ (fun token r => ∃ uuid, (c.resolveOne cloud kind token).2 = .ok uuid ∧
        (c.ensure cloud kind).1.lookup kind uuid = .ok r) tokens found := by
  rw [find_eq_mapM cloud c kind hne, mapM_ok_iff]
  simp only [bind_lookup_ok_iff]

theorem find_error_iff (hne : tokens ≠ []) :
    (c.find cloud kind tokens).2 = .error why ↔
      ∃ front token rest, tokens = front ++ token :: rest ∧
        (∀ t ∈ front, ∃ uuid, (c.resolveOne cloud kind t).2 = .ok uuid) ∧
        (c.resolveOne cloud kind token).2 = .error why := by
  have hisOk (t : String) :
      (∃ r, (c.resolveOne cloud kind t).2.bind ((c.ensure cloud kind).1.lookup kind) = .ok r) ↔
        ∃ uuid, (c.resolveOne cloud kind t).2 = .ok uuid := by
    simp only [bind_lookup_ok_iff]
    constructor
    · rintro ⟨_, uuid, huuid, _⟩
      exact ⟨uuid, huuid⟩
    · rintro ⟨uuid, huuid⟩
      obtain ⟨r, hr⟩ := lookup_isOk_of_resolveOne huuid
      exact ⟨r, uuid, huuid, hr⟩
  rw [find_eq_mapM cloud c kind hne, mapM_error_iff]
  simp only [hisOk, bind_lookup_error_iff]

theorem Grows.lookup {P : Kind → Prop} (h : Grows P c d) (hc : c.Labelled)
    (hr : c.lookup kind uuid = .ok r) : d.lookup kind uuid = .ok r := by
  rw [Catalog.lookup, hc.shelf_eq] at hr
  rw [Catalog.lookup, h.labelled.shelf_eq]
  cases hcached : (c.shelf kind).cached with
  | none => simp [Shelf.lookup, hcached] at hr
  | some records => rwa [h.kept kind records hcached, ← hcached]

theorem inspect_eq (cloud : Cloud) (c : Catalog) (kind : Kind) (hne : tokens ≠ []) :
    Batch.inspect cloud c kind tokens =
      ((c.ensure cloud kind).1, (c.find cloud kind tokens).2.mapError .resolve) := if_neg hne

/-- Tokens are shown all together or not at all. Each of them gives the first record with the uuid that it
leads to, and the first of them that leads nowhere gives the error. -/
theorem inspect_answers_each_token (cloud : Cloud) (c : Catalog) (kind : Kind) (tokens : List String)
    (hc : c.Labelled) (hne : tokens ≠ []) :
    (Batch.inspect cloud c kind tokens).1 = (c.ensure cloud kind).1 ∧
    ((c.shelf kind).cached ≠ none → (Batch.inspect cloud c kind tokens).1 = c) ∧
    ((c.shelf kind).cached = none →
      (Batch.inspect cloud c kind tokens).1.listed = c.listed ++ [kind]) ∧
    ((∃ found, (Batch.inspect cloud c kind tokens).2 = .ok found) ↔
      ∀ token ∈ tokens, ∃ uuid, (c.resolveOne cloud kind token).2 = .ok uuid) ∧
    (∀ found, (Batch.inspect cloud c kind tokens).2 = .ok found →
      ∃ records, ((Batch.inspect cloud c kind tokens).1.shelf kind).cached = some records ∧
        List.Forall₂ (fun token r => ∃ uuid, (c.resolveOne cloud kind token).2 = .ok uuid ∧
          FirstWith records uuid r ∧
          ((records.map (·.uuid)).Nodup → ∀ x ∈ records, x.Matches token ↔ x = r)) tokens found) ∧
    (∀ why, (c.ensure cloud kind).2 = .error why →
      (Batch.inspect cloud c kind tokens).2 = .error (.resolve why)) ∧
    (∀ e, (Batch.inspect cloud c kind tokens).2 = .error e ↔
      ∃ front token rest why, tokens = front ++ token :: rest ∧
        (∀ t ∈ front, ∃ uuid, (c.resolveOne cloud kind t).2 = .ok uuid) ∧
        (c.resolveOne cloud kind token).2 = .error why ∧ e = .resolve why) ∧
    ∀ token uuid operations d, (c.resolveOne cloud kind token).2 = .ok uuid →
      Becomes (Batch.inspect cloud c kind tokens).1 operations d →
        ∃ r, (Batch.inspect cloud c kind tokens).1.lookup kind uuid = .ok r ∧
          d.lookup kind uuid = .ok r := by
  have hlabelled := (grows_ensure cloud hc kind).labelled
  have hok (found : List Record) : (c.find cloud kind tokens).2.mapError BatchError.resolve = .ok found ↔
      (c.find cloud kind tokens).2 = .ok found := by
    cases (c.find cloud kind tokens).2 <;> simp [Except.mapError]
  have herror (e : BatchError) : (c.find cloud kind tokens).2.mapError BatchError.resolve = .error e ↔
      ∃ why, (c.find cloud kind tokens).2 = .error why ∧ e = .resolve why := by
    cases (c.find cloud kind tokens).2 <;> simp [Except.mapError, eq_comm]
  simp only [inspect_eq cloud c kind hne, hok, herror]
  refine ⟨trivial, ?_, fun hnone => (ensure_of_unset hc hnone cloud).1, find_isOk_iff hne, ?_, ?_, ?_, ?_⟩
  · intro hsome
    obtain ⟨records, hk⟩ := Option.ne_none_iff_exists'.mp hsome
    rw [ensure_of_cached hc hk]
  · intro found hfound
    have hall := (find_ok_iff hne).mp hfound
    obtain ⟨records, hrecords⟩ : ∃ records, (c.ensure cloud kind).2 = .ok records := by
      obtain ⟨token, rest, rfl⟩ := List.exists_cons_of_ne_nil hne
      obtain ⟨uuid, huuid⟩ := (find_isOk_iff hne).mp ⟨found, hfound⟩ token List.mem_cons_self
      exact (resolveOne_ok_iff.mp huuid).1
    have hshelf := cached_of_ensure_ok hc hrecords
    refine ⟨records, by rw [hshelf], hall.imp ?_⟩
    rintro token r ⟨uuid, huuid, hlookup⟩
    rw [Catalog.lookup, hshelf] at hlookup
    have hfirst := Shelf.lookup_ok_iff.mp hlookup
    have hresolve := (resolveOne_ok_iff.mp huuid).2
    rw [hshelf] at hresolve
    exact ⟨uuid, huuid, hfirst, fun hdistinct x hx => Shelf.matches_iff_of_resolve hdistinct hresolve hfirst hx⟩
  · intro why hwhy
    refine ⟨why, ?_, rfl⟩
    simp [find, resolve, hwhy, Except.bind]
  · intro e
    simp only [find_error_iff hne]
    constructor
    · rintro ⟨why, ⟨front, token, rest, hsplit, hfront, hwhy⟩, rfl⟩
      exact ⟨front, token, rest, why, hsplit, hfront, hwhy, rfl⟩
    · rintro ⟨front, token, rest, why, hsplit, hfront, hwhy, rfl⟩
      exact ⟨why, ⟨front, token, rest, hsplit, hfront, hwhy⟩, rfl⟩
  · intro token uuid operations d huuid hd
    obtain ⟨r, hr⟩ := lookup_isOk_of_resolveOne huuid
    exact ⟨r, hr, (grows_becomes hlabelled hd).lookup hlabelled hr⟩

theorem first_unknown_disk_is_told :
    (empty.put ⟨.storage, some Shelf.disks⟩).Labelled ∧ ["archive", "tape", "card"] ≠ [] ∧
      (Batch.inspect Script.empty.cloud (empty.put ⟨.storage, some Shelf.disks⟩) .storage
        ["archive", "tape", "card"]).2 = .error (.resolve (.notFound "tape")) := by
  have hlabelled : (empty.put ⟨.storage, some Shelf.disks⟩).Labelled := labelled_empty.put _
  have hne : ["archive", "tape", "card"] ≠ [] := List.cons_ne_nil _ _
  obtain ⟨-, -, -, -, -, -, herror, -⟩ :=
    inspect_answers_each_token Script.empty.cloud _ .storage _ hlabelled hne
  refine ⟨hlabelled, hne, (herror _).mpr ⟨["archive"], "tape", ["card"], .notFound "tape", rfl, ?_, ?_, rfl⟩⟩
  · simp only [List.forall_mem_singleton]
    exact ⟨"2", by decide +kernel⟩
  · decide +kernel

end Catalog
end FleetControl
