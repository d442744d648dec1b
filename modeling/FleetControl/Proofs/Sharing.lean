import FleetControl.Catalog.Visits
import FleetControl.Proofs.Earliest
import FleetControl.Proofs.Shelves

/-!
Overlapping callers share their listings. Whatever the order in which they are served, the listings of a
kind follow one another, the first that succeeds is the last, and its collection is what everyone else
gets. A caller fails only by a listing of its own.
-/
namespace FleetControl.Catalog.Desk

variable {cloud : Cloud} {c : Catalog} {callers : List Caller} {caller : Caller} {d e : Desk}
  {kind : Kind} {time position : Nat} {v : Visit}

def turnAt? (d : Desk) (position : Nat) : Option Nat := (d.callers[position]?).bind d.turn?

structure Due (d : Desk) (time position : Nat) : Prop where
  turn : d.turnAt? position = some time
  first : ∀ p t, d.turnAt? p = some t → time ≤ t

inductive Reaches (cloud : Cloud) (d : Desk) : Desk → Prop
  | refl : Reaches cloud d d
  | step {e : Desk} {time position : Nat} :
    Reaches cloud d e → Due e time position → Reaches cloud d (e.step cloud time position)

theorem turnAt?_eq_some_iff :
    d.turnAt? position = some time ↔ ∃ caller, d.callers[position]? = some (caller, none) ∧
      time = max caller.arrival (d.freeAt caller.kind) := by
  simp only [turnAt?, Option.bind_eq_some_iff, Prod.exists]
  constructor
  · rintro ⟨caller, _ | v, hmem, h⟩
    · exact ⟨caller, hmem, (Option.some.inj h).symm⟩
    · cases h
  · rintro ⟨caller, hmem, rfl⟩
    exact ⟨caller, none, hmem, rfl⟩

inductive Serves (cloud : Cloud) (c : Catalog) (now : Nat) (kind : Kind) :
    (Kind → Shelf) → List Kind → Visit → Prop
  | kept {records : List Record} : (c.shelf kind).cached = some records →
    Serves cloud c now kind c.shelf c.listed ⟨now, now, none, .ok records⟩
  | filled {records : List Record} : (c.shelf kind).cached = none →
    (cloud.list c.listed.length kind).outcome = .ok records →
    Serves cloud c now kind (c.put ⟨kind, some records⟩).shelf (c.listed ++ [kind])
      ⟨now, now + (cloud.list c.listed.length kind).delay, some c.listed.length, .ok records⟩
  | failed {e : ApiError} : (c.shelf kind).cached = none →
    (cloud.list c.listed.length kind).outcome = .error e →
    Serves cloud c now kind c.shelf (c.listed ++ [kind])
      ⟨now, now + (cloud.list c.listed.length kind).delay, some c.listed.length, .error (.fetch kind e)⟩

theorem serves_serve (cloud : Cloud) (h : d.catalog.Labelled) (now : Nat) (caller : Caller) :
    Serves cloud d.catalog now caller.kind (d.serve cloud now caller).1.catalog.shelf
      (d.serve cloud now caller).1.catalog.listed (d.serve cloud now caller).2 := by
  have he := ensures_ensure cloud h caller.kind
  simp only [serve]
  generalize d.catalog.ensure cloud caller.kind = r at he ⊢
  obtain ⟨c, answer⟩ := r
  cases he with
  | kept hcached =>
    simp only [Nat.lt_irrefl, if_false, Option.map_none, Option.getD_none, Nat.add_zero]
    exact .kept hcached
  | filled hnone hout =>
    simp only [chargeListing, List.length_append, List.length_singleton, Nat.lt_succ_self, if_true,
      Option.map_some, Option.getD_some]
    exact .filled hnone hout
  | failed hnone hout =>
    simp only [List.length_append, List.length_singleton, Nat.lt_succ_self, if_true, Option.map_some,
      Option.getD_some]
    exact .failed hnone hout

def Visited (d : Desk) (kind : Kind) (position : Nat) (v : Visit) : Prop :=
  ∃ caller, d.callers[position]? = some (caller, some v) ∧ caller.kind = kind

def hasListed (kind : Kind) (entry : Caller × Option Visit) : Bool :=
  entry.1.kind == kind && entry.2.any (·.listing.isSome)

def hasFailed (kind : Kind) (entry : Caller × Option Visit) : Bool :=
  entry.1.kind == kind && entry.2.any fun v => v.answer.toOption.isNone

def listings (d : Desk) (kind : Kind) : Nat := d.callers.countP (hasListed kind)

def failures (d : Desk) (kind : Kind) : Nat := d.callers.countP (hasFailed kind)

structure Sharing (cloud : Cloud) (c : Catalog) (kind : Kind) (d : Desk) : Prop where
  labelled : d.catalog.Labelled
  timely : ∀ p v, d.Visited kind p v → v.start ≤ v.finish ∧ v.finish ≤ d.freeAt kind
  own : ∀ p v n, d.Visited kind p v → v.listing = some n →
    d.catalog.listed[n]? = some kind ∧ v.finish = v.start + (cloud.list n kind).delay ∧
      v.answer = (cloud.list n kind).outcome.mapError (.fetch kind)
  apart : ∀ p q v w n m, d.Visited kind p v → d.Visited kind q w → v.listing = some n →
    w.listing = some m → p ≠ q → n ≠ m ∧ (v.finish ≤ w.start ∨ w.finish ≤ v.start)
  last : ∀ p q v w n m records, d.Visited kind p v → d.Visited kind q w → v.listing = some n →
    w.listing = some m → w.answer = .ok records → p ≠ q → v.finish ≤ w.start ∧ ∃ e, v.answer = .error e
  shared : ∀ p v, d.Visited kind p v → v.listing = none → ∃ q w n records, d.Visited kind q w ∧
    w.listing = some n ∧ w.answer = .ok records ∧ w.finish ≤ v.start ∧ v.finish = v.start ∧
      v.answer = .ok records
  kept : ∀ records, (d.catalog.shelf kind).cached = some records ↔
    ∃ p v n, d.Visited kind p v ∧ v.listing = some n ∧ v.answer = .ok records
  listed : d.catalog.listed.count kind = c.listed.count kind + d.listings kind
  balance : d.listings kind =
    d.failures kind + if (d.catalog.shelf kind).cached.isSome then 1 else 0

theorem sharing_opened (hc : c.Labelled) (hnone : (c.shelf kind).cached = none) (cloud : Cloud)
    (callers : List Caller) : Sharing cloud c kind (opened c callers) := by
  have hnot (p : Nat) (v : Visit) : ¬ (opened c callers).Visited kind p v := by
    rintro ⟨caller, hmem, _⟩
    simp [opened] at hmem
  have hzero (pred : Caller × Option Visit → Bool) (h : ∀ caller, pred (caller, none) = false) :
      (opened c callers).callers.countP pred = 0 := by
    simp [opened, List.countP_map, Function.comp_def, h]
  have hlistings : (opened c callers).listings kind = 0 := hzero _ fun caller => by simp [hasListed]
  have hfailures : (opened c callers).failures kind = 0 := hzero _ fun caller => by simp [hasFailed]
  have hcached : ((opened c callers).catalog.shelf kind).cached = none := hnone
  refine ⟨hc, fun p v h => absurd h (hnot p v), fun p v n h => absurd h (hnot p v),
    fun p q v w n m h => absurd h (hnot p v), fun p q v w n m records h => absurd h (hnot p v),
    fun p v h => absurd h (hnot p v), ?_, ?_, ?_⟩
  · intro records
    simp [hcached, hnot]
  · rw [hlistings]
    rfl
  · simp [hlistings, hfailures, hcached]

theorem step_eq (hmem : d.callers[position]? = some (caller, none)) :
    d.step cloud time position =
      { (d.serve cloud time caller).1 with
        callers := d.callers.set position (caller, some (d.serve cloud time caller).2) } := by
  simp only [step, hmem]
  rfl

theorem visited_step {p : Nat} (hmem : d.callers[position]? = some (caller, none)) :
    (d.step cloud time position).Visited kind p v ↔ d.Visited kind p v ∨
      (p = position ∧ caller.kind = kind) ∧ v = (d.serve cloud time caller).2 := by
  obtain ⟨hlt, hget⟩ := List.getElem?_eq_some_iff.mp hmem
  rw [step_eq hmem]
  simp only [Visited, List.getElem?_set]
  by_cases hp : position = p
  · subst hp
    constructor
    · rintro ⟨a, ha, rfl⟩
      obtain ⟨rfl, rfl⟩ : caller = a ∧ (d.serve cloud time caller).2 = v := by simpa [hlt] using ha
      exact .inr ⟨⟨rfl, rfl⟩, rfl⟩
    · rintro (⟨a, ha, _⟩ | ⟨⟨_, rfl⟩, rfl⟩)
      · simp [hmem] at ha
      · exact ⟨caller, by simp [hlt], rfl⟩
  · simp [hp, Ne.symm hp]

theorem countP_step {pred : Caller × Option Visit → Bool}
    (hmem : d.callers[position]? = some (caller, none)) (hnone : pred (caller, none) = false) :
    (d.step cloud time position).callers.countP pred =
      d.callers.countP pred + if pred (caller, some (d.serve cloud time caller).2) then 1 else 0 := by
  obtain ⟨hlt, hget⟩ := List.getElem?_eq_some_iff.mp hmem
  rw [step_eq hmem, List.countP_set hlt, hget, hnone]
  simp

theorem grows_serve (cloud : Cloud) (h : d.catalog.Labelled) (now : Nat) (caller : Caller) :
    Grows (· = caller.kind) d.catalog (d.serve cloud now caller).1.catalog :=
  (grows_ensure cloud h caller.kind).withNow _

theorem Sharing.step_other (hs : Sharing cloud c kind d)
    (hmem : d.callers[position]? = some (caller, none)) (hkind : caller.kind ≠ kind) :
    Sharing cloud c kind (d.step cloud time position) := by
  have hvisited (p : Nat) (v : Visit) :
      (d.step cloud time position).Visited kind p v ↔ d.Visited kind p v := by
    simp [visited_step hmem, hkind]
  have hlistings : (d.step cloud time position).listings kind = d.listings kind :=
    (countP_step hmem (by simp [hasListed])).trans (by simp [hasListed, hkind, listings])
  have hfailures : (d.step cloud time position).failures kind = d.failures kind :=
    (countP_step hmem (by simp [hasFailed])).trans (by simp [hasFailed, hkind, failures])
  have hfree : (d.step cloud time position).freeAt kind = d.freeAt kind := by
    rw [step_eq hmem]
    exact if_neg (Ne.symm hkind)
  have hgrows : Grows (· = caller.kind) d.catalog (d.step cloud time position).catalog := by
    rw [step_eq hmem]
    exact grows_serve cloud hs.labelled time caller
  have hshelf := hgrows.others kind (Ne.symm hkind)
  have hcount := hgrows.count_eq (.inl (Ne.symm hkind))
  obtain ⟨new, hnew, _⟩ := hgrows.listed
  refine ⟨hgrows.labelled, ?_, ?_, ?_, ?_, ?_, ?_, ?_, ?_⟩
  · rw [hfree]
    simpa only [hvisited] using hs.timely
  · intro p v n hv hn
    obtain ⟨hlisted, hown⟩ := hs.own p v n ((hvisited p v).mp hv) hn
    exact ⟨by rw [hnew, List.getElem?_append_left (List.getElem?_eq_some_iff.mp hlisted).1, hlisted], hown⟩
  · simpa only [hvisited] using hs.apart
  · simpa only [hvisited] using hs.last
  · simpa only [hvisited] using hs.shared
  · rw [hshelf]
    simpa only [hvisited] using hs.kept
  · rw [hcount, hlistings, hs.listed]
  · rw [hlistings, hfailures, hshelf, hs.balance]

structure Adds (kind : Kind) (position : Nat) (v : Visit) (d e : Desk) : Prop where
  labelled : e.catalog.Labelled
  visited : ∀ p w, e.Visited kind p w ↔ d.Visited kind p w ∨ p = position ∧ w = v
  start : d.freeAt kind ≤ v.start
  finish : v.start ≤ v.finish
  freeAt : e.freeAt kind = v.finish
  listings : e.listings kind = d.listings kind + if v.listing.isSome then 1 else 0
  failures : e.failures kind = d.failures kind + if v.answer.toOption.isNone then 1 else 0

theorem adds_step (h : d.catalog.Labelled) (hmem : d.callers[position]? = some (caller, none))
    (htime : d.freeAt caller.kind ≤ time) :
    Adds caller.kind position (d.serve cloud time caller).2 d (d.step cloud time position) where
  labelled := by
    rw [step_eq hmem]
    exact (grows_serve cloud h time caller).labelled
  visited p w := by
    rw [visited_step hmem]
    simp
  start := htime
  finish := Nat.le_add_right _ _
  freeAt := by
    rw [step_eq hmem]
    exact if_pos rfl
  listings := (countP_step hmem (by simp [hasListed])).trans (by simp [hasListed, listings])
  failures := (countP_step hmem (by simp [hasFailed])).trans (by simp [hasFailed, failures])

theorem Adds.before (ha : Adds kind position v d e) (hs : Sharing cloud c kind d) {p : Nat} {w : Visit}
    (hw : d.Visited kind p w) : w.finish ≤ v.start :=
  Nat.le_trans (hs.timely p w hw).2 ha.start

theorem Adds.timely (ha : Adds kind position v d e) (hs : Sharing cloud c kind d) (p : Nat) (w : Visit)
    (hw : e.Visited kind p w) : w.start ≤ w.finish ∧ w.finish ≤ e.freeAt kind := by
  rw [ha.freeAt]
  obtain hw | ⟨_, rfl⟩ := (ha.visited p w).mp hw
  · exact ⟨(hs.timely p w hw).1, Nat.le_trans (ha.before hs hw) ha.finish⟩
  · exact ⟨ha.finish, Nat.le_refl _⟩

theorem Sharing.add_kept (hs : Sharing cloud c kind d) (ha : Adds kind position v d e)
    {records : List Record} (hcached : (d.catalog.shelf kind).cached = some records)
    (hshelf : e.catalog.shelf = d.catalog.shelf) (hlisted : e.catalog.listed = d.catalog.listed)
    (hv : v = ⟨time, time, none, .ok records⟩) : Sharing cloud c kind e := by
  have hold {p : Nat} {w : Visit} {n : Nat} (hw : e.Visited kind p w) (hn : w.listing = some n) :
      d.Visited kind p w := by
    obtain hw | ⟨_, rfl⟩ := (ha.visited p w).mp hw
    · exact hw
    · simp [hv] at hn
  have hup {p : Nat} {w : Visit} (hw : d.Visited kind p w) : e.Visited kind p w :=
    (ha.visited p w).mpr (.inl hw)
  refine ⟨ha.labelled, ha.timely hs, ?_, ?_, ?_, ?_, ?_, ?_, ?_⟩
  · intro p w n hw hn
    rw [hlisted]
    exact hs.own p w n (hold hw hn) hn
  · exact fun p q w x n m hw hx hn hm => hs.apart p q w x n m (hold hw hn) (hold hx hm) hn hm
  · exact fun p q w x n m r hw hx hn hm => hs.last p q w x n m r (hold hw hn) (hold hx hm) hn hm
  · intro p w hw hn
    obtain hw | ⟨_, rfl⟩ := (ha.visited p w).mp hw
    · obtain ⟨q, x, m, r, hx, hrest⟩ := hs.shared p w hw hn
      exact ⟨q, x, m, r, hup hx, hrest⟩
    · obtain ⟨q, x, m, hx, hm, hr⟩ := (hs.kept records).mp hcached
      exact ⟨q, x, m, records, hup hx, hm, hr, ha.before hs hx, by rw [hv], by rw [hv]⟩
  · intro r
    rw [hshelf, hs.kept]
    constructor
    · rintro ⟨p, w, n, hw, hn, hr⟩
      exact ⟨p, w, n, hup hw, hn, hr⟩
    · rintro ⟨p, w, n, hw, hn, hr⟩
      exact ⟨p, w, n, hold hw hn, hn, hr⟩
  · rw [hlisted, ha.listings, hs.listed, hv]
    rfl
  · rw [ha.listings, ha.failures, hs.balance, hshelf, hv]
    simp [Except.toOption]

theorem toOption_eq_some_iff {ε α : Type} {x : Except ε α} {a : α} : x.toOption = some a ↔ x = .ok a := by
  cases x <;> simp [Except.toOption]

theorem Sharing.all_failed (hs : Sharing cloud c kind d) (hnone : (d.catalog.shelf kind).cached = none)
    {p : Nat} {w : Visit} (hw : d.Visited kind p w) :
    ∃ n e, w.listing = some n ∧ n < d.catalog.listed.length ∧ w.answer = .error e := by
  have hnot (q : Nat) (x : Visit) (n : Nat) (r : List Record) (hx : d.Visited kind q x)
      (hn : x.listing = some n) : x.answer ≠ .ok r := by
    intro hr
    have hcached := (hs.kept r).mpr ⟨q, x, n, hx, hn, hr⟩
    simp [hnone] at hcached
  cases hn : w.listing with
  | none =>
    obtain ⟨q, x, n, r, hx, hn, hr, _⟩ := hs.shared p w hw hn
    exact absurd hr (hnot q x n r hx hn)
  | some n =>
    have hlt := (List.getElem?_eq_some_iff.mp (hs.own p w n hw hn).1).1
    cases hr : w.answer with
    | ok r => exact absurd hr (hnot p w n r hw hn)
    | error e => exact ⟨n, e, rfl, hlt, rfl⟩

theorem Sharing.add_listing (hs : Sharing cloud c kind d) (ha : Adds kind position v d e)
    (hnone : (d.catalog.shelf kind).cached = none)
    (hlisted : e.catalog.listed = d.catalog.listed ++ [kind])
    (hn : v.listing = some d.catalog.listed.length)
    (hfinish : v.finish = v.start + (cloud.list d.catalog.listed.length kind).delay)
    (hanswer : v.answer = (cloud.list d.catalog.listed.length kind).outcome.mapError (.fetch kind))
    (hcached : (e.catalog.shelf kind).cached = v.answer.toOption) : Sharing cloud c kind e := by
  have hall {p : Nat} {w : Visit} (hw : d.Visited kind p w) := hs.all_failed hnone hw
  refine ⟨ha.labelled, ha.timely hs, ?_, ?_, ?_, ?_, ?_, ?_, ?_⟩
  · intro p w n hw hwn
    rw [hlisted]
    obtain hw | ⟨_, rfl⟩ := (ha.visited p w).mp hw
    · obtain ⟨hget, hrest⟩ := hs.own p w n hw hwn
      exact ⟨by rw [List.getElem?_append_left (List.getElem?_eq_some_iff.mp hget).1, hget], hrest⟩
    · obtain rfl : n = d.catalog.listed.length := Option.some.inj (hwn.symm.trans hn)
      exact ⟨by simp, hfinish, hanswer⟩
  · intro p q w x n m hw hx hwn hxm hne
    obtain hw | ⟨rfl, rfl⟩ := (ha.visited p w).mp hw
    · obtain hx | ⟨rfl, rfl⟩ := (ha.visited q x).mp hx
      · exact hs.apart p q w x n m hw hx hwn hxm hne
      · obtain ⟨k, _, hk, hlt, _⟩ := hall hw
        exact ⟨by simp_all; omega, .inl (ha.before hs hw)⟩
    · obtain hx | ⟨rfl, _⟩ := (ha.visited q x).mp hx
      · obtain ⟨k, _, hk, hlt, _⟩ := hall hx
        exact ⟨by simp_all; omega, .inr (ha.before hs hx)⟩
      · exact absurd rfl hne
  · intro p q w x n m r hw hx hwn hxm hr hne
    obtain hx | ⟨rfl, rfl⟩ := (ha.visited q x).mp hx
    · obtain ⟨_, _, _, _, he⟩ := hall hx
      simp [he] at hr
    · obtain hw | ⟨rfl, _⟩ := (ha.visited p w).mp hw
      · obtain ⟨_, e, _, _, he⟩ := hall hw
        exact ⟨ha.before hs hw, e, he⟩
      · exact absurd rfl hne
  · intro p w hw hwn
    obtain hw | ⟨_, rfl⟩ := (ha.visited p w).mp hw
    · obtain ⟨_, _, hk, _⟩ := hall hw
      simp [hk] at hwn
    · simp [hn] at hwn
  · intro r
    rw [hcached, toOption_eq_some_iff]
    constructor
    · exact fun hr => ⟨position, v, _, (ha.visited position v).mpr (.inr ⟨rfl, rfl⟩), hn, hr⟩
    · rintro ⟨p, w, n, hw, _, hr⟩
      obtain hw | ⟨_, rfl⟩ := (ha.visited p w).mp hw
      · obtain ⟨_, _, _, _, he⟩ := hall hw
        simp [he] at hr
      · exact hr
  · rw [hlisted, ha.listings, hn, List.count_append, hs.listed]
    simp
    omega
  · rw [ha.listings, ha.failures, hs.balance, hnone, hcached, hn]
    cases v.answer <;> simp [Except.toOption]

theorem Sharing.step (hs : Sharing cloud c kind d) (hd : Due d time position) :
    Sharing cloud c kind (d.step cloud time position) := by
  obtain ⟨caller, hmem, htime⟩ := turnAt?_eq_some_iff.mp hd.turn
  by_cases hkind : caller.kind = kind
  · subst hkind
    have hfree : d.freeAt caller.kind ≤ time := by omega
    have ha : Adds caller.kind position (d.serve cloud time caller).2 d (d.step cloud time position) :=
      adds_step hs.labelled hmem hfree
    have hserves := serves_serve cloud hs.labelled time caller
    have hcatalog : (d.step cloud time position).catalog = (d.serve cloud time caller).1.catalog := by
      rw [step_eq hmem]
    rw [← hcatalog] at hserves
    generalize hshelf : (d.step cloud time position).catalog.shelf = shelf at hserves
    generalize hlisted : (d.step cloud time position).catalog.listed = listed at hserves
    generalize hv : (d.serve cloud time caller).2 = v at ha hserves
    cases hserves with
    | kept hcached => exact hs.add_kept ha hcached hshelf hlisted rfl
    | filled hnone hout =>
      refine hs.add_listing ha hnone hlisted rfl rfl (by rw [hout]; rfl) ?_
      rw [hshelf]
      exact congrArg Shelf.cached (shelf_put_self d.catalog ⟨caller.kind, _⟩)
    | failed hnone hout =>
      refine hs.add_listing ha hnone hlisted rfl rfl (by rw [hout]; rfl) ?_
      rw [hshelf, hnone]
      rfl
  · exact hs.step_other hmem hkind

theorem Sharing.reaches (hs : Sharing cloud c kind d) (h : Reaches cloud d e) : Sharing cloud c kind e := by
  induction h with
  | refl => exact hs
  | step _ hd ih => exact ih.step hd

theorem next?_due (h : d.next? = some (time, position)) : Due d time position := by
  simp only [next?] at h
  split at h
  · cases h
  next t ts he =>
    have hturns (u : Nat × Nat) : u ∈ t :: ts ↔ d.turnAt? u.2 = some u.1 := by
      obtain ⟨time, position⟩ := u
      rw [← he]
      simp only [turnAt?, List.mem_filterMap, Prod.exists, List.mem_zipIdx_iff_getElem?,
        Option.map_eq_some_iff, Prod.mk.injEq, Option.bind_eq_some_iff]
      constructor
      · rintro ⟨a, o, p, hmem, t, ht, rfl, rfl⟩
        exact ⟨a, o, hmem, ht⟩
      · rintro ⟨a, o, hmem, ht⟩
        exact ⟨a, o, position, hmem, time, ht, rfl, rfl⟩
    have hearliest : ts.foldl earlier t ∈ t :: ts ∧ ∀ u ∈ t :: ts, (ts.foldl earlier t).1 ≤ u.1 :=
      foldl_earliest (fun a b => by unfold earlier; split <;> simp)
        (fun a b => by unfold earlier; split <;> omega) ts t
    obtain ⟨hmem, hfirst⟩ := hearliest
    rw [Option.some.inj h] at hmem hfirst
    exact ⟨(hturns _).mp hmem, fun p u hu => hfirst (u, p) ((hturns (u, p)).mpr hu)⟩

theorem next?_eq_none (h : d.next? = none) : ∀ entry ∈ d.callers, entry.2.isSome := by
  simp only [next?] at h
  split at h
  next he =>
    rw [List.filterMap_eq_nil_iff] at he
    rintro ⟨caller, visit⟩ hmem
    obtain ⟨p, hp⟩ := List.mem_iff_getElem?.mp hmem
    have hturn := he ((caller, visit), p) (List.mem_zipIdx_iff_getElem?.mpr hp)
    cases visit with
    | none => simp [turn?] at hturn
    | some v => rfl
  · cases h

theorem loop_serves_all (cloud : Cloud) {n : Nat} (hn : d.callers.countP (·.2.isNone) ≤ n)
    {o : Desk} (ho : Reaches cloud o d) :
    Reaches cloud o (loop cloud n d) ∧ ∀ entry ∈ (loop cloud n d).callers, entry.2.isSome := by
  induction n generalizing d with
  | zero =>
    refine ⟨ho, ?_⟩
    have hzero := List.countP_eq_zero.mp (Nat.le_zero.mp hn)
    simpa [loop, Option.isSome_iff_ne_none] using hzero
  | succ n ih =>
    cases hnext : d.next? with
    | none =>
      simp only [loop, hnext]
      exact ⟨ho, next?_eq_none hnext⟩
    | some next =>
      obtain ⟨time, position⟩ := next
      have hd := next?_due hnext
      obtain ⟨caller, hmem, _⟩ := turnAt?_eq_some_iff.mp hd.turn
      obtain ⟨hlt, hget⟩ := List.getElem?_eq_some_iff.mp hmem
      have hpos : 0 < d.callers.countP (·.2.isNone) :=
        List.countP_pos_iff.mpr ⟨_, List.mem_of_getElem? hmem, rfl⟩
      have hless : (d.step cloud time position).callers.countP (·.2.isNone) ≤ n := by
        rw [step_eq hmem, List.countP_set hlt, hget]
        simp
        omega
      simp only [loop, hnext]
      exact ih hless (ho.step hd)

theorem run_serves_all (cloud : Cloud) (c : Catalog) (callers : List Caller) :
    Reaches cloud (opened c callers) (run cloud c callers) ∧
      ∀ entry ∈ (run cloud c callers).callers, entry.2.isSome := by
  apply loop_serves_all _ _ .refl
  simpa [opened] using List.countP_le_length (l := (opened c callers).callers) (p := (·.2.isNone))

theorem listing_isSome_iff (h : d.catalog.Labelled) (hmem : d.callers[position]? = some (caller, none)) :
    ((d.serve cloud time caller).2.listing.isSome ↔ (d.catalog.shelf caller.kind).cached = none) ∧
      ∀ e, (d.serve cloud time caller).2.answer = .error e →
        ((d.step cloud time position).catalog.shelf caller.kind).cached = none := by
  rw [step_eq hmem]
  have hserves := serves_serve cloud h time caller
  generalize (d.serve cloud time caller).1.catalog.shelf = shelf at hserves ⊢
  generalize (d.serve cloud time caller).1.catalog.listed = listed at hserves
  generalize (d.serve cloud time caller).2 = v at hserves ⊢
  cases hserves with
  | kept hcached => simp [hcached]
  | filled hnone _ => simp [hnone]
  | failed hnone _ => simp [hnone]

/-- In whatever order the callers of a kind are served, their listings follow one another and end with the
first that succeeds; everyone who gets a collection gets the one of that listing, and who fails has made
the listing that failed. All of them are served. -/
theorem callers_share_listing (cloud : Cloud) (c : Catalog) (callers : List Caller) (kind : Kind)
    (hc : c.Labelled) (hnone : (c.shelf kind).cached = none) :
    (∀ d, Reaches cloud (opened c callers) d → Sharing cloud c kind d ∧
      (∀ p v records, d.Visited kind p v → v.answer = .ok records →
        (d.catalog.shelf kind).cached = some records) ∧
      (∀ p v e, d.Visited kind p v → v.answer = .error e → ∃ n source, v.listing = some n ∧
        (cloud.list n kind).outcome = .error source ∧ e = .fetch kind source) ∧
      ∀ time p caller, Due d time p → d.callers[p]? = some (caller, none) → caller.kind = kind →
        ((d.serve cloud time caller).2.listing.isSome ↔ (d.catalog.shelf kind).cached = none) ∧
        ∀ e, (d.serve cloud time caller).2.answer = .error e →
          ((d.step cloud time p).catalog.shelf kind).cached = none) ∧
    Reaches cloud (opened c callers) (run cloud c callers) ∧
      ∀ entry ∈ (run cloud c callers).callers, entry.2.isSome := by
  refine ⟨fun d hd => ?_, run_serves_all cloud c callers⟩
  have hs := (sharing_opened hc hnone cloud callers).reaches hd
  refine ⟨hs, ?_, ?_, ?_⟩
  · intro p v records hv hok
    rw [hs.kept]
    cases hn : v.listing with
    | some n => exact ⟨p, v, n, hv, hn, hok⟩
    | none =>
      obtain ⟨q, w, n, records', hw, hn, hr, _, _, hv⟩ := hs.shared p v hv hn
      obtain rfl : records' = records := Except.ok.inj (hv.symm.trans hok)
      exact ⟨q, w, n, hw, hn, hr⟩
  · intro p v e hv he
    cases hn : v.listing with
    | none =>
      obtain ⟨_, _, _, _, _, _, _, _, _, hok⟩ := hs.shared p v hv hn
      simp [he] at hok
    | some n =>
      obtain ⟨_, _, hanswer⟩ := hs.own p v n hv hn
      cases hout : (cloud.list n kind).outcome with
      | ok records =>
        rw [he, hout] at hanswer
        cases hanswer
      | error source =>
        rw [he, hout] at hanswer
        exact ⟨n, source, rfl, hout, Except.error.inj hanswer⟩
  · rintro time p caller _ hmem rfl
    exact listing_isSome_iff hs.labelled hmem

def crowd : List Caller := [⟨.router, "a", 0⟩, ⟨.router, "a", 3⟩, ⟨.router, "b", 6⟩, ⟨.router, "b", 30⟩]

def crowded : Script := { Script.empty with listings := [some (.transport "")], listDelay := 10 }

theorem crowd_shares_listing :
    empty.Labelled ∧ (empty.shelf .router).cached = none ∧
      Sharing crowded.cloud empty .router (run crowded.cloud empty crowd) ∧
      (run crowded.cloud empty crowd).listings .router = 2 ∧
      (run crowded.cloud empty crowd).failures .router = 1 ∧
      (run crowded.cloud empty crowd).callers.map (fun entry => entry.2.map (·.start)) =
        [some 0, some 10, some 20, some 30] := by
  obtain ⟨hall, hreaches, _⟩ :=
    callers_share_listing crowded.cloud empty crowd .router labelled_empty rfl
  exact ⟨labelled_empty, rfl, (hall _ hreaches).1, rfl, rfl, rfl⟩

end FleetControl.Catalog.Desk
