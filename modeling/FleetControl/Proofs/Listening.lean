import FleetControl.Proofs.Origins

/-!
What signals listen to, and that to await one comes to the same as to look at it from time to time.
-/
namespace FleetControl.Signals.Session

variable {a b : Session} {origin o : Origin} {making : Making} {makings : List Making} {step : Step}
  {steps before after : List Step} {signal x y : Signal} {i j k : Nat}

def makingsOf (steps : List Step) : List Making :=
  steps.filterMap fun
    | .take making => some making
    | _ => .none

inductive ListensTo (makings : List Making) : Nat → Origin → Prop
  | of {i : Nat} {o : Origin} : makings[i]? = some (.of o) → ListensTo makings i o
  | left {i j k : Nat} {o : Origin} : makings[i]? = some (.either j k) → ListensTo makings j o →
    ListensTo makings i o
  | right {i j k : Nat} {o : Origin} : makings[i]? = some (.either j k) → ListensTo makings k o →
    ListensTo makings i o

theorem listensTo_of_iff (h : makings[i]? = some (.of origin)) : ListensTo makings i o ↔ o = origin := by
  constructor
  · intro hlistens
    cases hlistens with
    | of hi => simpa using hi.symm.trans h
    | left hi _ => simp [h] at hi
    | right hi _ => simp [h] at hi
  · rintro rfl
    exact .of h

theorem listensTo_either_iff (h : makings[i]? = some (.either j k)) :
    ListensTo makings i o ↔ ListensTo makings j o ∨ ListensTo makings k o := by
  constructor
  · intro hlistens
    cases hlistens with
    | of hi => simp [h] at hi
    | left hi hj =>
      obtain ⟨rfl, rfl⟩ : _ ∧ _ := by simpa using hi.symm.trans h
      exact .inl hj
    | right hi hk =>
      obtain ⟨rfl, rfl⟩ : _ ∧ _ := by simpa using hi.symm.trans h
      exact .inr hk
  · rintro (hj | hk)
    · exact .left h hj
    · exact .right h hk

def Grounded (makings : List Making) : Prop :=
  ∀ i j k, makings[i]? = some (Making.either j k) → j < i ∧ k < i

theorem listensTo_concat (h : Grounded makings) (hlt : i < makings.length) :
    ListensTo (makings ++ [making]) i o ↔ ListensTo makings i o := by
  induction i using Nat.strong_induction_on with
  | h i ih =>
    have hsame : (makings ++ [making])[i]? = makings[i]? := List.getElem?_append_left hlt
    cases hi : makings[i]? with
    | none => simp at hi; omega
    | some making =>
      cases making with
      | of origin => rw [listensTo_of_iff hi, listensTo_of_iff (hsame.trans hi)]
      | either j k =>
        obtain ⟨hj, hk⟩ := h i j k hi
        rw [listensTo_either_iff hi, listensTo_either_iff (hsame.trans hi), ih j hj (by omega),
          ih k hk (by omega)]

/-- The sources of a signal are the places of the origins that it listens to. -/
structure Listening (makings : List Making) (a : Session) : Prop where
  length : a.taken.length = makings.length
  grounded : Grounded makings
  heard : ∀ i signal k, a.taken[i]? = some signal →
    (k ∈ signal.sources ↔ ∃ o, ListensTo makings i o ∧ a.place? o = some k)
  placed : ∀ i o, i < makings.length → ListensTo makings i o → ∃ k, a.place? o = some k

theorem listening_empty : Listening [] empty := by
  constructor <;> simp [empty, Grounded]

theorem Listening.grow (h : Listening makings a) (htaken : b.taken = a.taken)
    (hgrow : ∀ o k, a.place? o = some k → b.place? o = some k) : Listening makings b where
  length := htaken ▸ h.length
  grounded := h.grounded
  heard i signal k hi := by
    rw [htaken] at hi
    rw [h.heard i signal k hi]
    constructor
    · rintro ⟨o, hlistens, hk⟩
      exact ⟨o, hlistens, hgrow o k hk⟩
    · rintro ⟨o, hlistens, hk⟩
      have hlt : i < makings.length := h.length ▸ (List.getElem?_eq_some_iff.mp hi).1
      -- The origin has had a place before, and that is still its place.
      obtain ⟨j, hj⟩ := h.placed i o hlt hlistens
      obtain rfl : j = k := Option.some.inj ((hgrow o j hj).symm.trans hk)
      exact ⟨o, hlistens, hj⟩
  placed i o hlt hlistens := by
    obtain ⟨k, hk⟩ := h.placed i o hlt hlistens
    exact ⟨k, hgrow o k hk⟩

theorem lt_or_eq_of_getElem?_concat {α : Type} {l : List α} {v w : α} (h : (l ++ [v])[i]? = some w) :
    i < l.length ∨ i = l.length := by
  have := (List.getElem?_eq_some_iff.mp h).1
  simp only [List.length_append, List.length_singleton] at this
  omega

theorem Listening.take (h : Listening makings a)
    (hgrounded : ∀ j k, making = .either j k → j < makings.length ∧ k < makings.length)
    (hheard : ∀ k, k ∈ signal.sources ↔
      ∃ o, ListensTo (makings ++ [making]) makings.length o ∧ a.place? o = some k)
    (hplaced : ∀ o, ListensTo (makings ++ [making]) makings.length o → ∃ k, a.place? o = some k) :
    Listening (makings ++ [making]) ⟨a.signals, a.owned, a.taken ++ [signal]⟩ where
  length := by simp [h.length]
  grounded i j k hi := by
    rcases lt_or_eq_of_getElem?_concat hi with hlt | rfl
    · rw [List.getElem?_append_left hlt] at hi
      exact h.grounded i j k hi
    · exact hgrounded j k (by simpa using hi)
  heard i x k hi := by
    have hlast := lt_or_eq_of_getElem?_concat hi
    rw [h.length] at hlast
    rcases hlast with hlt | rfl
    · rw [List.getElem?_append_left (h.length ▸ hlt)] at hi
      rw [h.heard i x k hi]
      simp only [listensTo_concat h.grounded hlt]
      rfl
    · obtain rfl : signal = x := by simpa [← h.length] using hi
      exact hheard k
  placed i o hlt hlistens := by
    rw [List.length_append, List.length_singleton] at hlt
    rcases Nat.lt_succ_iff_lt_or_eq.mp hlt with hlt | rfl
    · exact h.placed i o hlt ((listensTo_concat h.grounded hlt).mp hlistens)
    · exact hplaced o hlistens

theorem Listening.take_of (h : Listening makings a) (hk : a.place? origin = some k) :
    Listening (makings ++ [.of origin]) ⟨a.signals, a.owned, a.taken ++ [.ofHandle k]⟩ := by
  have hlast : (makings ++ [.of origin])[makings.length]? = some (Making.of origin) := by simp
  refine h.take (by simp) ?_ ?_
  · intro j
    simp only [listensTo_of_iff hlast, exists_eq_left, hk, Option.some.injEq]
    rw [Signal.ofHandle, List.mem_singleton, eq_comm]
  · intro o hlistens
    obtain rfl := (listensTo_of_iff hlast).mp hlistens
    exact ⟨k, hk⟩

theorem Listening.take_either (h : Listening makings a) (hx : a.taken[i]? = some x)
    (hy : a.taken[j]? = some y) :
    Listening (makings ++ [.either i j]) ⟨a.signals, a.owned, a.taken ++ [x.either y]⟩ := by
  have hlast : (makings ++ [.either i j])[makings.length]? = some (Making.either i j) := by simp
  have hi : i < makings.length := h.length ▸ (List.getElem?_eq_some_iff.mp hx).1
  have hj : j < makings.length := h.length ▸ (List.getElem?_eq_some_iff.mp hy).1
  refine h.take ?_ ?_ ?_
  · rintro _ _ ⟨⟩
    exact ⟨hi, hj⟩
  · intro k
    simp only [listensTo_either_iff hlast, listensTo_concat h.grounded hi, listensTo_concat h.grounded hj,
      Signal.either, List.mem_append, h.heard i x k hx, h.heard j y k hy, or_and_right, exists_or]
  · intro o hlistens
    rw [listensTo_either_iff hlast, listensTo_concat h.grounded hi, listensTo_concat h.grounded hj]
      at hlistens
    rcases hlistens with hlistens | hlistens
    · exact h.placed i o hi hlistens
    · exact h.placed j o hj hlistens

theorem place?_grows (h : a.Performs step b) (hk : a.place? o = some k) : b.place? o = some k := by
  have huses {origin : Origin} {signals : Signals} {j : Nat} (huse : a.Uses origin signals j) :
      place? ⟨signals, a.owned, a.taken⟩ o = some k := by
    cases huse with
    | there _ => exact hk
    | fresh hnew =>
      rw [place?_slot hnew, if_neg, hk]
      rintro rfl
      simp [hnew] at hk
  cases h with
  | handle =>
    rw [place?_handle, if_neg, hk]
    rintro rfl
    simp [place?] at hk
  | takes huse => exact huses huse
  | combines _ _ => exact hk
  | cancels huse =>
    have hused := huses huse
    exact hused
  | drops _ => exact hk

structure Traced (steps : List Step) (a : Session) : Prop where
  placed : Placed steps a
  listening : Listening (makingsOf steps) a

theorem Traced.performs (h : Traced steps a) (hstep : a.Performs step b) : Traced (steps ++ [step]) b := by
  have hgrow (o : Origin) (k : Nat) (hk : a.place? o = some k) := place?_grows hstep hk
  have hmakings : makingsOf (steps ++ [step]) = makingsOf steps ++ makingsOf [step] :=
    List.filterMap_append
  have hidle (hnone : makingsOf [step] = []) (htaken : b.taken = a.taken) :
      Listening (makingsOf (steps ++ [step])) b := by
    rw [hmakings, hnone, List.append_nil]
    exact h.listening.grow htaken hgrow
  refine ⟨h.placed.performs hstep, ?_⟩
  cases hstep with
  | handle => exact hidle rfl rfl
  | @takes _ signals _ huse =>
    have hlater : Listening (makingsOf steps) ⟨signals, a.owned, a.taken⟩ := h.listening.grow rfl hgrow
    rw [hmakings]
    exact hlater.take_of (place?_uses huse)
  | combines hx hy =>
    rw [hmakings]
    exact h.listening.take_either hx hy
  | cancels _ => exact hidle rfl rfl
  | drops _ => exact hidle rfl rfl

theorem Traced.run (h : Traced before a) (hrun : a.run? after = some b) : Traced (before ++ after) b := by
  induction after generalizing before a with
  | nil =>
    obtain rfl := Option.some.inj hrun
    rwa [List.append_nil]
  | cons step after ih =>
    obtain ⟨c, hc, hrest⟩ := Option.bind_eq_some_iff.mp hrun
    simpa using ih (h.performs (performs_of_perform? hc)) hrest

theorem traced_of_run (h : empty.run? steps = some a) : Traced steps a := by
  have hstart : Traced [] empty := ⟨placed_empty, listening_empty⟩
  exact hstart.run h

theorem Traced.fired_iff (h : Traced steps a) (hi : a.taken[i]? = some signal) :
    signal.fired a.signals ↔ ∃ o, ListensTo (makingsOf steps) i o ∧ Cancelled steps o := by
  simp only [Signal.fired, List.any_eq_true, h.listening.heard i signal _ hi]
  constructor
  · rintro ⟨k, ⟨o, hlistens, hk⟩, hcancelled⟩
    exact ⟨o, hlistens, (h.placed.cancelled o k hk).mp hcancelled⟩
  · rintro ⟨o, hlistens, hcancelled⟩
    cases hk : a.place? o with
    | none => exact absurd hcancelled (h.placed.untouched o hk).1
    | some k => exact ⟨k, ⟨o, hlistens, hk⟩, (h.placed.cancelled o k hk).mpr hcancelled⟩

end FleetControl.Signals.Session
