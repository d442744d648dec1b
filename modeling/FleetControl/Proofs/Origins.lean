import FleetControl.Proofs.Slots
import FleetControl.Signal.Session

/-!
Where the origins of signals are. Each handle of a session and each slot that has been used has a place of its
own among all handles. Whether it is cancelled there tells what has been done to it by the steps so far.
-/
namespace FleetControl.Signals

variable {s t u : Signals} {handle position number k : Nat}

theorem isCancelled_drop : (s.drop handle).isCancelled k = s.isCancelled k := by
  simp only [isCancelled, drop, List.getElem?_modify]
  cases s.handles[k]? with
  | none => rfl
  | some h => by_cases hk : handle = k <;> simp [hk]

theorem isDropped_drop (hlt : handle < s.handles.length) :
    (s.drop handle).isDropped k ↔ k = handle ∨ s.isDropped k := by
  simp only [isDropped, drop, List.getElem?_modify]
  by_cases hk : k = handle
  · subst hk
    simp [hlt]
  · simp [hk, Ne.symm hk]

structure Later (s t : Signals) : Prop where
  cancelled : ∀ k, s.isCancelled k → t.isCancelled k
  dropped : ∀ k, s.isDropped k → t.isDropped k
  settled : ∀ k, s.isDropped k → t.isCancelled k → s.isCancelled k

theorem Later.trans (h : s.Later t) (h' : t.Later u) : s.Later u where
  cancelled k hk := h'.cancelled k (h.cancelled k hk)
  dropped k hk := h'.dropped k (h.dropped k hk)
  settled k hk hu := h.settled k hk (h'.settled k (h.dropped k hk) hu)

theorem later_of_eq (hcancelled : ∀ k, t.isCancelled k = s.isCancelled k)
    (hdropped : ∀ k, t.isDropped k = s.isDropped k) : s.Later t where
  cancelled k hk := by rwa [hcancelled]
  dropped k hk := by rwa [hdropped]
  settled k _ hk := by rwa [hcancelled] at hk

theorem later_cancel (s : Signals) (handle : Nat) : s.Later (s.cancel handle) := by
  by_cases hlt : handle < s.handles.length
  · refine ⟨fun k hk => (isCancelled_cancel hlt).mpr (.inr hk), ?_, ?_⟩
    · intro k hk
      rwa [isDropped_cancel]
    · intro k hdropped hk
      rcases (isCancelled_cancel hlt).mp hk with ⟨rfl, halive⟩ | hk
      · simp [hdropped] at halive
      · exact hk
  · have hsame : s.cancel handle = s := by
      simp [cancel, List.modify_eq_self (Nat.le_of_not_lt hlt)]
    rw [hsame]
    exact later_of_eq (fun _ => rfl) fun _ => rfl

theorem later_drop (s : Signals) (handle : Nat) : s.Later (s.drop handle) := by
  by_cases hlt : handle < s.handles.length
  · refine ⟨?_, fun k hk => (isDropped_drop hlt).mpr (.inr hk), ?_⟩
    · intro k hk
      rwa [isCancelled_drop]
    · intro k _ hk
      rwa [isCancelled_drop] at hk
  · have hsame : s.drop handle = s := by
      simp [drop, List.modify_eq_self (Nat.le_of_not_lt hlt)]
    rw [hsame]
    exact later_of_eq (fun _ => rfl) fun _ => rfl

namespace Session

variable {a b : Session} {origin : Origin} {step : Step} {steps : List Step} {signals : Signals}

def place? (a : Session) : Origin → Option Nat
  | .handle number => a.owned[number]?
  | .slot position => a.signals.slot? position

inductive Uses (a : Session) : Origin → Signals → Nat → Prop
  | there {origin : Origin} {k : Nat} : a.place? origin = some k → Uses a origin a.signals k
  | fresh {position : Nat} : a.place? (.slot position) = .none →
    Uses a (.slot position) ⟨a.signals.handles ++ [⟨false, false⟩],
      a.signals.items ++ [(position, a.signals.handles.length)]⟩ a.signals.handles.length

theorem uses_of_use? (h : a.use? origin = some (signals, k)) : a.Uses origin signals k := by
  cases origin with
  | handle number =>
    obtain ⟨_, hk, heq⟩ := Option.map_eq_some_iff.mp h
    cases heq
    exact .there hk
  | slot position =>
    have heq : a.signals.itemHandle position = (signals, k) := Option.some.inj h
    unfold itemHandle at heq
    cases hfind : a.signals.items.find? fun i => i.1 == position with
    | some item =>
      rw [hfind] at heq
      cases heq
      exact .there (by simp [place?, slot?, hfind])
    | none =>
      rw [hfind] at heq
      cases heq
      exact .fresh (by simp [place?, slot?, hfind])

inductive Performs (a : Session) : Step → Session → Prop
  | handle : Performs a .handle
      ⟨a.signals.newHandle.1, a.owned ++ [a.signals.handles.length], a.taken⟩
  | takes {origin : Origin} {signals : Signals} {k : Nat} : a.Uses origin signals k →
    Performs a (.take (.of origin)) ⟨signals, a.owned, a.taken ++ [.ofHandle k]⟩
  | combines {i j : Nat} {x y : Signal} : a.taken[i]? = some x → a.taken[j]? = some y →
    Performs a (.take (.either i j)) ⟨a.signals, a.owned, a.taken ++ [x.either y]⟩
  | cancels {origin : Origin} {signals : Signals} {k : Nat} : a.Uses origin signals k →
    Performs a (.cancel origin) ⟨signals.cancel k, a.owned, a.taken⟩
  | drops {number k : Nat} : a.place? (.handle number) = some k →
    Performs a (.drop number) ⟨a.signals.drop k, a.owned, a.taken⟩

theorem performs_of_perform? (h : a.perform? step = some b) : a.Performs step b := by
  cases step with
  | handle =>
    obtain rfl := Option.some.inj h
    exact .handle
  | take making =>
    obtain ⟨⟨signals, signal⟩, hmake, rfl⟩ := Option.map_eq_some_iff.mp h
    cases making with
    | of origin =>
      obtain ⟨_, huse, heq⟩ := Option.map_eq_some_iff.mp hmake
      cases heq
      exact .takes (uses_of_use? huse)
    | either i j =>
      obtain ⟨x, hx, hmake⟩ := Option.bind_eq_some_iff.mp hmake
      obtain ⟨y, hy, heq⟩ := Option.bind_eq_some_iff.mp hmake
      cases heq
      exact .combines hx hy
  | cancel origin =>
    obtain ⟨_, huse, rfl⟩ := Option.map_eq_some_iff.mp h
    exact .cancels (uses_of_use? huse)
  | drop number =>
    obtain ⟨k, hk, rfl⟩ := Option.map_eq_some_iff.mp h
    exact .drops hk

theorem later_uses (h : a.Uses origin signals k) : a.signals.Later signals := by
  cases h with
  | there _ => exact later_of_eq (fun _ => rfl) fun _ => rfl
  | fresh _ => exact later_of_eq isCancelled_newHandle isDropped_newHandle

theorem later_performs (h : a.Performs step b) : a.signals.Later b.signals := by
  cases h with
  | handle => exact later_of_eq isCancelled_newHandle isDropped_newHandle
  | takes huse => exact later_uses huse
  | combines _ _ => exact later_of_eq (fun _ => rfl) fun _ => rfl
  | cancels huse => exact (later_uses huse).trans (later_cancel _ _)
  | drops _ => exact later_drop _ _

theorem later_run (h : a.run? steps = some b) : a.signals.Later b.signals := by
  induction steps generalizing a with
  | nil =>
    obtain rfl := Option.some.inj h
    exact later_of_eq (fun _ => rfl) fun _ => rfl
  | cons step steps ih =>
    obtain ⟨c, hc, hrest⟩ := Option.bind_eq_some_iff.mp h
    exact (later_performs (performs_of_perform? hc)).trans (ih hrest)

theorem run?_append (a : Session) (before after : List Step) :
    a.run? (before ++ after) = (a.run? before).bind (·.run? after) := List.foldlM_append

def Dropped (steps : List Step) (origin : Origin) : Prop :=
  ∃ number, origin = .handle number ∧ .drop number ∈ steps

def Cancelled (steps : List Step) (origin : Origin) : Prop :=
  ∃ before after, steps = before ++ .cancel origin :: after ∧ ¬ Dropped before origin

theorem dropped_concat :
    Dropped (steps ++ [step]) origin ↔
      Dropped steps origin ∨ ∃ number, origin = .handle number ∧ step = .drop number := by
  simp only [Dropped, List.mem_append, List.mem_singleton, and_or_left, exists_or, eq_comm]

theorem cancelled_concat :
    Cancelled (steps ++ [step]) origin ↔
      Cancelled steps origin ∨ step = .cancel origin ∧ ¬ Dropped steps origin := by
  constructor
  · rintro ⟨before, after, heq, halive⟩
    rcases List.eq_nil_or_concat after with rfl | ⟨after, last, rfl⟩
    · obtain ⟨rfl, hstep⟩ := List.append_inj' heq rfl
      cases hstep
      exact .inr ⟨rfl, halive⟩
    · rw [List.concat_eq_append, ← List.cons_append, ← List.append_assoc] at heq
      exact .inl ⟨before, after, (List.append_inj' heq rfl).1, halive⟩
  · rintro (⟨before, after, rfl, halive⟩ | ⟨rfl, halive⟩)
    · exact ⟨before, after ++ [step], by simp, halive⟩
    · exact ⟨steps, [], rfl, halive⟩

/-- Every origin is in a place of its own, which tells what has become of it. -/
structure Placed (steps : List Step) (a : Session) : Prop where
  lt : ∀ o k, a.place? o = some k → k < a.signals.handles.length
  apart : ∀ o o' k, a.place? o = some k → a.place? o' = some k → o = o'
  cancelled : ∀ o k, a.place? o = some k → (a.signals.isCancelled k ↔ Cancelled steps o)
  dropped : ∀ o k, a.place? o = some k → (a.signals.isDropped k ↔ Dropped steps o)
  untouched : ∀ o, a.place? o = .none → ¬ Cancelled steps o ∧ ¬ Dropped steps o

theorem placed_empty : Placed [] empty := by
  have hnowhere (o : Origin) : empty.place? o = .none := by cases o <;> rfl
  constructor <;> simp [hnowhere, Cancelled, Dropped]

theorem Placed.fresh (h : Placed steps a) (hnew : a.place? origin = .none)
    (hlen : b.signals.handles.length = a.signals.handles.length + 1)
    (hcancelled : ∀ k, b.signals.isCancelled k = a.signals.isCancelled k)
    (hdropped : ∀ k, b.signals.isDropped k = a.signals.isDropped k)
    (hplace : ∀ o, b.place? o = if o = origin then some a.signals.handles.length else a.place? o) :
    Placed steps b := by
  constructor
  · intro o k hk
    rw [hplace] at hk
    split at hk
    · cases hk
      omega
    · have := h.lt o k hk
      omega
  · intro o o' k hk hk'
    rw [hplace] at hk hk'
    exact Signals.eq_of_new_place h.lt h.apart hk hk'
  · intro o k hk
    rw [hplace] at hk
    rw [hcancelled]
    by_cases ho : o = origin
    · rw [if_pos ho] at hk
      cases hk
      simp [isCancelled_eq_false, ho, (h.untouched origin hnew).1]
    · rw [if_neg ho] at hk
      exact h.cancelled o k hk
  · intro o k hk
    rw [hplace] at hk
    rw [hdropped]
    by_cases ho : o = origin
    · rw [if_pos ho] at hk
      cases hk
      simp [isDropped, ho, (h.untouched origin hnew).2]
    · rw [if_neg ho] at hk
      exact h.dropped o k hk
  · intro o hk
    rw [hplace] at hk
    split at hk
    · cases hk
    · exact h.untouched o hk

theorem place?_handle (a : Session) (o : Origin) :
    place? ⟨a.signals.newHandle.1, a.owned ++ [a.signals.handles.length], a.taken⟩ o =
      if o = .handle a.owned.length then some a.signals.handles.length else a.place? o := by
  cases o with
  | slot position => rfl
  | handle number =>
    simp only [place?, Origin.handle.injEq]
    by_cases hn : number = a.owned.length
    · simp [hn]
    · rw [if_neg hn]
      by_cases hlt : number < a.owned.length
      · exact List.getElem?_append_left hlt
      · rw [List.getElem?_eq_none (by simp; omega), List.getElem?_eq_none (by omega)]

theorem place?_slot (hnew : a.place? (.slot position) = .none) (o : Origin) :
    place? ⟨⟨a.signals.handles ++ [⟨false, false⟩], a.signals.items ++ [(position, a.signals.handles.length)]⟩,
        a.owned, a.taken⟩ o =
      if o = .slot position then some a.signals.handles.length else a.place? o := by
  cases o with
  | handle number => rfl
  | slot p =>
    simp only [place?, Origin.slot.injEq]
    exact slot?_append _ hnew p

theorem Placed.idle (h : Placed steps a) (hcancel : ∀ o, step ≠ .cancel o)
    (hdrop : ∀ number, step ≠ .drop number) : Placed (steps ++ [step]) a where
  lt := h.lt
  apart := h.apart
  cancelled o k hk := by simpa [cancelled_concat, hcancel] using h.cancelled o k hk
  dropped o k hk := by simpa [dropped_concat, hdrop] using h.dropped o k hk
  untouched o hk := by simpa [cancelled_concat, dropped_concat, hcancel, hdrop] using h.untouched o hk

theorem Placed.eq_iff (h : Placed steps a) (hk : a.place? origin = some k) {o : Origin} {j : Nat}
    (hj : a.place? o = some j) : j = k ↔ o = origin := by
  constructor
  · rintro rfl
    exact h.apart o origin j hj hk
  · rintro rfl
    exact Option.some.inj (hj.symm.trans hk)

theorem Placed.cancel (h : Placed steps a) (hk : a.place? origin = some k) :
    Placed (steps ++ [.cancel origin]) ⟨a.signals.cancel k, a.owned, a.taken⟩ := by
  have hlive : a.signals.isDropped k = false ↔ ¬ Dropped steps origin := by
    rw [← h.dropped origin k hk, Bool.not_eq_true]
  refine ⟨?_, h.apart, ?_, ?_, ?_⟩
  · intro o j hj
    simpa [Signals.cancel] using h.lt o j hj
  · intro o j hj
    have hsame := h.eq_iff hk hj
    rw [isCancelled_cancel (h.lt origin k hk), cancelled_concat, h.cancelled o j hj, hlive, or_comm]
    by_cases ho : o = origin
    · simp [hsame, ho]
    · simp [hsame, ho, Ne.symm ho]
  · intro o j hj
    simpa [isDropped_cancel, dropped_concat] using h.dropped o j hj
  · intro o ho
    have hne : origin ≠ o := by
      rintro rfl
      cases hk.symm.trans ho
    simpa [cancelled_concat, dropped_concat, hne] using h.untouched o ho

theorem Placed.drop (h : Placed steps a) (hk : a.place? (.handle number) = some k) :
    Placed (steps ++ [.drop number]) ⟨a.signals.drop k, a.owned, a.taken⟩ := by
  refine ⟨?_, h.apart, ?_, ?_, ?_⟩
  · intro o j hj
    simpa [Signals.drop] using h.lt o j hj
  · intro o j hj
    simpa [isCancelled_drop, cancelled_concat] using h.cancelled o j hj
  · intro o j hj
    have hsame := h.eq_iff hk hj
    rw [isDropped_drop (h.lt _ k hk), dropped_concat, h.dropped o j hj, or_comm]
    simp [hsame]
  · intro o ho
    have hne : o ≠ .handle number := by
      rintro rfl
      cases hk.symm.trans ho
    simpa [cancelled_concat, dropped_concat, hne] using h.untouched o ho

theorem place?_uses (h : a.Uses origin signals k) :
    place? ⟨signals, a.owned, a.taken⟩ origin = some k := by
  cases h with
  | there hk => exact hk
  | fresh hnew => simp [place?_slot hnew]

theorem Placed.uses (h : Placed steps a) (huse : a.Uses origin signals k) :
    Placed steps ⟨signals, a.owned, a.taken⟩ := by
  cases huse with
  | there _ => exact h
  | fresh hnew =>
    exact h.fresh hnew (by simp) isCancelled_newHandle isDropped_newHandle (place?_slot hnew)

theorem Placed.with_taken (h : Placed steps a) (taken : List Signal) :
    Placed steps ⟨a.signals, a.owned, taken⟩ := ⟨h.lt, h.apart, h.cancelled, h.dropped, h.untouched⟩

theorem Placed.performs (h : Placed steps a) (hstep : a.Performs step b) : Placed (steps ++ [step]) b := by
  cases hstep with
  | handle =>
    have hnew : a.place? (.handle a.owned.length) = .none := by simp [place?]
    have hplaced := h.fresh hnew (by simp [newHandle]) isCancelled_newHandle isDropped_newHandle
      (place?_handle a)
    exact hplaced.idle (by simp) (by simp)
  | takes huse => exact ((h.uses huse).with_taken _).idle (by simp) (by simp)
  | combines _ _ => exact (h.with_taken _).idle (by simp) (by simp)
  | cancels huse => exact (h.uses huse).cancel (place?_uses huse)
  | drops hk => exact h.drop hk

end Session
end FleetControl.Signals
