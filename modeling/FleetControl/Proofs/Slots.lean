import Mathlib.Data.List.Basic
import Mathlib.Data.Nat.Find
import FleetControl.Proofs.Schedule
import FleetControl.Signal

/-!
The signals of a batch. The wait of an item listens to the batch and to the slot of its own position, and
what it hears is the earliest cancellation of either.
-/
namespace FleetControl

namespace Signals

variable {s : Signals} {position handle k : Nat} {batch : Prop} {P : Nat → Prop}

def slot? (s : Signals) (position : Nat) : Option Nat :=
  (s.items.find? fun i => i.1 == position).map (·.2)

/-- Slots have handles of their own, the first handle being that of the batch. `P` holds of the positions
whose slot has been cancelled. -/
structure Slots (s : Signals) (batch : Prop) (P : Nat → Prop) : Prop where
  alive : ∀ h ∈ s.handles, h.dropped = false
  first : 0 < s.handles.length
  batch : s.isCancelled 0 ↔ batch
  own : ∀ p h, s.slot? p = some h → 0 < h ∧ h < s.handles.length
  apart : ∀ p q h, s.slot? p = some h → s.slot? q = some h → p = q
  cancelled : ∀ p, (∃ h, s.slot? p = some h ∧ s.isCancelled h) ↔ P p

/-- A new place behind all others leaves everyone in a place of their own. -/
theorem eq_of_new_place {α : Type} [DecidableEq α] {place : α → Option Nat} {a b new : α} {n : Nat}
    (hlt : ∀ a k, place a = some k → k < n) (hapart : ∀ a b k, place a = some k → place b = some k → a = b)
    (ha : (if a = new then some n else place a) = some k)
    (hb : (if b = new then some n else place b) = some k) : a = b := by
  by_cases ha' : a = new <;> by_cases hb' : b = new
  · rw [ha', hb']
  · rw [if_pos ha'] at ha
    rw [if_neg hb'] at hb
    have := hlt b k hb
    obtain rfl := Option.some.inj ha
    omega
  · rw [if_neg ha'] at ha
    rw [if_pos hb'] at hb
    have := hlt a k ha
    obtain rfl := Option.some.inj hb
    omega
  · rw [if_neg ha'] at ha
    rw [if_neg hb'] at hb
    exact hapart a b k ha hb

theorem isCancelled_eq_false (h : s.handles.length ≤ k) : s.isCancelled k = false := by
  simp [isCancelled, List.getElem?_eq_none h]

theorem flag_newHandle {flag : Handle → Bool} (hnew : flag ⟨false, false⟩ = false) (k : Nat) :
    ((s.newHandle.1.handles[k]?).map flag).getD false = ((s.handles[k]?).map flag).getD false := by
  rcases Nat.lt_trichotomy k s.handles.length with hlt | rfl | hgt
  · simp [newHandle, List.getElem?_append_left hlt]
  · simp [newHandle, hnew]
  · have hlen : s.newHandle.1.handles.length ≤ k := by
      simp only [newHandle, List.length_append, List.length_singleton]
      omega
    rw [List.getElem?_eq_none hlen, List.getElem?_eq_none (Nat.le_of_lt hgt)]

theorem isCancelled_newHandle (k : Nat) : s.newHandle.1.isCancelled k = s.isCancelled k :=
  flag_newHandle rfl k

theorem isDropped_newHandle (k : Nat) : s.newHandle.1.isDropped k = s.isDropped k := flag_newHandle rfl k

theorem isCancelled_cancel (hlt : handle < s.handles.length) :
    (s.cancel handle).isCancelled k ↔ k = handle ∧ s.isDropped handle = false ∨ s.isCancelled k := by
  simp only [isCancelled, isDropped, cancel, List.getElem?_modify]
  by_cases hk : k = handle
  · subst hk
    cases hdropped : s.handles[k].dropped <;> simp [hlt, hdropped]
  · simp [hk, Ne.symm hk]

theorem isDropped_cancel : (s.cancel handle).isDropped k = s.isDropped k := by
  simp only [isDropped, cancel, List.getElem?_modify]
  cases s.handles[k]? with
  | none => rfl
  | some h =>
    by_cases hk : handle = k
    · cases hdropped : h.dropped <;> simp [hk, hdropped]
    · simp [hk]

theorem slot?_append (handles : List Handle) (hslot : s.slot? position = .none) (p : Nat) :
    slot? ⟨handles, s.items ++ [(position, handle)]⟩ p = if p = position then some handle else s.slot? p := by
  simp only [slot?, Option.map_eq_none_iff, List.find?_append] at hslot ⊢
  by_cases hp : p = position
  · subst hp
    simp [hslot]
  · simp [hp, Ne.symm hp]

theorem Slots.itemHandle (h : s.Slots batch P) (position : Nat) :
    (s.itemHandle position).1.Slots batch P ∧
      (s.itemHandle position).1.slot? position = some (s.itemHandle position).2 := by
  unfold Signals.itemHandle
  cases hfind : s.items.find? fun i => i.1 == position with
  | some i => exact ⟨h, by simp [slot?, hfind]⟩
  | none =>
    have hfresh : s.slot? position = .none := by simp [slot?, hfind]
    let g : Signals := ⟨s.newHandle.1.handles, s.items ++ [(position, s.handles.length)]⟩
    have hlen : g.handles.length = s.handles.length + 1 := by simp [g, newHandle]
    have hcancelled (k : Nat) : g.isCancelled k = s.isCancelled k := isCancelled_newHandle k
    have hslot (p : Nat) : g.slot? p = if p = position then some s.handles.length else s.slot? p :=
      slot?_append _ hfresh p
    refine ⟨?_, (hslot position).trans (if_pos rfl)⟩
    change g.Slots batch P
    constructor
    · intro k hk
      rcases List.mem_append.mp hk with hk | hk
      · exact h.alive k hk
      · rw [List.mem_singleton.mp hk]
    · omega
    · rw [hcancelled]
      exact h.batch
    · intro p k hk
      rw [hslot] at hk
      split at hk
      · have := h.first
        obtain rfl := Option.some.inj hk
        omega
      · have := h.own p k hk
        omega
    · intro p q k hp hq
      rw [hslot] at hp hq
      exact eq_of_new_place (fun p k hp => (h.own p k hp).2) h.apart hp hq
    · intro p
      rw [← h.cancelled]
      simp only [hcancelled, hslot]
      by_cases hp : p = position
      · subst hp
        simp [hfresh, isCancelled_eq_false]
      · simp [hp]

theorem Slots.cancel (h : s.Slots batch P) (hslot : s.slot? position = some handle) :
    (s.cancel handle).Slots batch fun p => P p ∨ p = position := by
  have hown := h.own position handle hslot
  have halive : s.isDropped handle = false := by
    simp [isDropped, hown.2, h.alive _ (List.getElem_mem hown.2)]
  have hcancelled (k : Nat) : (s.cancel handle).isCancelled k ↔ k = handle ∨ s.isCancelled k := by
    rw [isCancelled_cancel hown.2, halive]
    simp
  have hsame (p : Nat) : (s.cancel handle).slot? p = s.slot? p := rfl
  have hlen : (s.cancel handle).handles.length = s.handles.length := List.length_modify _ _ _
  constructor
  · intro k hk
    obtain ⟨i, hi⟩ := List.mem_iff_getElem?.mp hk
    simp only [Signals.cancel, List.getElem?_modify, Option.map_eq_map, Option.map_eq_some_iff] at hi
    obtain ⟨old, hold, rfl⟩ := hi
    have halive := h.alive old (List.mem_of_getElem? hold)
    split <;> simp [halive]
  · rw [hlen]
    exact h.first
  · rw [hcancelled, h.batch]
    constructor
    · rintro (hz | hb)
      · omega
      · exact hb
    · exact .inr
  · intro p k hk
    rw [hlen]
    exact h.own p k hk
  · exact h.apart
  · intro p
    rw [← h.cancelled]
    simp only [hsame, hcancelled]
    constructor
    · rintro ⟨k, hk, rfl | hc⟩
      · exact .inr (h.apart p position _ hk hslot)
      · exact .inl ⟨k, hk, hc⟩
    · rintro (⟨k, hk, hc⟩ | rfl)
      · exact ⟨k, hk, .inr hc⟩
      · exact ⟨handle, hslot, .inl rfl⟩

end Signals

namespace Batch

namespace Options

variable {o : Options} {position now t : Nat}

def uncancelled (o : Options) : Options := { o with cancelAt := none, itemCancels := [] }

def Cancels (o : Options) (position t : Nat) : Prop := o.cancelAt = some t ∨ (position, t) ∈ o.itemCancels

end Options

namespace Floor

variable {s : Setup} {f : Floor} {cancelAt : Nat → Option Nat} {time position : Nat} {j : Job}
  {items : List (String × String)}

end Floor

end Batch
end FleetControl

