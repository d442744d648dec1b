import FleetControl.Proofs.Permits

/-!
Which job has sent which request. Every job that has left the queue has sent its request once, and what
the job holds since is what came of that request.
-/
namespace FleetControl.Batch.Floor

variable {s : Setup} {f g : Floor} {position : Nat} {j : Job} {items : List (String × String)}

def Backs (fate : Fate) (j : Job) : Prop :=
  match j.phase with
  | .queued => True
  | .sending _ known => known = fate
  | .watching _ _ record => fate = .ok record
  | .ended r => (∀ v, r = .ok v → fate = .ok v) ∧ ∀ e, r = .error e → e.token = j.token

structure Accounted (s : Setup) (items : List (String × String)) (f : Floor) : Prop where
  items : f.jobs.map (fun j => (j.token, j.uuid)) = items
  once : (f.calls.map (·.1)).Nodup
  started : ∀ p, p ∈ f.calls.map (·.1) ↔ ∃ j, f.jobs[p]? = some j ∧ isQueued j = false
  backed : ∀ p j, f.jobs[p]? = some j → isQueued j = false →
    ∃ k, f.calls[k]? = some (p, s.command.request j.uuid) ∧
      Backs (s.cloud.change k (s.command.request j.uuid)).fate j

def requestOf? (position : Nat) : Happening → Option (Nat × Request)
  | .sent r => some (position, r)
  | _ => none

theorem calls_put (f : Floor) (position : Nat) (j : Job) (phase : Phase) (whats : List Happening) :
    (f.put position j phase whats).calls = f.calls ++ whats.filterMap (requestOf? position) := by
  simp only [calls, put, List.filterMap_append, List.filterMap_map]
  congr 1

theorem sentCount_eq_length (f : Floor) : f.sentCount = f.calls.length := by
  rw [calls, List.length_filterMap_eq_countP]
  apply List.countP_congr
  intro e _
  cases h : e.what <;> simp [isSent]

theorem move_sends_nothing (now position count : Nat) (h : j.isRunning) :
    (s.move now position count j).2.filterMap (requestOf? position) = [] := by
  have hfail : ∀ failure : Option ApiError,
      (Setup.pollFailure failure).filterMap (requestOf? position) = [] := by
    intro failure
    cases failure <;> rfl
  have hm := moves_move (s := s) now position count h
  generalize s.move now position count j = m at hm ⊢
  obtain ⟨phase, whats⟩ := m
  cases hm with
  | rests => exact hfail _
  | succeeds => exact List.filterMap_append.trans (by rw [hfail]; rfl)
  | fails => exact List.filterMap_append.trans (by rw [hfail]; rfl)
  | _ => rfl

theorem calls_moved (time : Nat) (h : j.isRunning) : (moved s f time position j).calls = f.calls := by
  have hc := calls_put { f with now := max f.now time } position j
    (s.move (max f.now time) position (f.pollCount j.uuid) j).1
    (s.move (max f.now time) position (f.pollCount j.uuid) j).2
  rw [move_sends_nothing _ _ _ h, List.append_nil] at hc
  exact hc

theorem calls_grant : (grant s f position j).calls = f.calls ++ [(position, s.command.request j.uuid)] :=
  calls_put f position j _ _

theorem backs_move {fate : Fate} (now position count stamp : Nat) (h : j.isRunning) (hb : Backs fate j) :
    Backs fate ⟨j.token, j.uuid, stamp, (s.move now position count j).1⟩ := by
  have hm := moves_move (s := s) now position count h
  generalize s.move now position count j = m at hm ⊢
  obtain ⟨phase, whats⟩ := m
  unfold Backs at hb ⊢
  cases hm <;> simp_all [ItemError.token]

theorem map_set_of_eq {α β : Type} {l : List α} {i : Nat} {a b : α} (v : α → β) (h : l[i]? = some a)
    (hv : v b = v a) : (l.set i b).map v = l.map v := by
  obtain ⟨hlt, rfl⟩ := List.getElem?_eq_some_iff.mp h
  rw [List.map_set, hv, ← List.getElem_map v (h := by simpa using hlt), List.set_getElem_self]

theorem getElem?_put {p : Nat} {k : Job} {phase : Phase} {whats : List Happening}
    (hk : (f.put position j phase whats).jobs[p]? = some k) :
    position = p ∧ k = ⟨j.token, j.uuid, f.stamps, phase⟩ ∨ position ≠ p ∧ f.jobs[p]? = some k := by
  by_cases hp : position = p
  · subst hp
    have hlt := (List.getElem?_eq_some_iff.mp hk).1
    simp only [put, List.length_set] at hlt
    simp only [put, List.getElem?_set_self hlt, Option.some.injEq] at hk
    exact .inl ⟨rfl, hk.symm⟩
  · exact .inr ⟨hp, by rw [← hk, put, List.getElem?_set_ne hp]⟩

theorem accounted_start (limit now : Nat) : Accounted s items (start limit now items) := by
  have hq (p : Nat) (j : Job) (hj : (start limit now items).jobs[p]? = some j) : isQueued j :=
    isQueued_iff.mpr (phase_start (List.mem_of_getElem? hj))
  refine ⟨by simp [start, Function.comp_def], List.nodup_nil, ?_, ?_⟩
  · intro p
    constructor
    · intro hp
      exact absurd hp List.not_mem_nil
    · rintro ⟨j, hj, hn⟩
      simp [hq p j hj] at hn
  · intro p j hj hn
    simp [hq p j hj] at hn

theorem accounted_grant (h : Accounted s items f) (hj : f.jobs[position]? = some j) (hq : isQueued j) :
    Accounted s items (grant s f position j) := by
  obtain ⟨hlt, _⟩ := List.getElem?_eq_some_iff.mp hj
  let request := s.command.request j.uuid
  let change := s.cloud.change f.sentCount request
  let granted : Job := ⟨j.token, j.uuid, f.stamps, .sending (f.now + change.delay) change.fate⟩
  have hjobs : (grant s f position j).jobs = f.jobs.set position granted := rfl
  -- A job that is still queued has not sent anything, so its request is the first at its position.
  have hnew : position ∉ f.calls.map (·.1) := by
    rw [h.started]
    rintro ⟨k, hk, hn⟩
    obtain rfl : j = k := by simpa [hj] using hk
    simp [hq] at hn
  refine ⟨?_, ?_, ?_, ?_⟩
  · rw [hjobs, map_set_of_eq (b := granted) _ hj rfl]
    exact h.items
  · rw [calls_grant, List.map_append, List.nodup_append]
    refine ⟨h.once, by simp, ?_⟩
    rintro p hp q hq' rfl
    simp at hq'
    exact hnew (hq' ▸ hp)
  · intro p
    rw [calls_grant, List.map_append, List.mem_append, h.started, hjobs]
    by_cases hp : p = position
    · subst hp
      simp [hlt, granted, isQueued]
    · simp [hp, Ne.symm hp]
  · intro p k hk hn
    rw [calls_grant]
    obtain ⟨rfl, rfl⟩ | ⟨_, hk⟩ := getElem?_put hk
    · refine ⟨f.calls.length, by simp, ?_⟩
      rw [← sentCount_eq_length]
      rfl
    · obtain ⟨n, hn, hb⟩ := h.backed p k hk hn
      exact ⟨n, by rw [List.getElem?_append_left (List.getElem?_eq_some_iff.mp hn).1]; exact hn, hb⟩

theorem accounted_moved (h : Accounted s items f) (time : Nat) (hj : f.jobs[position]? = some j)
    (hr : j.isRunning) : Accounted s items (moved s f time position j) := by
  obtain ⟨hlt, _⟩ := List.getElem?_eq_some_iff.mp hj
  let phase := (s.move (max f.now time) position (f.pollCount j.uuid) j).1
  let next : Job := ⟨j.token, j.uuid, f.stamps, phase⟩
  have hjobs : (moved s f time position j).jobs = f.jobs.set position next := rfl
  have hold : isQueued j = false := isQueued_of_isRunning hr
  have hnext : isQueued next = false := move_leaves_queue _ _ _ _ hr
  refine ⟨?_, ?_, ?_, ?_⟩
  · rw [hjobs, map_set_of_eq (b := next) _ hj rfl]
    exact h.items
  · rw [calls_moved time hr]
    exact h.once
  · intro p
    rw [calls_moved time hr, h.started, hjobs]
    by_cases hp : p = position
    · subst hp
      obtain ⟨_, hget⟩ := List.getElem?_eq_some_iff.mp hj
      simp [hlt, hget, hold, hnext]
    · rw [List.getElem?_set_ne (Ne.symm hp)]
  · intro p k hk hn
    rw [calls_moved time hr]
    obtain ⟨rfl, rfl⟩ | ⟨_, hk⟩ := getElem?_put hk
    · obtain ⟨n, hn, hb⟩ := h.backed position j hj hold
      exact ⟨n, hn, backs_move _ _ _ _ hr hb⟩
    · exact h.backed p k hk hn

theorem accounted_kept (s : Setup) (items : List (String × String)) : Kept s (Accounted s items) where
  free f n h := ⟨h.items, h.once, h.started, h.backed⟩
  grant f p j h hj hq := accounted_grant h hj hq
  move f t p j h hj hd := by
    obtain ⟨k, hk, ht⟩ := timer?_eq_some_iff.mp hd.timer
    obtain rfl : j = k := by simpa [hj] using hk
    exact accounted_moved h t hj (isRunning_of_due ht)

end FleetControl.Batch.Floor
