import FleetControl.Proofs.Moves
import FleetControl.Proofs.Schedule

namespace FleetControl.Batch.Floor

variable {s : Setup} {f g : Floor} {limit time position : Nat} {j : Job}

def running (f : Floor) : Nat := f.jobs.countP Job.isRunning

def queued (f : Floor) : Nat := f.jobs.countP isQueued

structure Balanced (limit : Nat) (f : Floor) : Prop where
  held : f.free + running f = limit
  busy : 0 < queued f → f.free = 0

theorem countP_set_add {α : Type} {p : α → Bool} {l : List α} {i : Nat} {a b : α} (h : l[i]? = some a) :
    (l.set i b).countP p + (if p a then 1 else 0) = l.countP p + (if p b then 1 else 0) := by
  obtain ⟨hlt, rfl⟩ := List.getElem?_eq_some_iff.mp h
  have hle := List.boole_getElem_le_countP (p := p) hlt
  rw [List.countP_set hlt]
  omega

theorem counts_grant (hj : f.jobs[position]? = some j) (hq : isQueued j) :
    running (grant s f position j) = running f + 1 ∧ queued (grant s f position j) + 1 = queued f := by
  let change := s.cloud.change f.sentCount (s.command.request j.uuid)
  let granted : Job := ⟨j.token, j.uuid, f.stamps, .sending (f.now + change.delay) change.fate⟩
  have hr : running (grant s f position j) + (if j.isRunning then 1 else 0) =
      running f + (if granted.isRunning then 1 else 0) := countP_set_add hj
  have hw : queued (grant s f position j) + (if isQueued j then 1 else 0) =
      queued f + (if isQueued granted then 1 else 0) := countP_set_add hj
  have hn : j.isRunning = false := by simp [Job.isRunning, hq]
  have hg : granted.isRunning = true ∧ isQueued granted = false := ⟨rfl, rfl⟩
  simp only [hn, hq, hg, if_true, Bool.false_eq_true, if_false] at hr hw
  exact ⟨hr, hw⟩

theorem counts_moved (time : Nat) (hj : f.jobs[position]? = some j) (hrun : j.isRunning) :
    let phase := (s.move (max f.now time) position (f.pollCount j.uuid) j).1
    running (moved s f time position j) + (if hasEnded phase then 1 else 0) = running f ∧
      queued (moved s f time position j) = queued f := by
  intro phase
  let next : Job := ⟨j.token, j.uuid, f.stamps, phase⟩
  have hr : running (moved s f time position j) + (if j.isRunning then 1 else 0) =
      running f + (if next.isRunning then 1 else 0) := countP_set_add hj
  have hw : queued (moved s f time position j) + (if isQueued j then 1 else 0) =
      queued f + (if isQueued next then 1 else 0) := countP_set_add hj
  have hq : isQueued j = false := isQueued_of_isRunning hrun
  have hq' : isQueued next = false := move_leaves_queue _ _ _ _ hrun
  have hr' : next.isRunning = !hasEnded phase := by simp [Job.isRunning, hq', next]
  simp only [hrun, hq, hq', hr', if_true, Bool.false_eq_true, if_false] at hr hw
  refine ⟨?_, hw⟩
  cases he : hasEnded phase <;> simp [he] at hr ⊢ <;> omega

theorem counts_offer (s : Setup) (f : Floor) :
    (offer s f).free + running (offer s f) = f.free + running f ∧
      (((offer s f).free = 0 ∧ f.free = 0) ∨ (queued (offer s f) = 0 ∧ queued f = 0) ∨
        ((offer s f).free + 1 = f.free ∧ queued (offer s f) + 1 = queued f)) := by
  obtain ⟨he, hc⟩ | ⟨n, j, hn, hj, hq, he⟩ := offer_cases s f
  · rw [he]
    refine ⟨rfl, ?_⟩
    rcases hc with h | h
    · exact .inl ⟨h, h⟩
    · have hz : queued f = 0 := List.countP_eq_zero.mpr fun j hj => by simp [h j hj]
      exact .inr (.inl ⟨hz, hz⟩)
  · obtain ⟨hr, hw⟩ := counts_grant (s := s) (f := { f with free := n }) hj hq
    rw [he]
    have hfree : (grant s { f with free := n } (f.jobs.findIdx isQueued) j).free = n := rfl
    have hrun : running { f with free := n } = running f := rfl
    have hqueue : queued { f with free := n } = queued f := rfl
    refine ⟨by omega, .inr (.inr ⟨by omega, by omega⟩)⟩

theorem balanced_letIn (n : Nat) (hf : f.free + running f = limit) (hn : f.free = 0 ∨ queued f ≤ n) :
    Balanced limit (letIn s n f) := by
  -- While permits are left, every offer takes one job off the queue.
  induction n generalizing f with
  | zero => exact ⟨hf, fun h => hn.resolve_right (Nat.not_le.mpr h)⟩
  | succ n ih =>
    obtain ⟨hsum, hcases⟩ := counts_offer s f
    exact ih (by omega) (by omega)

theorem balanced_opening (s : Setup) (limit now : Nat) (items : List (String × String)) :
    Balanced limit (opening s limit now items) := by
  have hr : running (start limit now items) = 0 :=
    List.countP_eq_zero.mpr fun j hj => by simp [Job.isRunning, isQueued_iff.mpr (phase_start hj)]
  apply balanced_letIn
  · rw [hr]; rfl
  · right
    have hle : queued (start limit now items) ≤ (start limit now items).jobs.length :=
      List.countP_le_length
    simpa [start] using hle

theorem balanced_release (hf : f.free + 1 + running f = limit) (hb : 0 < queued f → f.free = 0) :
    Balanced limit (release s f) := by
  obtain ⟨hsum, hcases⟩ := counts_offer s { f with free := f.free + 1 }
  have hrun : running { f with free := f.free + 1 } = running f := rfl
  have hqueue : queued { f with free := f.free + 1 } = queued f := rfl
  simp only [hrun, hqueue] at hsum hcases
  exact ⟨by unfold release; omega, fun hpos => by unfold release at hpos ⊢; omega⟩

theorem balanced_step (h : Balanced limit f) (hd : Due s f time position) :
    Balanced limit (step s f time position) := by
  obtain ⟨hheld, hbusy⟩ := h
  obtain ⟨j, hj, ht⟩ := timer?_eq_some_iff.mp hd.timer
  obtain ⟨hr, hw⟩ := counts_moved (s := s) time hj (isRunning_of_due ht)
  have hfree : (moved s f time position j).free = f.free := rfl
  obtain ⟨he, hs⟩ | ⟨he, hs⟩ := step_cases (s := s) time hj
  · rw [he, if_pos rfl] at hr
    rw [hs]
    exact balanced_release (by omega) (by omega)
  · rw [he] at hr
    rw [hs]
    exact ⟨by simp at hr; omega, by omega⟩

theorem balanced_reaches (h : Balanced limit f) (hr : Reaches s f g) : Balanced limit g := by
  induction hr with
  | refl => exact h
  | step _ hd ih => exact balanced_step ih hd

theorem ended_of_idle (h : Balanced limit f) (hpos : 0 < limit) (hidle : ∀ p, timer? s f p = none) :
    ∀ j ∈ f.jobs, hasEnded j.phase := by
  have hr : ∀ j ∈ f.jobs, j.isRunning = false := by
    intro j hj
    obtain ⟨p, hp⟩ := List.mem_iff_getElem?.mp hj
    have hdue := hidle p
    simp only [timer?, hp, Option.bind_some] at hdue
    cases hphase : j.phase <;> simp_all [Setup.due?, Job.isRunning, isQueued, hasEnded]
  have hrun : running f = 0 := List.countP_eq_zero.mpr fun j hj => by simp [hr j hj]
  have hqueue : queued f = 0 := by
    have := h.held
    have := h.busy
    omega
  intro j hj
  have hq := List.countP_eq_zero.mp hqueue j hj
  have hn := hr j hj
  simpa [Job.isRunning, hq] using hn

theorem countP_position_unique {α : Type} {p : α → Bool} {l : List α} (h : l.countP p ≤ 1) {i k : Nat}
    {a b : α} (hi : l[i]? = some a) (hk : l[k]? = some b) (ha : p a) (hb : p b) : i = k := by
  induction l generalizing i k with
  | nil => simp at hi
  | cons x l ih =>
    have hmem : ∀ {n c}, l[n]? = some c → p c → 0 < l.countP p := fun hc hp =>
      List.countP_pos_iff.mpr ⟨_, List.mem_of_getElem? hc, hp⟩
    rw [List.countP_cons] at h
    cases i with
    | zero =>
      cases k with
      | zero => rfl
      | succ k =>
        obtain rfl : x = a := by simpa using hi
        have := hmem (by simpa using hk) hb
        rw [if_pos ha] at h
        omega
    | succ i =>
      cases k with
      | zero =>
        obtain rfl : x = b := by simpa using hk
        have := hmem (by simpa using hi) ha
        rw [if_pos hb] at h
        omega
      | succ k => exact congrArg (· + 1) (ih (by omega) (by simpa using hi) (by simpa using hk))

end FleetControl.Batch.Floor

namespace FleetControl.Batch

open Floor

theorem permits_pos (risk : Risk) (workers : Option Nat) : 0 < permits risk workers := by
  cases risk with
  | high => exact Nat.one_pos
  | low => exact Nat.lt_of_lt_of_le Nat.one_pos (Nat.le_max_left _ _)

theorem ended_of_reached {cloud : Cloud} {c : Catalog} {tokens : List String} {command : Command}
    {o : Options} {operator : Operator} {clock : Progress.TimeOfDay} {f : Floor}
    (h : Reached cloud c tokens command o operator clock f)
    (hidle : ∀ p, timer? (setup cloud command o clock) f p = none) : ∀ j ∈ f.jobs, hasEnded j.phase := by
  obtain ⟨items, _, hr⟩ := h
  exact ended_of_idle (balanced_reaches (balanced_opening _ _ _ _) hr) (permits_pos _ _) hidle

/-- At every instant of a batch as many items are under way as there are permits, if any is queued, and
never more. -/
theorem running_within_permits (cloud : Cloud) (c : Catalog) (tokens : List String) (command : Command)
    (o : Options) (operator : Operator) (clock : Progress.TimeOfDay) (f : Floor)
    (h : Reached cloud c tokens command o operator clock f) :
    let limit := permits command.risk o.workers
    (command.risk = .high → limit = 1) ∧
      (command.risk = .low → limit = max 1 (min (o.workers.getD maxPermits) maxPermits)) ∧
      running f ≤ limit ∧ f.free + running f = limit ∧
      ((∃ j ∈ f.jobs, isQueued j) → running f = limit) ∧
      (command.risk = .high → ∀ (p q : Nat) (j k : Job), f.jobs[p]? = some j → f.jobs[q]? = some k →
        j.isRunning → k.isRunning → p = q) := by
  intro limit
  obtain ⟨items, _, hr⟩ := h
  obtain ⟨hheld, hbusy⟩ := balanced_reaches (balanced_opening _ limit _ items) hr
  have hhigh : command.risk = .high → limit = 1 := fun h => by simp [limit, h, permits]
  refine ⟨hhigh, fun h => by simp [limit, h, permits], by omega, hheld, ?_, ?_⟩
  · rintro ⟨j, hj, hq⟩
    have := hbusy (List.countP_pos_iff.mpr ⟨j, hj, hq⟩)
    omega
  · intro hrisk p q j k hj hk hjr hkr
    have hle : f.jobs.countP Job.isRunning ≤ 1 := by
      have := hhigh hrisk
      unfold running at hheld
      omega
    exact countP_position_unique hle hj hk hjr hkr

theorem two_run_in_yard :
    let f := yardFloor ["a", "b", "a"] 1
    Reached yard.cloud Catalog.empty ["a", "b", "a"] .startServer yardOptions yardOperator ⟨0⟩ f ∧
      running f ≤ 2 ∧ f.free + running f = 2 := by
  intro f
  have h : Reached yard.cloud Catalog.empty ["a", "b", "a"] .startServer yardOptions yardOperator ⟨0⟩ f :=
    ⟨_, rfl, reaches_after _ 1 _⟩
  obtain ⟨_, _, hle, hheld, _⟩ := running_within_permits _ _ _ _ _ _ _ f h
  exact ⟨h, hle, hheld⟩

end FleetControl.Batch
