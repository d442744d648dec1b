import FleetControl.Batch
import FleetControl.Proofs.Earliest

/-!
The order in which the jobs of a batch move. Jobs that are due at one instant may move in any order;
the run itself takes one of these orders. What a grant and a move keep, every order keeps.
-/
namespace FleetControl.Batch.Floor

variable {s : Setup} {f g : Floor} {time position : Nat}

def timer? (s : Setup) (f : Floor) (position : Nat) : Option Nat :=
  (f.jobs[position]?).bind fun j => s.due? position j.phase

structure Due (s : Setup) (f : Floor) (time position : Nat) : Prop where
  timer : timer? s f position = some time
  first : ∀ p t, timer? s f p = some t → time ≤ t

inductive Reaches (s : Setup) (f : Floor) : Floor → Prop
  | refl : Reaches s f f
  | step {g : Floor} {time position : Nat} :
    Reaches s f g → Due s g time position → Reaches s f (step s g time position)

theorem Reaches.trans {h : Floor} (hfg : Reaches s f g) (hgh : Reaches s g h) : Reaches s f h := by
  induction hgh with
  | refl => exact hfg
  | step _ hd ih => exact ih.step hd

theorem timer?_eq_some_iff :
    timer? s f position = some time ↔
      ∃ j, f.jobs[position]? = some j ∧ s.due? position j.phase = some time := Option.bind_eq_some_iff

theorem mem_timers {t : Nat × Nat × Nat} :
    t ∈ timers s f ↔
      ∃ j, f.jobs[t.2.2]? = some j ∧ s.due? t.2.2 j.phase = some t.1 ∧ j.stamp = t.2.1 := by
  obtain ⟨time, stamp, position⟩ := t
  simp only [timers, List.mem_filterMap, Prod.exists, List.mem_zipIdx_iff_getElem?, Option.map_eq_some_iff,
    Prod.mk.injEq]
  constructor
  · rintro ⟨j, p, hj, _, ht, rfl, rfl, rfl⟩
    exact ⟨j, hj, ht, rfl⟩
  · rintro ⟨j, hj, ht, rfl⟩
    exact ⟨j, position, hj, time, ht, rfl, rfl, rfl⟩

theorem foldl_earlier (ts : List (Nat × Nat × Nat)) (t : Nat × Nat × Nat) :
    ts.foldl earlier t ∈ t :: ts ∧ ∀ u ∈ t :: ts, (ts.foldl earlier t).1 ≤ u.1 := by
  apply foldl_earliest
  · intro t u
    unfold earlier
    split <;> simp
  · intro t u
    unfold earlier
    split <;> omega

theorem next?_due {stamp : Nat} (h : next? s f = some (time, stamp, position)) :
    Due s f time position := by
  unfold next? at h
  split at h
  · contradiction
  next t ts he =>
    obtain ⟨hmem, hle⟩ := foldl_earlier ts t
    rw [Option.some.inj h, ← he] at hmem hle
    obtain ⟨j, hj, ht, _⟩ := mem_timers.mp hmem
    refine ⟨timer?_eq_some_iff.mpr ⟨j, hj, ht⟩, ?_⟩
    intro p u hu
    obtain ⟨k, hk, hu⟩ := timer?_eq_some_iff.mp hu
    exact hle (u, k.stamp, p) (mem_timers.mpr ⟨k, hk, hu, rfl⟩)

theorem next?_eq_none_iff : next? s f = none ↔ ∀ p, timer? s f p = none := by
  have he : next? s f = none ↔ timers s f = [] := by
    unfold next?
    split <;> simp_all
  rw [he, List.eq_nil_iff_forall_not_mem]
  constructor
  · intro h p
    rw [Option.eq_none_iff_forall_ne_some]
    intro t ht
    obtain ⟨j, hj, ht⟩ := timer?_eq_some_iff.mp ht
    exact h (t, j.stamp, p) (mem_timers.mpr ⟨j, hj, ht, rfl⟩)
  · rintro h ⟨t, stamp, p⟩ hmem
    obtain ⟨j, hj, ht, _⟩ := mem_timers.mp hmem
    have hnone := h p
    rw [timer?_eq_some_iff.mpr ⟨j, hj, ht⟩] at hnone
    contradiction

def advance (s : Setup) (f : Floor) : Floor :=
  match next? s f with
  | none => f
  | some (time, _, position) => step s f time position

def after (s : Setup) : Nat → Floor → Floor
  | 0, f => f
  | n + 1, f => after s n (advance s f)

theorem reaches_advance (s : Setup) (f : Floor) : Reaches s f (advance s f) := by
  unfold advance
  split
  · exact .refl
  next h => exact Reaches.refl.step (next?_due h)

theorem reaches_after (s : Setup) (n : Nat) (f : Floor) : Reaches s f (after s n f) := by
  induction n generalizing f with
  | zero => exact .refl
  | succ n ih => exact (reaches_advance s f).trans (ih _)

theorem loop_advance (s : Setup) (f : Floor) : loop s (advance s f) = loop s f := by
  cases h : next? s f with
  | none => simp [advance, h]
  | some t => rw [loop.eq_1 s f]; simp [advance, h]

theorem loop_of_idle (h : next? s f = none) : loop s f = some f := by
  rw [loop]
  simp [h]

theorem loop_eq_some_iff : loop s f = some g ↔ ∃ n, after s n f = g ∧ next? s g = none := by
  constructor
  · -- A result of the loop is one that finitely many calls have come to.
    revert f g
    apply loop.partial_correctness
    intro rec ih f g h
    split at h
    next he =>
      cases h
      exact ⟨0, rfl, he⟩
    next time _ position he =>
      obtain ⟨n, hn, hg⟩ := ih _ _ h
      exact ⟨n + 1, by rw [after, advance, he]; exact hn, hg⟩
  · rintro ⟨n, hn, hg⟩
    induction n generalizing f with
    | zero =>
      cases hn
      exact loop_of_idle hg
    | succ n ih => rw [← loop_advance]; exact ih hn

theorem loop_reaches (h : loop s f = some g) : Reaches s f g ∧ ∀ p, timer? s g p = none := by
  obtain ⟨n, rfl, hg⟩ := loop_eq_some_iff.mp h
  exact ⟨reaches_after s n f, next?_eq_none_iff.mp hg⟩

theorem loop_isSome_of_measure (μ : Floor → Nat)
    (hμ : ∀ g time position, Reaches s f g → Due s g time position →
      μ (step s g time position) < μ g) : (loop s f).isSome := by
  suffices h : ∀ n g, Reaches s f g → μ g = n → (loop s g).isSome from h _ f .refl rfl
  intro n
  induction n using Nat.strongRecOn with
  | ind n ih =>
    intro g hg hn
    rw [loop]
    cases he : next? s g with
    | none => simp
    | some t =>
      obtain ⟨time, stamp, position⟩ := t
      have hd := next?_due he
      exact ih _ (hn ▸ hμ g time position hg hd) _ (hg.step hd) rfl

theorem phase_start {permits now : Nat} {items : List (String × String)} {j : Job}
    (hj : j ∈ (start permits now items).jobs) : j.phase = .queued := by
  obtain ⟨item, _, rfl⟩ := List.mem_map.mp hj
  rfl

/-- A property of floors that does not look at the free permits and is kept by grants and by moves. -/
structure Kept (s : Setup) (P : Floor → Prop) : Prop where
  free : ∀ f n, P f → P { f with free := n }
  grant : ∀ f p j, P f → f.jobs[p]? = some j → isQueued j → P (grant s f p j)
  move : ∀ f t p j, P f → f.jobs[p]? = some j → Due s f t p → P (moved s f t p j)

theorem offer_cases (s : Setup) (f : Floor) :
    (offer s f = f ∧ (f.free = 0 ∨ ∀ j ∈ f.jobs, isQueued j = false)) ∨
      ∃ n j, f.free = n + 1 ∧ f.jobs[f.jobs.findIdx isQueued]? = some j ∧ isQueued j ∧
        offer s f = grant s { f with free := n } (f.jobs.findIdx isQueued) j := by
  cases hn : f.free with
  | zero => exact .inl ⟨by simp [offer, hn], .inl rfl⟩
  | succ n =>
    by_cases hlt : f.jobs.findIdx isQueued < f.jobs.length
    · refine .inr ⟨n, f.jobs[f.jobs.findIdx isQueued], rfl, ?_, ?_, ?_⟩
      · simp [hlt]
      · exact List.findIdx_getElem
      · simp [offer, hn, hlt]
    · refine .inl ⟨by simp [offer, hn, hlt], .inr ?_⟩
      intro j hj
      rw [List.findIdx_lt_length] at hlt
      exact Bool.eq_false_iff.mpr fun hq => hlt ⟨j, hj, hq⟩

theorem step_cases {j : Job} (time : Nat) (hj : f.jobs[position]? = some j) :
    let phase := (s.move (max f.now time) position (f.pollCount j.uuid) j).1
    (hasEnded phase = true ∧ step s f time position = release s (moved s f time position j)) ∨
      (hasEnded phase = false ∧ step s f time position = moved s f time position j) := by
  obtain ⟨hlt, _⟩ := List.getElem?_eq_some_iff.mp hj
  have hm : (moved s f time position j).jobs[position]? =
      some ⟨j.token, j.uuid, f.stamps, (s.move (max f.now time) position (f.pollCount j.uuid) j).1⟩ := by
    simp [moved, put, hlt]
  cases he : hasEnded (s.move (max f.now time) position (f.pollCount j.uuid) j).1 with
  | true => exact .inl ⟨he, by simp [step, hj, hm, he]⟩
  | false => exact .inr ⟨he, by simp [step, hj, hm, he]⟩

variable {P : Floor → Prop}

theorem Kept.offer (hP : Kept s P) (h : P f) : P (offer s f) := by
  obtain ⟨he, _⟩ | ⟨n, j, _, hj, hq, he⟩ := offer_cases s f
  · rw [he]; exact h
  · rw [he]; exact hP.grant _ _ j (hP.free f n h) hj hq

theorem Kept.letIn (hP : Kept s P) (n : Nat) (h : P f) : P (letIn s n f) := by
  induction n generalizing f with
  | zero => exact h
  | succ n ih => exact ih (hP.offer h)

theorem Kept.step (hP : Kept s P) (h : P f) (hd : Due s f time position) :
    P (step s f time position) := by
  obtain ⟨j, hj, _⟩ := timer?_eq_some_iff.mp hd.timer
  have hm := hP.move f time position j h hj hd
  obtain ⟨_, he⟩ | ⟨_, he⟩ := step_cases time hj
  · rw [he]; exact hP.offer (hP.free _ _ hm)
  · rw [he]; exact hm

theorem Kept.reaches (hP : Kept s P) (h : P f) (hr : Reaches s f g) : P g := by
  induction hr with
  | refl => exact h
  | step _ hd ih => exact hP.step ih hd

end FleetControl.Batch.Floor

namespace FleetControl.Batch

/-- The floors that a batch comes to, from the one on which all items have asked for a permit. -/
def Reached (cloud : Cloud) (c : Catalog) (tokens : List String) (command : Command) (o : Options)
    (operator : Operator) (clock : Progress.TimeOfDay) (f : Floor) : Prop :=
  let b := clear cloud c tokens command o operator
  let s := setup cloud command o clock
  ∃ items, b.items = .ok items ∧
    Floor.Reaches s (Floor.opening s (permits command.risk o.workers) b.catalog.now items) f

/-- The floors that the run of a batch passes through, jobs that are due together moving in the order in
which their timers were set. -/
def Passed (cloud : Cloud) (c : Catalog) (tokens : List String) (command : Command) (o : Options)
    (operator : Operator) (clock : Progress.TimeOfDay) (f : Floor) : Prop :=
  let b := clear cloud c tokens command o operator
  let s := setup cloud command o clock
  ∃ items n, b.items = .ok items ∧
    f = Floor.after s n (Floor.opening s (permits command.risk o.workers) b.catalog.now items)

def yard : Script :=
  { Script.empty with
    servers := ["a", "b"].map fun uuid => ⟨uuid, "", "", Server.stopped, "", ""⟩
    mutations := [("a", ⟨some 20, none, none⟩), ("b", ⟨some 10, some (.transport ""), none⟩)]
    states := [("a", [some ⟨0, .ok Server.stopped⟩, some ⟨0, .ok Server.started⟩])] }

def yardOptions : Options where
  exactlyOne := false
  unconfirmed := 2
  confirm := true
  workers := some 2
  wait := some ⟨5, 50⟩
  cancelAt := none
  itemCancels := []

def yardOperator : Operator := ⟨0, .answers true⟩

def yardSetup : Setup := setup yard.cloud .startServer yardOptions ⟨0⟩

def yardFloor (tokens : List String) (n : Nat) : Floor :=
  Floor.after yardSetup n (Floor.opening yardSetup 2 0 (tokens.map fun token => (token, token)))

end FleetControl.Batch
