import FleetControl.Proofs.Clearance
import FleetControl.Proofs.Moves

namespace FleetControl.Batch

variable {s : Setup} {now time position : Nat} {j : Job} {f : Floor}

def Setup.timeout (s : Setup) : Nat := (s.waiter.map (·.timeout)).getD 0

def Setup.Rests (s : Setup) : Prop := ∀ w, s.waiter = some w → 0 < w.interval

def movesLeft (s : Setup) (j : Job) : Nat :=
  match j.phase with
  | .queued => 2 * s.timeout + 5
  | .sending _ _ => 2 * s.timeout + 4
  | .watching deadline (.resting wake) _ => 2 * (deadline - wake) + 3
  | .watching deadline (.polling arrival) _ => 2 * (deadline - (Watch.polling arrival).due deadline) + 2
  | .ended _ => 0

theorem movesLeft_pos (h : j.isRunning) : 0 < movesLeft s j := by
  unfold movesLeft
  cases hp : j.phase with
  | watching deadline watch record => cases watch <;> simp
  | ended r => simp [Job.isRunning, Floor.hasEnded, hp] at h
  | _ => simp

theorem movesLeft_move (count stamp : Nat) (hrests : s.Rests)
    (hdue : s.due? position j.phase = some time) (hle : time ≤ now) :
    movesLeft s ⟨j.token, j.uuid, stamp, (s.move now position count j).1⟩ < movesLeft s j := by
  have hrun : j.isRunning := isRunning_of_due hdue
  have hpos := movesLeft_pos (s := s) hrun
  have hm := moves_move (s := s) now position count hrun
  generalize s.move now position count j = m at hm ⊢
  obtain ⟨phase, whats⟩ := m
  cases hm with
  | waits hp hw hd =>
    have hdeadline := Waiter.deadline?_eq hd
    simp only [movesLeft, hp, Setup.timeout, hw, Option.map_some, Option.getD_some]
    omega
  | polls hp hc hw ht =>
    -- A poll takes one of the two moves of an instant, the rest after it the other.
    obtain ⟨wake, rfl⟩ := Waiter.turn_polls ht
    rw [hp] at hdue
    have hwake : time = wake := eq_due_of_not_cancels hdue hle hc
    simp only [movesLeft, hp]
    cases s.cloud.poll s.command.kind j.uuid count with
    | none => simp only [Watch.poll, Option.map_none, Watch.due]; omega
    | some r => simp only [Watch.poll, Option.map_some, Watch.due]; omega
  | rests hp hc hw ht =>
    obtain ⟨⟨arrival, rfl⟩, hlt, hwake⟩ := Waiter.turn_rests ht
    rw [hp] at hdue
    have hnow := eq_due_of_not_cancels hdue hle hc
    have hinterval := hrests _ hw
    simp only [movesLeft, hp]
    omega
  | _ => exact hpos

namespace Floor

def movesLeft (s : Setup) (f : Floor) : Nat := f.jobs.foldr (fun j n => Batch.movesLeft s j + n) 0

theorem foldr_set_add {α : Type} (weight : α → Nat) {l : List α} {i : Nat} {a : α} (b : α)
    (h : l[i]? = some a) :
    (l.set i b).foldr (fun x n => weight x + n) 0 + weight a =
      l.foldr (fun x n => weight x + n) 0 + weight b := by
  induction l generalizing i with
  | nil => simp at h
  | cons x l ih =>
    cases i with
    | zero =>
      obtain rfl : x = a := by simpa using h
      simp only [List.set_cons_zero, List.foldr_cons]
      omega
    | succ i =>
      have hrest := ih (by simpa using h)
      simp only [List.set_cons_succ, List.foldr_cons]
      omega

theorem movesLeft_offer (s : Setup) (f : Floor) : movesLeft s (offer s f) ≤ movesLeft s f := by
  obtain ⟨he, _⟩ | ⟨n, j, _, hj, hq, he⟩ := offer_cases s f
  · exact Nat.le_of_eq (congrArg _ he)
  · let change := s.cloud.change f.sentCount (s.command.request j.uuid)
    have hput : movesLeft s (grant s { f with free := n } (f.jobs.findIdx isQueued) j) +
        Batch.movesLeft s j = movesLeft s f + Batch.movesLeft s
          ⟨j.token, j.uuid, f.stamps, .sending (f.now + change.delay) change.fate⟩ :=
      foldr_set_add _ _ hj
    have hqueued : Batch.movesLeft s j = 2 * s.timeout + 5 := by
      simp only [Batch.movesLeft, isQueued_iff.mp hq]
    have hsending : Batch.movesLeft s
        ⟨j.token, j.uuid, f.stamps, .sending (f.now + change.delay) change.fate⟩ = 2 * s.timeout + 4 :=
      rfl
    rw [he]
    omega

theorem movesLeft_step (hrests : s.Rests) (hd : Due s f time position) :
    movesLeft s (step s f time position) < movesLeft s f := by
  obtain ⟨j, hj, hdue⟩ := timer?_eq_some_iff.mp hd.timer
  have hput : movesLeft s (moved s f time position j) + Batch.movesLeft s j = movesLeft s f +
      Batch.movesLeft s ⟨j.token, j.uuid, f.stamps,
        (s.move (max f.now time) position (f.pollCount j.uuid) j).1⟩ := foldr_set_add _ _ hj
  have hmove := movesLeft_move (f.pollCount j.uuid) f.stamps hrests hdue
    (Nat.le_max_right f.now time)
  have hoffer : movesLeft s (release s (moved s f time position j)) ≤
      movesLeft s (moved s f time position j) := movesLeft_offer s _
  obtain ⟨_, he⟩ | ⟨_, he⟩ := step_cases (s := s) time hj
  · rw [he]
    omega
  · rw [he]
    omega

end Floor

theorem send_isSome (cloud : Cloud) (c : Catalog) (tokens : List String) (command : Command)
    (o : Options) (operator : Operator) (clock : Progress.TimeOfDay)
    (h : ∀ wait, o.wait = some wait → 0 < wait.interval) :
    (send cloud c tokens command o operator clock).isSome := by
  have hrests : (setup cloud command o clock).Rests := by
    intro w hw
    simp only [setup, waiter?, Option.bind_eq_bind, Option.bind_eq_some_iff, Option.some.injEq] at hw
    obtain ⟨wait, hwait, expectation, _, rfl⟩ := hw
    exact h wait hwait
  cases hitems : (clear cloud c tokens command o operator).items with
  | error e => exact Option.isSome_iff_exists.mpr ⟨_, send_eq_some_iff.mpr (.inl ⟨e, hitems, rfl⟩)⟩
  | ok items =>
    obtain ⟨f, hf⟩ := Option.isSome_iff_exists.mp (Floor.loop_isSome_of_measure
      (f := Floor.opening (setup cloud command o clock) (permits command.risk o.workers)
        (clear cloud c tokens command o operator).catalog.now items)
      (Floor.movesLeft (setup cloud command o clock))
      fun g time position _ hd => Floor.movesLeft_step hrests hd)
    exact Option.isSome_iff_exists.mpr
      ⟨_, send_eq_some_iff.mpr (.inr ⟨items, f, hitems, hf, rfl⟩)⟩

end FleetControl.Batch
