import FleetControl.Batch.Floor
import FleetControl.Proofs.Waiting

/-! What the move of a job can be, one case for each way in which a request or a wait goes on. -/
namespace FleetControl

namespace Waiter

variable {w : Waiter} {deadline now count wake : Nat} {watch : Watch} {failure : Option ApiError}

theorem deadline?_eq (h : w.deadline? now = some deadline) : deadline = now + w.timeout := by
  simp only [deadline?, Option.ite_none_right_eq_some, Option.some.injEq] at h
  exact h.2.symm

theorem turn_polls {arithmetic : Arithmetic} (h : w.turn arithmetic deadline now count watch = .polls) :
    ∃ wake, watch = .resting wake := by
  revert h
  fun_cases turn w arithmetic deadline now count watch with
  | case1 wake => exact fun _ => ⟨wake, rfl⟩
  | _ => exact nofun

theorem turn_rests {arithmetic : Arithmetic}
    (h : w.turn arithmetic deadline now count watch = .rests wake failure) :
    (∃ arrival, watch = .polling arrival) ∧ now < deadline ∧
      wake = min (now + w.interval) deadline := by
  revert h
  fun_cases turn w arithmetic deadline now count watch with
  | case7 t answer _ _ hlate _ =>
    rintro ⟨⟩
    exact ⟨⟨_, rfl⟩, Nat.lt_of_not_le hlate, rfl⟩
  | _ => exact nofun

theorem turn_exact_ends {ending : Ending} (h : w.turn .exact deadline now count watch = .ends ending failure) :
    ∃ result, ending = .ok result := by
  revert h
  fun_cases turn w .exact deadline now count watch with
  | case1 | case7 => exact nofun
  | case2 _ hcount => exact absurd rfl hcount
  | case8 _ _ _ _ _ hwake => exact absurd rfl hwake
  | case3 | case4 | case5 | case6 =>
    rintro ⟨⟩
    exact ⟨_, rfl⟩

end Waiter

namespace Batch

open Setup

variable {s : Setup} {now position count : Nat} {j : Job}

def Job.isRunning (j : Job) : Bool := !Floor.isQueued j && !Floor.hasEnded j.phase

def Setup.cancels (s : Setup) (now position : Nat) : Prop := ∃ t, s.cancelAt position = some t ∧ t ≤ now

inductive Moves (s : Setup) (now position count : Nat) (j : Job) : Phase → List Happening → Prop
  | panics {t : Nat} {text : String} : j.phase = .sending t (.panic text) →
    Moves s now position count j (.ended (.error (.aborted j.token (panicText position text)))) []
  | refused {t : Nat} {e : ApiError} : j.phase = .sending t (.error e) →
    Moves s now position count j (.ended (.error (.remote j.token e)))
      [s.message j "failed", .noted (.fail e.advice)]
  | accepted {t : Nat} {record : Option FleetControl.Record} :
    j.phase = .sending t (.ok record) → s.waiter = none →
    Moves s now position count j (.ended (.ok record)) [s.message j "request sent", .noted .done]
  | overflows {t : Nat} {record : Option FleetControl.Record} {w : Waiter} :
    j.phase = .sending t (.ok record) → s.waiter = some w → w.deadline? now = none →
    Moves s now position count j
      (.ended (.error (.aborted j.token (panicText position "overflow when adding duration to instant"))))
      [s.message j s!"waiting for {w.target}"]
  | waits {t deadline : Nat} {record : Option FleetControl.Record} {w : Waiter} :
    j.phase = .sending t (.ok record) → s.waiter = some w → w.deadline? now = some deadline →
    Moves s now position count j (.watching deadline (.resting now) record)
      [s.message j s!"waiting for {w.target}"]
  | cancelled {deadline : Nat} {watch : Watch} {record : Option FleetControl.Record} :
    j.phase = .watching deadline watch record → s.cancels now position →
    Moves s now position count j (.ended (.error (.wait j.token .cancelled)))
      [s.message j "request sent, wait failed", .noted (.fail WaitError.cancelled.message)]
  | aimless {deadline : Nat} {watch : Watch} {record : Option FleetControl.Record} :
    j.phase = .watching deadline watch record → ¬ s.cancels now position → s.waiter = none →
    Moves s now position count j (.ended (.ok record)) []
  | polls {deadline : Nat} {watch : Watch} {record : Option FleetControl.Record} {w : Waiter} :
    j.phase = .watching deadline watch record → ¬ s.cancels now position → s.waiter = some w →
    w.turn .exact deadline now count watch = .polls →
    Moves s now position count j
      (.watching deadline (Watch.poll now (s.cloud.poll s.command.kind j.uuid count)) record) [.polled]
  | rests {deadline wake : Nat} {watch : Watch} {record : Option FleetControl.Record} {w : Waiter}
      {failure : Option ApiError} :
    j.phase = .watching deadline watch record → ¬ s.cancels now position → s.waiter = some w →
    w.turn .exact deadline now count watch = .rests wake failure →
    Moves s now position count j (.watching deadline (.resting wake) record) (pollFailure failure)
  | succeeds {deadline : Nat} {watch : Watch} {record : Option FleetControl.Record} {w : Waiter}
      {failure : Option ApiError} :
    j.phase = .watching deadline watch record → ¬ s.cancels now position → s.waiter = some w →
    w.turn .exact deadline now count watch = .ends (.ok (.ok ())) failure →
    Moves s now position count j (.ended (.ok record))
      (pollFailure failure ++ [s.message j "done", .noted .done])
  | fails {deadline : Nat} {watch : Watch} {record : Option FleetControl.Record} {w : Waiter}
      {failure : Option ApiError} {e : WaitError} :
    j.phase = .watching deadline watch record → ¬ s.cancels now position → s.waiter = some w →
    w.turn .exact deadline now count watch = .ends (.ok (.error e)) failure →
    Moves s now position count j (.ended (.error (.wait j.token e)))
      (pollFailure failure ++ [s.message j "request sent, wait failed", .noted (.fail e.message)])

theorem cancels_iff : ((s.cancelAt position).filter (· ≤ now)).isSome ↔ s.cancels now position := by
  cases h : s.cancelAt position <;> simp [Setup.cancels, h]

theorem moves_move (now position count : Nat) (h : j.isRunning) :
    Moves s now position count j (s.move now position count j).1 (s.move now position count j).2 := by
  cases hp : j.phase with
  | queued => simp [Job.isRunning, Floor.isQueued, hp] at h
  | ended r => simp [Job.isRunning, Floor.hasEnded, hp] at h
  | sending t fate =>
    simp only [Setup.move, hp]
    cases fate with
    | panic text => exact .panics hp
    | error e => exact .refused hp
    | ok record =>
      simp only [Setup.afterAnswer]
      cases hw : s.waiter with
      | none => exact .accepted hp hw
      | some w =>
        cases hd : w.deadline? now with
        | none =>
          simp only [hd]
          exact .overflows hp hw hd
        | some deadline =>
          simp only [hd]
          exact .waits hp hw hd
  | watching deadline watch record =>
    simp only [Setup.move, hp]
    by_cases hc : s.cancels now position
    · rw [if_pos (cancels_iff.mpr hc)]
      exact .cancelled hp hc
    · rw [if_neg (mt cancels_iff.mp hc)]
      cases hw : s.waiter with
      | none => exact .aimless hp hc hw
      | some w =>
        cases ht : w.turn .exact deadline now count watch with
        | polls =>
          simp only [ht]
          exact .polls hp hc hw ht
        | rests wake failure =>
          simp only [ht]
          exact .rests hp hc hw ht
        | ends ending failure =>
          simp only [ht]
          obtain ⟨result, rfl⟩ := Waiter.turn_exact_ends ht
          cases result with
          | ok => exact .succeeds hp hc hw ht
          | error e => exact .fails hp hc hw ht

theorem isQueued_iff : Floor.isQueued j ↔ j.phase = .queued := by
  unfold Floor.isQueued
  split <;> simp_all

theorem hasEnded_iff {phase : Phase} : Floor.hasEnded phase ↔ ∃ r, phase = .ended r := by
  cases phase <;> simp [Floor.hasEnded]

theorem isQueued_of_ended {r : Result} (h : j.phase = .ended r) : Floor.isQueued j = false := by
  simp [Floor.isQueued, h]

theorem hasEnded_of_due {t : Nat} {phase : Phase} (h : s.due? position phase = some t) :
    Floor.hasEnded phase = false := by
  cases phase with
  | ended r => simp [due?] at h
  | _ => rfl

theorem isRunning_of_due {t : Nat} (h : s.due? position j.phase = some t) : j.isRunning := by
  cases hp : j.phase <;> simp_all [Setup.due?, Job.isRunning, Floor.isQueued, Floor.hasEnded]

theorem isQueued_of_isRunning (h : j.isRunning) : Floor.isQueued j = false := by
  simp_all [Job.isRunning]

theorem eq_due_of_not_cancels {time deadline : Nat} {watch : Watch} {record : Option FleetControl.Record}
    (hdue : s.due? position (.watching deadline watch record) = some time) (hle : time ≤ now)
    (hc : ¬ s.cancels now position) : time = watch.due deadline := by
  cases h : s.cancelAt position with
  | none =>
    simp only [Setup.due?, h, Option.map_none, Option.getD_none, Option.some.injEq] at hdue
    exact hdue.symm
  | some t =>
    have ht : now < t := Nat.lt_of_not_le fun hle => hc ⟨t, h, hle⟩
    simp only [Setup.due?, h, Option.map_some, Option.getD_some, Option.some.injEq] at hdue
    omega

theorem move_ne_sending (now position count : Nat) (h : j.isRunning) (t : Nat) (fate : Fate) :
    (s.move now position count j).1 ≠ .sending t fate := by
  intro hs
  have hm := moves_move (s := s) now position count h
  rw [hs] at hm
  cases hm

theorem move_ne_queued (now position count : Nat) (h : j.isRunning) :
    (s.move now position count j).1 ≠ .queued := by
  intro hs
  have hm := moves_move (s := s) now position count h
  rw [hs] at hm
  cases hm

theorem move_leaves_queue (now position count stamp : Nat) (h : j.isRunning) :
    Floor.isQueued ⟨j.token, j.uuid, stamp, (s.move now position count j).1⟩ = false := by
  rw [Bool.eq_false_iff, ne_eq, isQueued_iff]
  exact move_ne_queued now position count h

end Batch
end FleetControl
