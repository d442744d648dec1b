import FleetControl.Proofs.Moves

/-!
The course of a resource that nothing else has a part in, from the request on. A course that starts later
is the same course, everything in it being later by as much, as long as the clock goes far enough.
-/
namespace FleetControl

namespace Watch

def later (d : Nat) : Watch → Watch
  | polling arrival => polling (arrival.map fun a => (a.1 + d, a.2))
  | resting t => resting (t + d)

theorem due_later (deadline d : Nat) (watch : Watch) :
    (watch.later d).due (deadline + d) = watch.due deadline + d := by
  cases watch with
  | polling arrival =>
    cases arrival with
    | none => rfl
    | some a => exact Nat.add_min_add_right _ _ _
  | resting t => rfl

theorem later_poll (now d : Nat) (reply : Option Reply) :
    (Watch.poll now reply).later d = Watch.poll (now + d) reply := by
  cases reply with
  | none => rfl
  | some r => simp [poll, later, Nat.add_right_comm]

end Watch

def Turn.later (d : Nat) : Turn → Turn
  | polls => polls
  | rests wake failure => rests (wake + d) failure
  | ends ending failure => ends ending failure

theorem Waiter.turn_later (w : Waiter) (deadline now count d : Nat) (watch : Watch) :
    w.turn .exact (deadline + d) (now + d) count (watch.later d) =
      (w.turn .exact deadline now count watch).later d := by
  cases watch with
  | resting t => rfl
  | polling arrival =>
    cases arrival with
    | none => rfl
    | some a =>
      obtain ⟨t, answer⟩ := a
      have hmin : min (now + d + w.interval) (deadline + d) = min (now + w.interval) deadline + d := by
        omega
      simp only [Watch.later, Option.map_some, Waiter.turn, Arithmetic.names, Nat.add_lt_add_iff_right,
        Nat.add_le_add_iff_right, hmin, if_true]
      by_cases ht : deadline < t
      · simp [ht, Turn.later]
      · rw [if_neg ht, if_neg ht]
        cases w.verdict answer with
        | some result => rfl
        | none => by_cases hd : deadline ≤ now <;> simp [hd, Turn.later]

namespace Batch

def Phase.later (d : Nat) : Phase → Phase
  | queued => queued
  | sending t fate => sending (t + d) fate
  | watching deadline watch record => watching (deadline + d) (watch.later d) record
  | ended r => ended r

@[simp] theorem Phase.later_zero (phase : Phase) : phase.later 0 = phase := by
  cases phase with
  | watching deadline watch record =>
    cases watch with
    | polling arrival => cases arrival <;> rfl
    | resting t => rfl
  | _ => rfl

theorem Phase.later_eq_ended_iff {phase : Phase} {d : Nat} {r : Result} :
    phase.later d = ended r ↔ phase = ended r := by
  cases phase <;> simp [later]

theorem Phase.later_eq_queued_iff {phase : Phase} {d : Nat} :
    phase.later d = queued ↔ phase = queued := by
  cases phase <;> simp [later]

theorem Phase.later_eq_sending_iff {phase : Phase} {d t : Nat} {fate : Fate} :
    phase.later d = sending t fate ↔ ∃ u, phase = sending u fate ∧ u + d = t := by
  cases phase with
  | sending u known =>
    simp only [later, sending.injEq]
    constructor
    · rintro ⟨rfl, rfl⟩
      exact ⟨u, ⟨rfl, rfl⟩, rfl⟩
    · rintro ⟨_, ⟨rfl, rfl⟩, rfl⟩
      exact ⟨rfl, rfl⟩
  | _ => simp [later]

theorem Phase.hasEnded_later (phase : Phase) (d : Nat) :
    Floor.hasEnded (phase.later d) = Floor.hasEnded phase := by
  cases phase <;> rfl

variable {s : Setup} {now position count d n start call : Nat} {token uuid : String} {phase : Phase} {j : Job}

def Setup.steady (s : Setup) : Setup := { s with cancelAt := fun _ => none }

theorem Setup.due?_later (h : s.cancelAt position = none) (phase : Phase) (d : Nat) :
    s.due? position (phase.later d) = (s.steady.due? 0 phase).map (· + d) := by
  cases phase with
  | watching deadline watch record => simp [due?, Phase.later, steady, h, Watch.due_later]
  | _ => rfl

def Setup.Represents (s : Setup) : Phase → Prop
  | .sending t (.ok _) => ∀ w, s.waiter = some w → (w.deadline? t).isSome
  | _ => True

theorem deadline?_add {w : Waiter} (h : (w.deadline? (now + d)).isSome) :
    w.deadline? now = some (now + w.timeout) ∧ w.deadline? (now + d) = some (now + w.timeout + d) := by
  unfold Waiter.deadline? at h ⊢
  by_cases hlt : now + d + w.timeout < clockEnd
  · have hlt' : now + w.timeout < clockEnd := by omega
    simp [hlt, hlt', Nat.add_right_comm]
  · simp [hlt] at h

theorem Setup.move_later (stamp : Nat) (h : s.cancelAt position = none)
    (hdue : s.steady.due? 0 phase = some now) (hcalm : ∀ t text, phase ≠ .sending t (.panic text))
    (hfits : position = 0 ∧ d = 0 ∨ s.Represents (phase.later d)) :
    s.move (now + d) position count ⟨token, uuid, stamp, phase.later d⟩ =
      ((s.steady.move now 0 count ⟨token, uuid, 0, phase⟩).1.later d,
        (s.steady.move now 0 count ⟨token, uuid, 0, phase⟩).2) := by
  cases phase with
  | queued => rfl
  | ended r => rfl
  | sending t fate =>
    obtain rfl : t = now := Option.some.inj hdue
    cases fate with
    | panic text => exact absurd rfl (hcalm t text)
    | error e => rfl
    | ok record =>
      cases hw : s.waiter with
      | none => simp [move, Phase.later, afterAnswer, steady, hw, message]
      | some w =>
        obtain ⟨rfl, rfl⟩ | hfits := hfits
        · cases hdeadline : w.deadline? t <;>
            simp [move, Phase.later, Watch.later, afterAnswer, steady, hw, message, aborted, hdeadline]
        · obtain ⟨hnow, hlater⟩ := deadline?_add (hfits w hw)
          simp [move, Phase.later, Watch.later, afterAnswer, steady, hw, message, hnow, hlater]
  | watching deadline watch record =>
    cases hw : s.waiter with
    | none => simp [move, Phase.later, steady, h, hw]
    | some w =>
      simp only [move, Phase.later, steady, h, hw, Option.filter_none, Option.isSome_none,
        Bool.false_eq_true, if_false, Waiter.turn_later]
      cases hturn : w.turn .exact deadline now count watch with
      | polls => simp [Turn.later, Watch.later_poll]
      | rests wake failure => simp [Turn.later, Watch.later]
      | ends ending failure =>
        obtain ⟨result, rfl⟩ := Waiter.turn_exact_ends hturn
        cases result <;> simp [Turn.later, afterWait, message]

def Phase.Sound : Phase → Prop
  | watching deadline (.resting wake) _ => wake ≤ deadline
  | _ => True

theorem Setup.move_onTime (count : Nat) (h : s.cancelAt position = none) (hs : j.phase.Sound)
    (hdue : s.due? position j.phase = some now) :
    (s.move now position count j).1.Sound ∧
      ∀ t, s.due? position (s.move now position count j).1 = some t → now ≤ t := by
  have hm := moves_move (s := s) now position count (isRunning_of_due hdue)
  generalize s.move now position count j = m at hm ⊢
  obtain ⟨phase, whats⟩ := m
  cases hm with
  | waits hp hw hd =>
    obtain rfl := Waiter.deadline?_eq hd
    simp [Phase.Sound, due?, h, Watch.due]
  | polls hp _ hw ht =>
    obtain ⟨wake, rfl⟩ := Waiter.turn_polls ht
    rw [hp] at hs hdue
    have hwake : wake = now := by simpa [due?, h, Watch.due] using hdue
    refine ⟨trivial, ?_⟩
    simp only [Phase.Sound] at hs
    simp only [due?, h, Option.map_none, Option.getD_none, Option.some.injEq, forall_eq']
    cases s.cloud.poll s.command.kind j.uuid count with
    | none => simp only [Watch.poll, Option.map_none, Watch.due]; omega
    | some r => simp only [Watch.poll, Option.map_some, Watch.due]; omega
  | rests hp _ hw ht =>
    obtain ⟨_, hlt, rfl⟩ := Waiter.turn_rests ht
    refine ⟨Nat.min_le_right _ _, ?_⟩
    simp only [due?, h, Option.map_none, Option.getD_none, Option.some.injEq, forall_eq', Watch.due]
    omega
  | _ => exact ⟨trivial, fun t ht => by simp [due?] at ht⟩

def Phase.Watches : Phase → Prop
  | watching _ _ _ => True
  | _ => False

theorem Phase.watches_later (d : Nat) : (phase.later d).Watches ↔ phase.Watches := by
  cases phase <;> rfl

theorem Setup.move_steady (now count : Nat) (h : j.phase.Watches → ¬ s.cancels now position) :
    s.move now position count j = s.steady.move now position count j := by
  cases hp : j.phase with
  | watching deadline watch record =>
    have hc : ¬ s.cancels now position := h (by rw [hp]; trivial)
    have hs : ¬ s.steady.cancels now position := by
      rintro ⟨t, ht, _⟩
      cases ht
    simp only [move, hp]
    rw [if_neg (mt cancels_iff.mp hc), if_neg (mt cancels_iff.mp hs)]
    rfl
  | sending t fate =>
    simp only [move, hp]
    cases fate <;> rfl
  | _ => simp [move, hp]

theorem Setup.due?_eq_steady (h : s.cancelAt position = none) (phase : Phase) :
    s.due? position phase = s.steady.due? position phase := by
  cases phase <;> simp [due?, steady, h]

theorem Setup.move_cancelled (count : Nat) (h : j.phase.Watches) (hc : s.cancels now position) :
    (s.move now position count j).1 = .ended (.error (.wait j.token .cancelled)) := by
  cases hp : j.phase with
  | watching deadline watch record =>
    simp only [move, hp]
    rw [if_pos (cancels_iff.mpr hc)]
    rfl
  | _ => simp [hp, Phase.Watches] at h

theorem Setup.due?_le_steady {u : Nat} (h : s.steady.due? position phase = some u) :
    ∃ t, s.due? position phase = some t ∧ t ≤ u := by
  cases phase with
  | queued => cases h
  | ended r => cases h
  | sending t fate => exact ⟨u, h, Nat.le_refl u⟩
  | watching deadline watch record =>
    obtain rfl : watch.due deadline = u := Option.some.inj h
    cases hc : s.cancelAt position with
    | none => exact ⟨_, by simp [due?, hc], Nat.le_refl _⟩
    | some t => exact ⟨_, by simp [due?, hc], Nat.min_le_left _ t⟩

theorem Setup.moves_steadily_or_cancelled {time : Nat} (hdue : s.due? position j.phase = some time)
    (honTime : ∀ u, s.steady.due? position j.phase = some u → now ≤ u) :
    (s.steady.due? position j.phase = some (max now time) ∧
        (j.phase.Watches → ¬ s.cancels (max now time) position)) ∨
      (j.phase.Watches ∧ s.cancels (max now time) position ∧
        ∃ u, s.steady.due? position j.phase = some u ∧ max now time ≤ u) := by
  cases hp : j.phase with
  | queued => simp [hp, due?] at hdue
  | ended r => simp [hp, due?] at hdue
  | sending t fate =>
    rw [hp] at hdue honTime
    obtain rfl : t = time := Option.some.inj hdue
    exact .inl ⟨by rw [Nat.max_eq_right (honTime t rfl)]; rfl, fun h => h.elim⟩
  | watching deadline watch record =>
    rw [hp] at hdue honTime
    have hnow : now ≤ watch.due deadline := honTime _ rfl
    by_cases hc : s.cancels (max now time) position
    · have hsteady : s.steady.due? position (.watching deadline watch record) = some _ := rfl
      obtain ⟨t, ht, hle⟩ := due?_le_steady hsteady
      obtain rfl := Option.some.inj (hdue.symm.trans ht)
      exact .inr ⟨trivial, hc, _, rfl, Nat.max_le.mpr ⟨hnow, hle⟩⟩
    · have heq := eq_due_of_not_cancels hdue (Nat.le_max_right now time) hc
      refine .inl ⟨?_, fun _ => hc⟩
      rw [heq, Nat.max_eq_right hnow]
      rfl

structure Stage where
  phase : Phase
  polls : Nat

namespace Setup

def onward (s : Setup) (token uuid : String) (a : Stage) : Stage :=
  match s.steady.due? 0 a.phase with
  | none => a
  | some now =>
    let (phase, whats) := s.steady.move now 0 a.polls ⟨token, uuid, 0, a.phase⟩
    ⟨phase, a.polls + whats.countP Floor.isPolled⟩

def course (s : Setup) (call : Nat) (token uuid : String) (start : Nat) : Nat → Stage
  | 0 =>
    let change := s.cloud.change call (s.command.request uuid)
    ⟨.sending (start + change.delay) change.fate, 0⟩
  | n + 1 => s.onward token uuid (s.course call token uuid start n)

theorem due?_eq_none_iff : s.due? position phase = none ↔ phase = .queued ∨ Floor.hasEnded phase := by
  cases phase <;> simp [due?, Floor.hasEnded]

theorem onward_of_idle {a : Stage} (h : s.steady.due? 0 a.phase = none) : s.onward token uuid a = a := by
  simp [onward, h]

theorem onward_of_due {a : Stage} (h : s.steady.due? 0 a.phase = some now) :
    s.onward token uuid a =
      ⟨(s.steady.move now 0 a.polls ⟨token, uuid, 0, a.phase⟩).1,
        a.polls + (s.steady.move now 0 a.polls ⟨token, uuid, 0, a.phase⟩).2.countP Floor.isPolled⟩ := by
  simp [onward, h]

theorem course_congr {other : Nat} (h : s.cloud.change call (s.command.request uuid) =
    s.cloud.change other (s.command.request uuid)) (n : Nat) :
    s.course call token uuid start n = s.course other token uuid start n := by
  induction n with
  | zero => rw [course, course, h]
  | succ n ih => rw [course, course, ih]

theorem course_not_queued (n : Nat) : (s.course call token uuid start n).phase ≠ .queued := by
  induction n with
  | zero => simp [course]
  | succ n ih =>
    rw [course]
    cases hdue : s.steady.due? 0 (s.course call token uuid start n).phase with
    | none => rwa [onward_of_idle hdue]
    | some now =>
      rw [onward_of_due hdue]
      exact move_ne_queued _ _ _ (isRunning_of_due hdue)

theorem course_sending {t : Nat} {fate : Fate}
    (h : (s.course call token uuid start n).phase = .sending t fate) :
    fate = (s.cloud.change call (s.command.request uuid)).fate := by
  induction n generalizing t fate with
  | zero => exact (Phase.sending.inj h).2.symm
  | succ n ih =>
    rw [course] at h
    cases hdue : s.steady.due? 0 (s.course call token uuid start n).phase with
    | none => exact ih (onward_of_idle hdue ▸ h)
    | some now =>
      rw [onward_of_due hdue] at h
      exact absurd h (move_ne_sending _ _ _ (isRunning_of_due hdue) t fate)

theorem course_ended {r : Result} (h : (s.course call token uuid start n).phase = .ended r) (k : Nat) :
    (s.course call token uuid start (n + k)).phase = .ended r := by
  induction k with
  | zero => exact h
  | succ k ih =>
    have hdue : s.steady.due? 0 (s.course call token uuid start (n + k)).phase = none := by rw [ih]; rfl
    rw [← Nat.add_assoc, course, onward_of_idle hdue]
    exact ih

theorem course_sound (n : Nat) : (s.course call token uuid start n).phase.Sound := by
  induction n with
  | zero => trivial
  | succ n ih =>
    rw [course]
    cases hdue : s.steady.due? 0 (s.course call token uuid start n).phase with
    | none => rwa [onward_of_idle hdue]
    | some now =>
      rw [onward_of_due hdue]
      exact (move_onTime (j := ⟨token, uuid, 0, _⟩) _ rfl ih hdue).1

theorem course_watches (h : (s.course call token uuid start n).phase.Watches) :
    (∃ w, s.waiter = some w) ∧
      ∃ record, (s.cloud.change call (s.command.request uuid)).fate = .ok record := by
  induction n with
  | zero => exact h.elim
  | succ n ih =>
    rw [course] at h
    cases hdue : s.steady.due? 0 (s.course call token uuid start n).phase with
    | none => exact ih (onward_of_idle hdue ▸ h)
    | some now =>
      rw [onward_of_due hdue] at h
      have hm := moves_move (s := s.steady) (j := ⟨token, uuid, 0, _⟩) now 0
        (s.course call token uuid start n).polls (isRunning_of_due hdue)
      generalize s.steady.move now 0 _ _ = m at hm h
      obtain ⟨phase, whats⟩ := m
      cases hm with
      | waits hp hw _ => exact ⟨⟨_, hw⟩, _, (course_sending hp).symm⟩
      | polls hp _ _ _ | rests hp _ _ _ =>
        apply ih
        have hphase : (s.course call token uuid start n).phase = _ := hp
        rw [hphase]
        trivial
      | _ => exact h.elim

def reachedAt (s : Setup) (call : Nat) (token uuid : String) (start : Nat) : Nat → Nat
  | 0 => start
  | n + 1 =>
    (s.steady.due? 0 (s.course call token uuid start n).phase).getD (s.reachedAt call token uuid start n)

theorem reachedAt_succ {t : Nat} (h : s.steady.due? 0 (s.course call token uuid start n).phase = some t) :
    s.reachedAt call token uuid start (n + 1) = t := by
  rw [reachedAt, h]
  rfl

end Setup

namespace Moves

variable {whats : List Happening}

theorem ne_nil (h : Moves s now position count j phase whats) (hended : Floor.hasEnded phase)
    (hcalm : ∀ t text, j.phase ≠ .sending t (.panic text))
    (hwaiter : j.phase.Watches → ∃ w, s.waiter = some w) : whats ≠ [] := by
  cases h with
  | panics hp => exact absurd hp (hcalm _ _)
  | aimless hp _ hw =>
    obtain ⟨w, hw'⟩ := hwaiter (by rw [hp]; trivial)
    rw [hw] at hw'
    cases hw'
  | waits | polls | rests => cases hended
  | _ => simp

theorem watches_of_ended {w : Waiter} {record : Option FleetControl.Record}
    (h : Moves s now position count j phase whats) (hended : Floor.hasEnded phase)
    (hdue : s.steady.due? position j.phase = some now) (hfits : s.Represents j.phase)
    (hwaiter : s.waiter = some w) (hok : ∀ t fate, j.phase = .sending t fate → fate = .ok record) :
    j.phase.Watches := by
  cases h with
  | panics hp | refused hp => cases hok _ _ hp
  | accepted _ hw => simp [hwaiter] at hw
  | overflows hp hw hd =>
    rw [hp] at hdue hfits
    obtain rfl := Option.some.inj hdue
    have hclock := hfits _ hw
    simp [hd] at hclock
  | waits | polls | rests => cases hended
  | cancelled hp _ | aimless hp _ _ | succeeds hp _ _ _ | fails hp _ _ _ => rw [hp]; trivial

end Moves
end Batch
end FleetControl
