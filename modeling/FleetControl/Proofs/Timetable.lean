import Mathlib.Algebra.Order.Floor.Div
import Mathlib.GroupTheory.GroupAction.Ring
import FleetControl.Proofs.Waiting

/-!
When a wait polls. The first poll starts at once, and every other one an interval after the answer before
it or at the deadline, so there are only so many of them; and a wait is given up at the deadline alone,
when its last poll has not brought a settled state by then.
-/
namespace FleetControl.Waiter

variable {w : Waiter} {reply? : Nat → Option Reply} {deadline start now n : Nat} {r : Vigil Ending}

theorem verdict_eq_some {answer : Except ApiError String} {result : Except WaitError Unit}
    (h : w.verdict answer = some result) :
    ∃ state, answer = .ok state ∧ w.Settles (.ok state) ∧
      result = if state = w.target then .ok () else .error (.failed state) := by
  cases answer with
  | error e => simp [verdict] at h
  | ok state =>
    refine ⟨state, rfl, ?_⟩
    by_cases ht : state = w.target
    · simp only [verdict, ht, if_true, Option.some.injEq] at h ⊢
      exact ⟨.inl rfl, h.symm⟩
    · by_cases hf : state ∈ w.failureStates
      · simp only [verdict, ht, hf, if_true, if_false, Option.some.injEq] at h ⊢
        exact ⟨.inr hf, h.symm⟩
      · simp [verdict, ht, hf] at h

theorem Waits.poll_zero (h : Waits w reply? deadline n now r) :
    r.polls[0]? = if n + 1 < counterEnd then some now else none := by
  cases h with
  | uncounted hcount => rw [if_neg (Nat.not_lt.mpr hcount)]; rfl
  | unanswered hcount | settled hcount | expired hcount | unwoken hcount | again hcount =>
    rw [if_pos hcount]
    rfl

/-- When the poll after poll `n` starts, which is answered at `answered` and settles nothing, or why it
does not. -/
def next (w : Waiter) (deadline n answered : Nat) : Except Overflow Nat :=
  if answered + w.interval < clockEnd then
    if n + 2 < counterEnd then .ok (min (answered + w.interval) deadline) else .error .counter
  else .error .wake

def Leads (w : Waiter) (reply? : Nat → Option Reply) (deadline n p : Nat) (next : Except Overflow Nat) :
    Prop :=
  ∃ a, reply? n = some a ∧ p + a.delay < deadline ∧ ¬ w.Settles a.answer ∧
    next = w.next deadline n (p + a.delay)

theorem leads_iff {a : Reply} {next : Except Overflow Nat} (ha : reply? n = some a)
    (hlt : now + a.delay < deadline) (hv : w.verdict a.answer = none) :
    w.Leads reply? deadline n now next ↔ next = w.next deadline n (now + a.delay) := by
  constructor
  · rintro ⟨b, hb, _, _, rfl⟩
    obtain rfl := Option.some.inj (ha.symm.trans hb)
    rfl
  · rintro rfl
    exact ⟨a, ha, hlt, verdict_eq_none_iff.mp hv, rfl⟩

theorem not_leads_of_late (hlate : ∀ a, reply? n = some a → deadline ≤ now + a.delay)
    (next : Except Overflow Nat) : ¬ w.Leads reply? deadline n now next := by
  rintro ⟨a, ha, hlt, _⟩
  exact Nat.not_lt.mpr (hlate a ha) hlt

theorem not_leads_of_expired {a : Reply} (ha : reply? n = some a) (heq : now + a.delay = deadline)
    (next : Except Overflow Nat) : ¬ w.Leads reply? deadline n now next := by
  apply not_leads_of_late
  intro b hb
  obtain rfl := Option.some.inj (ha.symm.trans hb)
  exact Nat.le_of_eq heq.symm

theorem not_leads_of_settled {a : Reply} {result : Except WaitError Unit} (ha : reply? n = some a)
    (hv : w.verdict a.answer = some result) (next : Except Overflow Nat) :
    ¬ w.Leads reply? deadline n now next := by
  rintro ⟨b, hb, _, hsettles, _⟩
  obtain rfl := Option.some.inj (ha.symm.trans hb)
  rw [← verdict_eq_none_iff, hv] at hsettles
  cases hsettles

theorem single_poll (h : ∀ t, ¬ w.Leads reply? deadline n now (.ok t)) (k t : Nat) :
    [now][k + 1]? = some t ↔ ∃ p, [now][k]? = some p ∧ w.Leads reply? deadline (n + k) p (.ok t) := by
  cases k with
  | zero => simp [h t]
  | succ k => simp

theorem single_break (o : Overflow) :
    (∃ k p, [now].length = k + 1 ∧ [now][k]? = some p ∧ w.Leads reply? deadline (n + k) p (.error o)) ↔
      w.Leads reply? deadline n now (.error o) := by
  constructor
  · rintro ⟨k, p, hlen, hp, hleads⟩
    obtain rfl : k = 0 := by simpa using hlen.symm
    obtain rfl := Option.some.inj hp
    exact hleads
  · exact fun hleads => ⟨0, now, rfl, rfl, hleads⟩

theorem single_whole {result : Except WaitError Unit} {o : Overflow}
    (h : ¬ w.Leads reply? deadline n now (.error o)) :
    (.ok result : Ending) = .error o ↔
      ∃ k p, [now].length = k + 1 ∧ [now][k]? = some p ∧ w.Leads reply? deadline (n + k) p (.error o) :=
  ⟨nofun, fun hbreak => absurd ((single_break o).mp hbreak) h⟩

theorem Waits.poll_succ (h : Waits w reply? deadline n now r) (k t : Nat) :
    r.polls[k + 1]? = some t ↔ ∃ p, r.polls[k]? = some p ∧ w.Leads reply? deadline (n + k) p (.ok t) := by
  induction h generalizing k with
  | uncounted _ => simp
  | unanswered _ hlate =>
    exact single_poll (fun _ => not_leads_of_late (fun a ha => Nat.le_of_lt (hlate a ha)) _) k t
  | settled _ ha _ hv => exact single_poll (fun _ => not_leads_of_settled ha hv _) k t
  | expired _ ha heq _ => exact single_poll (fun _ => not_leads_of_expired ha heq _) k t
  | unwoken _ ha hlt hv hwake =>
    refine single_poll (fun t => ?_) k t
    rw [leads_iff ha hlt hv, next, if_neg (Nat.not_lt.mpr hwake)]
    nofun
  | @again n now a r _ ha hlt hv hwake hr ih =>
    cases k with
    | zero =>
      change r.polls[0]? = some t ↔ ∃ p, some now = some p ∧ w.Leads reply? deadline n p (.ok t)
      simp only [Option.some.injEq, exists_eq_left']
      rw [hr.poll_zero, leads_iff ha hlt hv, next, if_pos hwake]
      by_cases hcount : n + 2 < counterEnd
      · simp [hcount, eq_comm]
      · simp [hcount]
    | succ k =>
      have hsucc := ih k
      rw [Nat.add_right_comm] at hsucc
      exact hsucc

theorem Waits.eq_of_uncounted (h : Waits w reply? deadline n now r) (hmany : ¬ n + 1 < counterEnd) :
    r = ⟨.error .counter, now, [], []⟩ := by
  cases h with
  | uncounted _ => rfl
  | unanswered hmore | settled hmore | expired hmore | unwoken hmore | again hmore => exact absurd hmore hmany

theorem Waits.breaks (h : Waits w reply? deadline n now r) (hcount : n + 1 < counterEnd) (o : Overflow) :
    r.result = .error o ↔
      ∃ k p, r.polls.length = k + 1 ∧ r.polls[k]? = some p ∧ w.Leads reply? deadline (n + k) p (.error o) := by
  induction h with
  | uncounted hmany => exact absurd hcount (Nat.not_lt.mpr hmany)
  | unanswered _ hlate => exact single_whole (not_leads_of_late (fun a ha => Nat.le_of_lt (hlate a ha)) _)
  | settled _ ha _ hv => exact single_whole (not_leads_of_settled ha hv _)
  | expired _ ha heq _ => exact single_whole (not_leads_of_expired ha heq _)
  | unwoken _ ha hlt hv hwake =>
    refine Iff.trans ?_ (single_break o).symm
    rw [leads_iff ha hlt hv, next, if_neg (Nat.not_lt.mpr hwake)]
    simp [Vigil.polled, Vigil.noted, eq_comm]
  | @again n now a r _ ha hlt hv hwake hr ih =>
    by_cases hroom : n + 2 < counterEnd
    · rw [show (Vigil.polled now (.noted (now + a.delay) (failure? a.answer) r)).result = r.result from rfl,
        ih hroom]
      constructor
      · rintro ⟨k, p, hlen, hp, hleads⟩
        rw [Nat.add_right_comm] at hleads
        exact ⟨k + 1, p, congrArg (· + 1) hlen, hp, hleads⟩
      · rintro ⟨k, p, hlen, hp, hleads⟩
        cases k with
        | zero =>
          obtain rfl := Option.some.inj hp
          rw [Nat.add_zero, leads_iff ha hlt hv, next, if_pos hwake, if_pos hroom] at hleads
          cases hleads
        | succ k =>
          rw [← Nat.add_assoc, Nat.add_right_comm] at hleads
          exact ⟨k, p, Nat.succ.inj hlen, hp, hleads⟩
    · -- The next poll cannot be counted, so that nothing follows.
      obtain rfl := hr.eq_of_uncounted hroom
      refine Iff.trans ?_ (single_break o).symm
      rw [leads_iff ha hlt hv, next, if_pos hwake, if_neg hroom]
      simp [Vigil.polled, Vigil.noted, eq_comm]

theorem Waits.timedOut {target : String} (h : Waits w reply? deadline n now r) (hnow : now ≤ deadline)
    (he : r.result = .ok (.error (.timedOut target))) :
    r.finish = deadline ∧ ∃ k p, r.polls.length = k + 1 ∧ r.polls[k]? = some p ∧ p ≤ deadline ∧
      ∀ a, reply? (n + k) = some a →
        deadline < p + a.delay ∨ p + a.delay = deadline ∧ ¬ w.Settles a.answer := by
  induction h with
  | uncounted _ => cases he
  | @unanswered n now _ hlate => exact ⟨rfl, 0, now, rfl, rfl, hnow, fun a ha => .inl (hlate a ha)⟩
  | settled _ _ _ hv =>
    obtain ⟨state, _, _, hresult⟩ := verdict_eq_some hv
    simp only [Vigil.polled, hresult] at he
    split at he <;> cases he
  | @expired n now a _ ha heq hv =>
    refine ⟨rfl, 0, now, rfl, rfl, hnow, ?_⟩
    intro b hb
    obtain rfl := Option.some.inj (ha.symm.trans hb)
    exact .inr ⟨heq, verdict_eq_none_iff.mp hv⟩
  | unwoken _ _ _ _ _ => cases he
  | @again n now a r _ _ _ _ _ _ ih =>
    obtain ⟨hfinish, k, p, hlen, hp, hle, hlast⟩ := ih (Nat.min_le_right _ _) he
    refine ⟨hfinish, k + 1, p, congrArg (· + 1) hlen, hp, hle, ?_⟩
    rw [Nat.add_right_comm] at hlast
    exact hlast

theorem ceilDiv_rest {i d p now : Nat} (hi : 0 < i) (hp : now ≤ p) (hlt : p < d) :
    (d - min (p + i) d) ⌈/⌉ i + 1 ≤ (d - now) ⌈/⌉ i := by
  have hcover : d - now ≤ i * ((d - now) ⌈/⌉ i) := (ceilDiv_le_iff_le_mul hi).mp (Nat.le_refl _)
  generalize (d - now) ⌈/⌉ i = q at hcover ⊢
  cases q with
  | zero => omega
  | succ q =>
    have hrest : (d - min (p + i) d) ⌈/⌉ i ≤ q := by
      rw [ceilDiv_le_iff_le_mul hi]
      rw [Nat.mul_succ] at hcover
      omega
    omega

theorem Waits.length_polls (hinterval : 0 < w.interval) (h : Waits w reply? deadline n now r) :
    r.polls.length ≤ (deadline - now) ⌈/⌉ w.interval + 1 := by
  induction h with
  | uncounted _ => exact Nat.zero_le _
  | @again n now a r _ ha hlt hv _ hr ih =>
    have hrest := ceilDiv_rest hinterval (Nat.le_add_right now a.delay) hlt
    simp only [Vigil.polled, Vigil.noted, List.length_cons]
    omega
  | _ => simp [Vigil.polled, Vigil.noted]

/-- A wait from `start` on has room for its deadline, for its latest wake and for as many polls as it may make. -/
structure Fits (w : Waiter) (start : Nat) : Prop where
  deadline : start + w.timeout < clockEnd
  wake : 0 < w.timeout → start + w.timeout + w.interval ≤ clockEnd
  counter : w.timeout ⌈/⌉ w.interval + 1 < counterEnd

theorem Waits.returns (hinterval : 0 < w.interval) (h : Waits w reply? deadline n now r)
    (hcount : n + (deadline - now) ⌈/⌉ w.interval + 1 < counterEnd)
    (hwake : now < deadline → deadline + w.interval ≤ clockEnd) : ∃ result, r.result = .ok result := by
  -- The polls that are still to come leave the counter as much room as the one that is made takes.
  induction h with
  | uncounted hmany => omega
  | unanswered _ _ | settled _ _ _ _ | expired _ _ _ _ => exact ⟨_, rfl⟩
  | @unwoken n now a _ _ hlt _ hlate =>
    have hroom := hwake (by omega)
    omega
  | @again n now a r _ _ hlt _ _ _ ih =>
    have hrest := ceilDiv_rest hinterval (Nat.le_add_right now a.delay) hlt
    exact ih (by omega) fun _ => hwake (by omega)

theorem Fits.returns (hfits : w.Fits start) (hinterval : 0 < w.interval)
    (h : Waits w reply? (start + w.timeout) 0 start r) : ∃ result, r.result = .ok result := by
  have hcounter := hfits.counter
  refine h.returns hinterval ?_ ?_
  · rw [Nat.add_sub_cancel_left]
    omega
  · intro hlt
    exact hfits.wake (by omega)

/-- The whole timetable of a wait that is not cancelled, also of one that breaks off. -/
theorem wait_keeps_timetable (w : Waiter) (reply? : Nat → Option Reply) (start : Nat)
    (hinterval : 0 < w.interval) (hclock : (w.deadline? start).isSome) :
    let deadline := start + w.timeout
    ∃ r, w.run? .checked reply? none start = some r ∧ r.finish ≤ deadline ∧ r.polls[0]? = some start ∧
      (∀ k t, r.polls[k + 1]? = some t ↔
        ∃ p, r.polls[k]? = some p ∧ w.Leads reply? deadline k p (.ok t)) ∧
      (∀ o, r.result = .error o ↔ ∃ k p, r.polls.length = k + 1 ∧ r.polls[k]? = some p ∧
        w.Leads reply? deadline k p (.error o)) ∧
      r.polls.length ≤ w.timeout ⌈/⌉ w.interval + 1 ∧
      (∀ target, r.result = .ok (.error (.timedOut target)) →
        r.finish = deadline ∧ ∃ k p, r.polls.length = k + 1 ∧ r.polls[k]? = some p ∧ p ≤ deadline ∧
          ∀ a, reply? k = some a →
            deadline < p + a.delay ∨ p + a.delay = deadline ∧ ¬ w.Settles a.answer) ∧
      (w.Fits start → ∃ result, r.result = .ok result) := by
  intro deadline
  have hstart : start ≤ deadline := Nat.le_add_right _ _
  have hfirst : 0 + 1 < counterEnd := by decide
  obtain ⟨r, hr, hrun⟩ := exists_run hinterval hclock reply?
  have hzero := hr.poll_zero
  have hlen := hr.length_polls hinterval
  have hsucc := hr.poll_succ
  have hbreaks := hr.breaks hfirst
  rw [if_pos hfirst] at hzero
  rw [Nat.add_sub_cancel_left] at hlen
  simp only [Nat.zero_add] at hsucc hbreaks
  refine ⟨r, hrun, hr.finish_le hstart, hzero, hsucc, hbreaks, hlen, ?_, fun hfits => hfits.returns hinterval hr⟩
  intro target he
  have htimedOut := hr.timedOut hstart he
  simp only [Nat.zero_add] at htimedOut
  exact htimedOut

theorem berth_keeps_timetable :
    0 < berth.interval ∧ (berth.deadline? 0).isSome ∧ berth.Fits 0 ∧
      ∃ r, berth.run? .checked berthScript.reply? none 0 = some r ∧ r.finish ≤ 18 ∧ r.polls[0]? = some 0 ∧
        r.polls[1]? = some 8 ∧ r.polls[2]? = some 17 ∧ r.polls.length ≤ 18 ⌈/⌉ 5 + 1 ∧
        ∃ result, r.result = .ok result := by
  have hfits : berth.Fits 0 := ⟨by decide, by decide, by rw [Nat.ceilDiv_eq_add_pred_div]; decide⟩
  obtain ⟨r, hrun, hfinish, hzero, hsucc, _, hlen, _, hreturns⟩ :=
    wait_keeps_timetable berth berthScript.reply? 0 (by decide) (by decide)
  have hone : r.polls[1]? = some 8 :=
    (hsucc 0 8).mpr ⟨0, hzero, ⟨3, .ok "stopped"⟩, rfl, by decide, by simp [Settles, berth], rfl⟩
  have htwo : r.polls[2]? = some 17 :=
    (hsucc 1 17).mpr ⟨8, hone, ⟨4, .error (.transport "")⟩, rfl, by decide, by simp [Settles], rfl⟩
  exact ⟨by decide, by decide, hfits, r, hrun, hfinish, hzero, hone, htwo, hlen, hreturns hfits⟩

end FleetControl.Waiter
