import FleetControl.Proofs.Room

/-!
What decides a wait. If nothing settled, the polls would start when `pollAt` says; the first of their
answers that arrives by the deadline and settles is the one that ends the wait. Without such an answer
the wait is given up, or breaks off if its arithmetic overflows first.
-/
namespace FleetControl.Waiter

variable {w : Waiter} {reply? : Nat → Option Reply} {start now m n t u : Nat} {state : String}
  {o : Overflow} {r : Vigil Ending}

def pollAt (w : Waiter) (reply? : Nat → Option Reply) (start : Nat) : Nat → Option Nat
  | 0 => some start
  | n + 1 => do
    let p ← w.pollAt reply? start n
    let a ← reply? n
    if p + a.delay < start + w.timeout then (w.next (start + w.timeout) n (p + a.delay)).toOption else none

structure Settled (w : Waiter) (reply? : Nat → Option Reply) (start n t : Nat) (state : String) : Prop where
  answered : ∃ p d, w.pollAt reply? start n = some p ∧ reply? n = some ⟨d, .ok state⟩ ∧ t = p + d
  inTime : t ≤ start + w.timeout
  settles : w.Settles (.ok state)

structure Decides (w : Waiter) (reply? : Nat → Option Reply) (start n t : Nat) (state : String) : Prop where
  settled : w.Settled reply? start n t state
  first : ∀ m < n, ∀ t state, ¬ w.Settled reply? start m t state

theorem Settled.unique {state' : String} (h : w.Settled reply? start n t state)
    (h' : w.Settled reply? start n u state') : t = u ∧ state = state' := by
  obtain ⟨p, d, hp, ha, rfl⟩ := h.answered
  obtain ⟨p', d', hp', ha', rfl⟩ := h'.answered
  rw [hp] at hp'
  rw [ha] at ha'
  cases hp'
  cases ha'
  exact ⟨rfl, rfl⟩

theorem Decides.unique {state' : String} (h : w.Decides reply? start n t state)
    (h' : w.Decides reply? start m u state') : n = m ∧ t = u ∧ state = state' := by
  obtain rfl : n = m := by
    rcases Nat.lt_trichotomy n m with hlt | heq | hlt
    · exact absurd h.settled (h'.first n hlt _ _)
    · exact heq
    · exact absurd h'.settled (h.first m hlt _ _)
  exact ⟨rfl, h.settled.unique h'.settled⟩

theorem settled_iff {a : Reply} (hp : w.pollAt reply? start n = some now) (ha : reply? n = some a) :
    w.Settled reply? start n t state ↔
      t = now + a.delay ∧ a.answer = .ok state ∧ now + a.delay ≤ start + w.timeout ∧
        w.Settles a.answer := by
  obtain ⟨d, answer⟩ := a
  constructor
  · rintro ⟨⟨p, d', hp', ha', rfl⟩, hle, hs⟩
    rw [hp] at hp'
    rw [ha] at ha'
    cases hp'
    cases ha'
    exact ⟨rfl, rfl, hle, hs⟩
  · rintro ⟨rfl, rfl, hle, hs⟩
    exact ⟨⟨now, d, hp, ha, rfl⟩, hle, hs⟩

theorem pollAt_none (h : w.pollAt reply? start n = none) (k : Nat) :
    w.pollAt reply? start (n + k) = none := by
  induction k with
  | zero => exact h
  | succ k ih => rw [← Nat.add_assoc, pollAt, ih]; rfl

theorem not_settled_of_pollAt (h : w.pollAt reply? start (n + 1) = none) (hm : n < m) :
    ¬ w.Settled reply? start m t state := by
  rintro ⟨⟨p, _, hp, _⟩, _⟩
  obtain ⟨k, rfl⟩ := Nat.exists_eq_add_of_le hm
  rw [pollAt_none h] at hp
  contradiction

/-- Poll `n` leads to no other because of an overflow. -/
def Breaks (w : Waiter) (reply? : Nat → Option Reply) (start n : Nat) (o : Overflow) : Prop :=
  ∃ p, w.pollAt reply? start n = some p ∧ w.Leads reply? (start + w.timeout) n p (.error o)

theorem pollAt_succ {a : Reply} (hp : w.pollAt reply? start n = some now) (ha : reply? n = some a)
    (hlt : now + a.delay < start + w.timeout) :
    w.pollAt reply? start (n + 1) = (w.next (start + w.timeout) n (now + a.delay)).toOption := by
  rw [pollAt, hp, ha]
  exact if_pos hlt

theorem Breaks.pollAt_succ (h : w.Breaks reply? start n o) : w.pollAt reply? start (n + 1) = none := by
  obtain ⟨p, hp, a, ha, hlt, _, hnext⟩ := h
  rw [Waiter.pollAt_succ hp ha hlt, ← hnext]
  rfl

theorem Breaks.unique {o' : Overflow} (h : w.Breaks reply? start n o) (h' : w.Breaks reply? start m o') :
    o = o' := by
  have hle {i j : Nat} {a b : Overflow} (hi : w.Breaks reply? start i a) (hj : w.Breaks reply? start j b) :
      j ≤ i := by
    apply Nat.le_of_not_lt
    intro hlt
    obtain ⟨k, rfl⟩ := Nat.exists_eq_add_of_le hlt
    obtain ⟨p, hp, _⟩ := hj
    rw [pollAt_none hi.pollAt_succ] at hp
    cases hp
  obtain rfl := Nat.le_antisymm (hle h' h) (hle h h')
  obtain ⟨p, hp, a, ha, _, _, hnext⟩ := h
  obtain ⟨p', hp', a', ha', _, _, hnext'⟩ := h'
  obtain rfl := Option.some.inj (hp.symm.trans hp')
  obtain rfl := Option.some.inj (ha.symm.trans ha')
  exact Except.error.inj (hnext.trans hnext'.symm)

inductive Comes (w : Waiter) (reply? : Nat → Option Reply) (start n : Nat) (r : Vigil Ending) : Prop
  | decided {m t : Nat} {state : String} : n ≤ m → w.Settled reply? start m t state →
    (∀ l, n ≤ l → l < m → ∀ t state, ¬ w.Settled reply? start l t state) →
    (r.result = .ok (if state = w.target then .ok () else .error (.failed state))) →
    r.finish = t → n + r.polls.length = m + 1 → Comes w reply? start n r
  | undecided : (∀ m, n ≤ m → ∀ t state, ¬ w.Settled reply? start m t state) →
    (∀ m, n ≤ m → ∀ o, ¬ w.Breaks reply? start m o) →
    r.result = .ok (.error (.timedOut w.target)) → Comes w reply? start n r
  | broken {m : Nat} {o : Overflow} : (∀ m, n ≤ m → ∀ t state, ¬ w.Settled reply? start m t state) →
    w.Breaks reply? start m o → r.result = .error o → Comes w reply? start n r

theorem not_settled_from (hself : ∀ t state, ¬ w.Settled reply? start n t state)
    (hnext : w.pollAt reply? start (n + 1) = none) (hm : n ≤ m) : ¬ w.Settled reply? start m t state := by
  rcases Nat.eq_or_lt_of_le hm with rfl | hlt
  · exact hself t state
  · exact not_settled_of_pollAt hnext hlt

theorem not_breaks_from (hself : ∀ o, ¬ w.Breaks reply? start n o)
    (hnext : w.pollAt reply? start (n + 1) = none) (hm : n ≤ m) : ¬ w.Breaks reply? start m o := by
  rcases Nat.eq_or_lt_of_le hm with rfl | hlt
  · exact hself o
  · rintro ⟨p, hp, _⟩
    obtain ⟨k, rfl⟩ := Nat.exists_eq_add_of_le hlt
    rw [pollAt_none hnext] at hp
    cases hp

theorem pollAt_succ_late (hp : w.pollAt reply? start n = some now)
    (hlate : ∀ a, reply? n = some a → start + w.timeout ≤ now + a.delay) :
    w.pollAt reply? start (n + 1) = none ∧ ∀ o, ¬ w.Breaks reply? start n o := by
  constructor
  · rw [pollAt, hp]
    cases ha : reply? n with
    | none => rfl
    | some a => exact if_neg (Nat.not_lt.mpr (hlate a ha))
  · rintro o ⟨p, hp', hleads⟩
    obtain rfl := Option.some.inj (hp.symm.trans hp')
    exact not_leads_of_late hlate _ hleads

theorem Waits.comes (h : Waits w reply? (start + w.timeout) n now r)
    (hp : w.pollAt reply? start n = some now) (hcount : n + 1 < counterEnd) : w.Comes reply? start n r := by
  induction h with
  | uncounted hmany => exact absurd hcount (Nat.not_lt.mpr hmany)
  | @unanswered n now _ hlate =>
    obtain ⟨hnext, hself⟩ := pollAt_succ_late hp fun a ha => Nat.le_of_lt (hlate a ha)
    refine .undecided (fun m hm t state => not_settled_from ?_ hnext hm)
      (fun m hm o => not_breaks_from hself hnext hm) rfl
    intro t state hs
    obtain ⟨p, d, hp', ha, rfl⟩ := hs.answered
    obtain rfl := Option.some.inj (hp.symm.trans hp')
    exact Nat.not_lt.mpr hs.inTime (hlate _ ha)
  | @settled n now a result _ ha hle hv =>
    obtain ⟨state, hanswer, hs, hresult⟩ := verdict_eq_some hv
    refine .decided (Nat.le_refl n) ((settled_iff hp ha).mpr ⟨rfl, hanswer, hle, hanswer ▸ hs⟩) ?_
      (congrArg Except.ok hresult) rfl rfl
    intro l hl hlt
    omega
  | @expired n now a _ ha heq hv =>
    have hlate (b : Reply) (hb : reply? n = some b) : start + w.timeout ≤ now + b.delay := by
      obtain rfl := Option.some.inj (ha.symm.trans hb)
      exact Nat.le_of_eq heq.symm
    obtain ⟨hnext, hself⟩ := pollAt_succ_late hp hlate
    refine .undecided (fun m hm t state => not_settled_from ?_ hnext hm)
      (fun m hm o => not_breaks_from hself hnext hm) rfl
    intro t state hs
    exact verdict_eq_none_iff.mp hv ((settled_iff hp ha).mp hs).2.2.2
  | @unwoken n now a _ ha hlt hv hwake =>
    have hbreaks : w.Breaks reply? start n .wake := by
      refine ⟨now, hp, (leads_iff ha hlt hv).mpr ?_⟩
      rw [next, if_neg (Nat.not_lt.mpr hwake)]
    refine .broken (fun m hm t state => not_settled_from ?_ hbreaks.pollAt_succ hm) hbreaks rfl
    intro t state hs
    exact verdict_eq_none_iff.mp hv ((settled_iff hp ha).mp hs).2.2.2
  | @again n now a r _ ha hlt hv hwake hr ih =>
    have hself (t : Nat) (state : String) : ¬ w.Settled reply? start n t state := fun hs =>
      verdict_eq_none_iff.mp hv ((settled_iff hp ha).mp hs).2.2.2
    have hnext := pollAt_succ hp ha hlt
    by_cases hroom : n + 2 < counterEnd
    · rw [next, if_pos hwake, if_pos hroom] at hnext
      have hfrom {P : Nat → Prop} (hn : P n) (hrest : ∀ m, n + 1 ≤ m → P m) (m : Nat) (hm : n ≤ m) : P m := by
        rcases Nat.eq_or_lt_of_le hm with rfl | hlt
        · exact hn
        · exact hrest m hlt
      cases ih hnext hroom with
      | @decided m t state hm hs hfirst hresult hfinish hlen =>
        refine .decided (Nat.le_of_succ_le hm) hs ?_ hresult hfinish ?_
        · exact hfrom (fun _ => hself) hfirst
        · simp only [Vigil.polled, Vigil.noted, List.length_cons]
          omega
      | undecided hnone hwhole hresult =>
        refine .undecided (hfrom hself hnone) (hfrom ?_ hwhole) hresult
        rintro o hbreaks
        rw [hbreaks.pollAt_succ] at hnext
        cases hnext
      | broken hnone hbreaks hresult => exact .broken (hfrom hself hnone) hbreaks hresult
    · obtain rfl := hr.eq_of_uncounted hroom
      have hbreaks : w.Breaks reply? start n .counter := by
        refine ⟨now, hp, (leads_iff ha hlt hv).mpr ?_⟩
        rw [next, if_pos hwake, if_neg hroom]
      exact .broken (fun m hm t state => not_settled_from hself hbreaks.pollAt_succ hm) hbreaks rfl

namespace Comes

theorem decides (h : w.Comes reply? start 0 r) :
    (∃ m t state, w.Decides reply? start m t state ∧
      r.result = .ok (if state = w.target then .ok () else .error (.failed state)) ∧
      r.finish = t ∧ r.polls.length = m + 1) ∨
    ∀ n t state, ¬ w.Settled reply? start n t state := by
  cases h with
  | @decided m t state _ hs hfirst hresult hfinish hlen =>
    exact .inl ⟨m, t, state, ⟨hs, fun l hl => hfirst l (Nat.zero_le l) hl⟩, hresult, hfinish, by omega⟩
  | undecided hnone | broken hnone => exact .inr fun n => hnone n (Nat.zero_le n)

theorem verdict (h : w.Comes reply? start 0 r) (hd : w.Decides reply? start n t state) :
    r.result = .ok (if state = w.target then .ok () else .error (.failed state)) ∧
      r.finish = t ∧ r.polls.length = n + 1 := by
  obtain ⟨m, u, state', hd', hresult⟩ | hnone := h.decides
  · obtain ⟨rfl, rfl, rfl⟩ := hd.unique hd'
    exact hresult
  · exact absurd hd.settled (hnone n t state)

theorem unsettled (h : w.Comes reply? start 0 r) (hnone : ∀ n t state, ¬ w.Settled reply? start n t state) :
    (r.result = .ok (.error (.timedOut w.target)) ∧ ∀ n o, ¬ w.Breaks reply? start n o) ∨
      ∃ n o, w.Breaks reply? start n o ∧ r.result = .error o := by
  cases h with
  | @decided m t state _ hs => exact absurd hs (hnone m t state)
  | undecided _ hwhole hresult => exact .inl ⟨hresult, fun n => hwhole n (Nat.zero_le n)⟩
  | @broken m o _ hbreaks hresult => exact .inr ⟨m, o, hbreaks, hresult⟩

theorem ok_iff (h : w.Comes reply? start 0 r) :
    r.result = .ok (.ok ()) ↔ ∃ n t, w.Decides reply? start n t w.target := by
  constructor
  · intro hok
    obtain ⟨m, t, state, hd, hresult, _⟩ | hnone := h.decides
    · by_cases ht : state = w.target
      · exact ⟨m, t, ht ▸ hd⟩
      · rw [hresult, if_neg ht] at hok
        cases hok
    · obtain ⟨hresult, _⟩ | ⟨_, _, _, hresult⟩ := h.unsettled hnone <;> cases hresult.symm.trans hok
  · rintro ⟨n, t, hd⟩
    rw [(h.verdict hd).1, if_pos rfl]

theorem failed_iff (h : w.Comes reply? start 0 r) (state : String) :
    r.result = .ok (.error (.failed state)) ↔
      state ≠ w.target ∧ ∃ n t, w.Decides reply? start n t state := by
  constructor
  · intro hfailed
    obtain ⟨m, t, state', hd, hresult, _⟩ | hnone := h.decides
    · by_cases ht : state' = w.target
      · rw [hresult, if_pos ht] at hfailed
        cases hfailed
      · rw [hresult, if_neg ht] at hfailed
        cases hfailed
        exact ⟨ht, m, t, hd⟩
    · obtain ⟨hresult, _⟩ | ⟨_, _, _, hresult⟩ := h.unsettled hnone <;> cases hresult.symm.trans hfailed
  · rintro ⟨ht, n, t, hd⟩
    rw [(h.verdict hd).1, if_neg ht]

theorem not_settled_of_result (h : w.Comes reply? start 0 r)
    (hresult : ∀ state, r.result ≠ .ok (if state = w.target then .ok () else .error (.failed state))) :
    ∀ n t state, ¬ w.Settled reply? start n t state := by
  obtain ⟨_, _, state, _, hdecided, _⟩ | hnone := h.decides
  · exact absurd hdecided (hresult state)
  · exact hnone

theorem timedOut_iff (h : w.Comes reply? start 0 r) :
    r.result = .ok (.error (.timedOut w.target)) ↔
      (∀ n t state, ¬ w.Settled reply? start n t state) ∧ ∀ n o, ¬ w.Breaks reply? start n o := by
  constructor
  · intro hlate
    have hnone := h.not_settled_of_result fun state => by
      rw [hlate]
      by_cases ht : state = w.target <;> simp [ht]
    obtain ⟨_, hwhole⟩ | ⟨_, _, _, hresult⟩ := h.unsettled hnone
    · exact ⟨hnone, hwhole⟩
    · cases hresult.symm.trans hlate
  · rintro ⟨hnone, hwhole⟩
    obtain ⟨hresult, _⟩ | ⟨n, o, hbreaks, _⟩ := h.unsettled hnone
    · exact hresult
    · exact absurd hbreaks (hwhole n o)

theorem error_iff (h : w.Comes reply? start 0 r) (o : Overflow) :
    r.result = .error o ↔
      (∀ n t state, ¬ w.Settled reply? start n t state) ∧ ∃ n, w.Breaks reply? start n o := by
  constructor
  · intro herror
    have hnone := h.not_settled_of_result fun state => by
      rw [herror]
      exact nofun
    obtain ⟨hresult, _⟩ | ⟨n, o', hbreaks, hresult⟩ := h.unsettled hnone
    · cases hresult.symm.trans herror
    · obtain rfl := Except.error.inj (hresult.symm.trans herror)
      exact ⟨hnone, n, hbreaks⟩
  · rintro ⟨hnone, n, hbreaks⟩
    obtain ⟨_, hwhole⟩ | ⟨_, o', hbreaks', hresult⟩ := h.unsettled hnone
    · exact absurd hbreaks (hwhole n o)
    · rw [hresult, hbreaks.unique hbreaks']

end Comes

theorem Waits.pollAt (h : Waits w reply? (start + w.timeout) 0 start r) {k p : Nat}
    (hk : r.polls[k]? = some p) : w.pollAt reply? start k = some p := by
  induction k generalizing p with
  | zero => rw [← hk, h.poll_zero, if_pos (by decide)]; rfl
  | succ k ih =>
    obtain ⟨q, hq, a, ha, hlt, _, hnext⟩ := (h.poll_succ k p).mp hk
    rw [Nat.zero_add] at ha hnext
    rw [pollAt_succ (ih hq) ha hlt, ← hnext]
    rfl

/-- A target that is also a failure state counts as the target. -/
theorem first_settled_answer_decides (w : Waiter) (reply? : Nat → Option Reply) (start : Nat)
    (hinterval : 0 < w.interval) (hclock : (w.deadline? start).isSome) :
    ∃ r, w.run? .checked reply? none start = some r ∧
      (r.result = .ok (.ok ()) ↔ ∃ n t, w.Decides reply? start n t w.target) ∧
      (∀ state, r.result = .ok (.error (.failed state)) ↔
        state ≠ w.target ∧ ∃ n t, w.Decides reply? start n t state) ∧
      (r.result = .ok (.error (.timedOut w.target)) ↔
        (∀ n t state, ¬ w.Settled reply? start n t state) ∧ ∀ n o, ¬ w.Breaks reply? start n o) ∧
      (∀ o, r.result = .error o ↔
        (∀ n t state, ¬ w.Settled reply? start n t state) ∧ ∃ n, w.Breaks reply? start n o) ∧
      (∀ n t state, w.Decides reply? start n t state →
        r.finish = t ∧ r.polls.length = n + 1 ∧ ∀ p ∈ r.polls, p ≤ t) ∧
      (∀ k p, r.polls[k]? = some p → w.pollAt reply? start k = some p) ∧
      (w.Fits start → ∃ result, r.result = .ok result) := by
  obtain ⟨r, hr, hrun⟩ := exists_run hinterval hclock reply?
  have hcomes := hr.comes rfl (by decide)
  refine ⟨r, hrun, hcomes.ok_iff, hcomes.failed_iff, hcomes.timedOut_iff, hcomes.error_iff, ?_,
    fun _ _ => hr.pollAt, fun hfits => hfits.returns hinterval hr⟩
  intro n t state hd
  obtain ⟨_, rfl, hlen⟩ := hcomes.verdict hd
  exact ⟨rfl, hlen, hr.polls_le (Nat.le_add_right _ _)⟩

theorem berth_decided_at_deadline :
    0 < berth.interval ∧ (berth.deadline? 0).isSome ∧ berth.Decides berthScript.reply? 0 2 18 "started" ∧
      ∃ r, berth.run? .checked berthScript.reply? none 0 = some r ∧ r.result = .ok (.ok ()) ∧
        r.finish = 18 ∧ r.polls.length = 3 := by
  have hd : berth.Decides berthScript.reply? 0 2 18 "started" := by
    refine ⟨⟨⟨17, 1, rfl, rfl, rfl⟩, Nat.le_refl _, .inl rfl⟩, ?_⟩
    intro m hm t state hs
    obtain ⟨p, d, _, ha, _⟩ := hs.answered
    have hsettles := hs.settles
    obtain rfl | rfl : m = 0 ∨ m = 1 := by omega
    · have hstopped : some (Reply.mk 3 (.ok "stopped")) = some ⟨d, .ok state⟩ := ha
      cases hstopped
      simp [Settles, berth] at hsettles
    · have hrefused : some (Reply.mk 4 (.error (.transport ""))) = some ⟨d, .ok state⟩ := ha
      cases hrefused
  obtain ⟨r, hrun, hok, _, _, _, hend, _⟩ :=
    first_settled_answer_decides berth berthScript.reply? 0 (by decide) (by decide)
  obtain ⟨hfinish, hlen, _⟩ := hend 2 18 "started" hd
  exact ⟨by decide, by decide, hd, r, hrun, hok.mpr ⟨2, 18, hd⟩, hfinish, hlen⟩

/-- One wait rests for longer than the clock goes on, although its next answer would settle it at the deadline;
another, of which nothing settles, is to make more polls than the counter holds. Neither returns. -/
theorem overflow_decides_nothing :
    (∃ w : Waiter, ∃ script : PollScript, w = ⟨"started", ["error"], clockEnd, 120000⟩ ∧
      script = [some ⟨0, .ok "maintenance"⟩, some ⟨0, .ok "started"⟩] ∧ 0 < w.interval ∧
      (w.deadline? 0).isSome ∧ w.run? .checked script.reply? none 0 = some ⟨.error .wake, 0, [0], []⟩) ∧
    ∃ w : Waiter, ∃ script : PollScript, w = ⟨"started", [], 1, Nat.pow 2 32⟩ ∧
      script = [some ⟨0, .error (.transport "")⟩] ∧ 0 < w.interval ∧ (w.deadline? 0).isSome ∧
      (∀ n t state, ¬ w.Settled script.reply? 0 n t state) ∧
      ∃ r, w.run? .checked script.reply? none 0 = some r ∧ r.result = .error .counter := by
  refine ⟨⟨_, _, rfl, rfl, by decide, by decide, ?_⟩, ⟨_, _, rfl, rfl, by decide, by decide, ?_, ?_⟩⟩
  · have hunwoken : Waits ⟨"started", ["error"], clockEnd, 120000⟩
        (PollScript.reply? [some ⟨0, .ok "maintenance"⟩, some ⟨0, .ok "started"⟩]) (0 + 120000) 0 0 _ :=
      .unwoken (a := ⟨0, .ok "maintenance"⟩) (by decide) rfl (by decide) rfl (Nat.le_add_left _ _)
    exact run?_eq_cut (by decide) hunwoken none
  · rintro n t state ⟨⟨p, d, _, ha, _⟩, _, _⟩
    have hrefused : some (Reply.mk 0 (.error (.transport ""))) = some ⟨d, .ok state⟩ := by
      rw [← ha, PollScript.reply?]
      simp
    cases hrefused
  · have hscript : PollScript.reply? [some ⟨0, .error (.transport "")⟩] = refusing 0 := by
      funext n
      simp [PollScript.reply?, refusing]
    rw [hscript]
    exact run?_crowded (by decide) (by decide) (by rw [Nat.ceilDiv_eq_add_pred_div]; decide)

end FleetControl.Waiter
