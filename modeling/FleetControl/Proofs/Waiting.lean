import FleetControl.Wait

/-!
Waits poll by poll. A wait that rests for some time after each poll comes to an end, and what it comes
to without a cancellation tells what it comes to with one.
-/
namespace FleetControl.Waiter

variable {w : Waiter} {arithmetic : Arithmetic} {reply? : Nat → Option Reply} {cancelAt : Option Nat}
  {deadline now n c t start : Nat} {watch : Watch} {failure : Option ApiError}
  {answer : Except ApiError String} {r : Vigil Ending} {trail : Trail}

def Settles (w : Waiter) : Except ApiError String → Prop
  | .ok state => state = w.target ∨ state ∈ w.failureStates
  | .error _ => False

theorem verdict_eq_none_iff : w.verdict answer = none ↔ ¬ w.Settles answer := by
  cases answer with
  | error e => simp [verdict, Settles]
  | ok state =>
    by_cases ht : state = w.target
    · simp [verdict, Settles, ht]
    · by_cases hf : state ∈ w.failureStates <;> simp [verdict, Settles, ht, hf]

theorem turn_late (ht : deadline < t) :
    w.turn arithmetic deadline now n (.polling (some (t, answer))) =
      .ends (.ok (.error (.timedOut w.target))) none := by
  simp only [turn, if_pos ht]

theorem turn_settled {result : Except WaitError Unit} (ht : ¬ deadline < t)
    (hv : w.verdict answer = some result) :
    w.turn arithmetic deadline now n (.polling (some (t, answer))) = .ends (.ok result) none := by
  simp only [turn, if_neg ht, hv]

theorem turn_expired (ht : ¬ deadline < t) (hv : w.verdict answer = none) (hd : deadline ≤ now) :
    w.turn arithmetic deadline now n (.polling (some (t, answer))) =
      .ends (.ok (.error (.timedOut w.target))) (failure? answer) := by
  simp only [turn, if_neg ht, hv, if_pos hd]

theorem turn_wakes (ht : ¬ deadline < t) (hv : w.verdict answer = none) (hd : ¬ deadline ≤ now) :
    w.turn arithmetic deadline now n (.polling (some (t, answer))) =
      if arithmetic.names (now + w.interval) then .rests (min (now + w.interval) deadline) (failure? answer)
      else .ends (.error .wake) (failure? answer) := by
  simp only [turn, if_neg ht, hv, if_neg hd]

end FleetControl.Waiter

namespace FleetControl.Vigil

variable {α : Type} {t c now : Nat} {cancelAt : Option Nat}

def polled (now : Nat) (r : Vigil α) : Vigil α := { r with polls := now :: r.polls }

def noted (now : Nat) (failure : Option ApiError) (r : Vigil α) : Vigil α :=
  { r with failures := (failure.map fun e => (now, e)).toList ++ r.failures }

structure Since (t : Nat) (r : Vigil α) : Prop where
  polls : ∀ p ∈ r.polls, t ≤ p
  failures : ∀ f ∈ r.failures, t ≤ f.1
  finish : t ≤ r.finish

theorem since_end (result : α) (t : Nat) : Since t (⟨result, t, [], []⟩ : Vigil α) :=
  ⟨by simp, by simp, Nat.le_refl _⟩

namespace Since

variable {r : Vigil α}

theorem mono {u : Nat} (h : r.Since t) (hu : u ≤ t) : r.Since u :=
  ⟨fun p hp => Nat.le_trans hu (h.polls p hp), fun f hf => Nat.le_trans hu (h.failures f hf),
    Nat.le_trans hu h.finish⟩

theorem polled (h : r.Since t) : (r.polled t).Since t := by
  refine ⟨?_, h.failures, h.finish⟩
  intro p hp
  rcases List.mem_cons.mp hp with rfl | hp
  · exact Nat.le_refl _
  · exact h.polls p hp

theorem noted (h : r.Since t) (failure : Option ApiError) : (r.noted t failure).Since t := by
  refine ⟨h.polls, ?_, h.finish⟩
  intro f hf
  rcases List.mem_append.mp hf with hf | hf
  · obtain ⟨e, _, rfl⟩ := Option.map_eq_some_iff.mp (Option.mem_toList.mp hf)
    exact Nat.le_refl _
  · exact h.failures f hf

end Since

def cut (r : Vigil Ending) : Option Nat → Vigil Ending
  | none => r
  | some c =>
    if r.finish < c then r
    else ⟨.ok (.error .cancelled), c, r.polls.filter (· < c), r.failures.filter (·.1 < c)⟩

theorem Since.cut {r : Vigil Ending} (h : r.Since t) (hc : cancelAt.filter (· ≤ t) = some c) :
    r.cut cancelAt = ⟨.ok (.error .cancelled), c, [], []⟩ := by
  obtain ⟨rfl, hle⟩ : cancelAt = some c ∧ c ≤ t := by simpa [Option.filter_eq_some_iff] using hc
  have hpolls : r.polls.filter (· < c) = [] := by
    simp only [List.filter_eq_nil_iff, decide_eq_true_eq, Nat.not_lt]
    exact fun p hp => Nat.le_trans hle (h.polls p hp)
  have hfailures : r.failures.filter (·.1 < c) = [] := by
    simp only [List.filter_eq_nil_iff, decide_eq_true_eq, Nat.not_lt]
    exact fun f hf => Nat.le_trans hle (h.failures f hf)
  have hfinish := h.finish
  simp only [Vigil.cut, if_neg (show ¬ r.finish < c by omega), hpolls, hfailures]

theorem lt_of_filter (hc : cancelAt.filter (· ≤ t) = none) (h : cancelAt = some c) : t < c := by
  simpa [h] using hc

theorem cut_polled (hc : cancelAt.filter (· ≤ t) = none) (r : Vigil Ending) :
    (r.polled t).cut cancelAt = (r.cut cancelAt).polled t := by
  cases hcancel : cancelAt with
  | none => rfl
  | some c =>
    have hlt := lt_of_filter hc hcancel
    by_cases hf : r.finish < c <;> simp [cut, polled, hf, hlt]

theorem cut_noted (hc : cancelAt.filter (· ≤ t) = none) (failure : Option ApiError) (r : Vigil Ending) :
    (r.noted t failure).cut cancelAt = (r.cut cancelAt).noted t failure := by
  cases hcancel : cancelAt with
  | none => rfl
  | some c =>
    have hlt := lt_of_filter hc hcancel
    cases failure <;> by_cases hf : r.finish < c <;> simp [cut, noted, hf, hlt]

theorem cut_of_finish {r : Vigil Ending} (hc : cancelAt.filter (· ≤ r.finish) = none) : r.cut cancelAt = r := by
  cases hcancel : cancelAt with
  | none => rfl
  | some c => exact if_pos (lt_of_filter hc hcancel)

end FleetControl.Vigil

namespace FleetControl.Trail

def before (trail : Trail) (r : Vigil Ending) : Vigil Ending :=
  ⟨r.result, r.finish, trail.polls.reverse ++ r.polls, trail.failures.reverse ++ r.failures⟩

@[simp] theorem before_empty (r : Vigil Ending) : empty.before r = r := rfl

theorem before_polled (trail : Trail) (now : Nat) (r : Vigil Ending) :
    (trail.polled now).before r = trail.before (r.polled now) := by
  simp [before, polled, Vigil.polled]

theorem before_noted (trail : Trail) (now : Nat) (failure : Option ApiError) (r : Vigil Ending) :
    (trail.noted now failure).before r = trail.before (r.noted now failure) := by
  cases failure <;> simp [before, noted, Vigil.noted]

theorem close_eq_before (trail : Trail) (ending : Ending) (finish : Nat) :
    trail.close ending finish = trail.before ⟨ending, finish, [], []⟩ := by
  simp [close, before]

end FleetControl.Trail

namespace FleetControl.Waiter

open Vigil

variable {w : Waiter} {arithmetic : Arithmetic} {reply? : Nat → Option Reply} {cancelAt : Option Nat}
  {deadline now n c t start : Nat} {watch : Watch} {failure : Option ApiError} {r : Vigil Ending}
  {trail : Trail}

/-- The rest of a wait that is not cancelled and whose poll `n` is to start now. -/
inductive Waits (w : Waiter) (reply? : Nat → Option Reply) (deadline : Nat) :
    (n now : Nat) → Vigil Ending → Prop
  | uncounted {n now : Nat} : counterEnd ≤ n + 1 →
    Waits w reply? deadline n now ⟨.error .counter, now, [], []⟩
  | unanswered {n now : Nat} : n + 1 < counterEnd → (∀ a, reply? n = some a → deadline < now + a.delay) →
    Waits w reply? deadline n now (.polled now ⟨.ok (.error (.timedOut w.target)), deadline, [], []⟩)
  | settled {n now : Nat} {a : Reply} {result : Except WaitError Unit} : n + 1 < counterEnd →
    reply? n = some a → now + a.delay ≤ deadline → w.verdict a.answer = some result →
    Waits w reply? deadline n now (.polled now ⟨.ok result, now + a.delay, [], []⟩)
  | expired {n now : Nat} {a : Reply} : n + 1 < counterEnd → reply? n = some a →
    now + a.delay = deadline → w.verdict a.answer = none →
    Waits w reply? deadline n now
      (.polled now
        (.noted deadline (failure? a.answer) ⟨.ok (.error (.timedOut w.target)), deadline, [], []⟩))
  | unwoken {n now : Nat} {a : Reply} : n + 1 < counterEnd → reply? n = some a →
    now + a.delay < deadline → w.verdict a.answer = none → clockEnd ≤ now + a.delay + w.interval →
    Waits w reply? deadline n now
      (.polled now (.noted (now + a.delay) (failure? a.answer) ⟨.error .wake, now + a.delay, [], []⟩))
  | again {n now : Nat} {a : Reply} {r : Vigil Ending} : n + 1 < counterEnd → reply? n = some a →
    now + a.delay < deadline → w.verdict a.answer = none → now + a.delay + w.interval < clockEnd →
    Waits w reply? deadline (n + 1) (min (now + a.delay + w.interval) deadline) r →
    Waits w reply? deadline n now (.polled now (.noted (now + a.delay) (failure? a.answer) r))

theorem exists_waits (hinterval : 0 < w.interval) (reply? : Nat → Option Reply) (n : Nat)
    (hnow : now ≤ deadline) : ∃ r, Waits w reply? deadline n now r := by
  -- Each poll before the deadline brings the next one nearer to it.
  generalize hk : deadline - now = k
  induction k using Nat.strongRecOn generalizing n now with
  | ind k ih =>
    rcases Nat.lt_or_ge (n + 1) counterEnd with hcount | hcount
    · by_cases hlate : ∀ a, reply? n = some a → deadline < now + a.delay
      · exact ⟨_, .unanswered hcount hlate⟩
      · obtain ⟨a, ha, hle⟩ : ∃ a, reply? n = some a ∧ now + a.delay ≤ deadline := by
          simpa using hlate
        cases hv : w.verdict a.answer with
        | some result => exact ⟨_, .settled hcount ha hle hv⟩
        | none =>
          rcases Nat.eq_or_lt_of_le hle with heq | hlt
          · exact ⟨_, .expired hcount ha heq hv⟩
          · rcases Nat.lt_or_ge (now + a.delay + w.interval) clockEnd with hwake | hwake
            · obtain ⟨r, hr⟩ := ih (deadline - min (now + a.delay + w.interval) deadline) (by omega)
                (n + 1) (Nat.min_le_right _ _) rfl
              exact ⟨_, .again hcount ha hlt hv hwake hr⟩
            · exact ⟨_, .unwoken hcount ha hlt hv hwake⟩
    · exact ⟨_, .uncounted hcount⟩

theorem Waits.since (h : Waits w reply? deadline n now r) (hnow : now ≤ deadline) : r.Since now := by
  induction h with
  | uncounted _ => exact since_end _ _
  | unanswered _ _ => exact ((since_end _ _).mono hnow).polled
  | settled _ _ _ _ => exact ((since_end _ _).mono (Nat.le_add_right _ _)).polled
  | expired _ _ _ _ => exact (((since_end _ _).noted _).mono hnow).polled
  | unwoken _ _ _ _ _ => exact (((since_end _ _).noted _).mono (Nat.le_add_right _ _)).polled
  | @again n now a r _ _ hlt _ _ _ ih =>
    have hrest : r.Since (now + a.delay) := (ih (Nat.min_le_right _ _)).mono (by omega)
    exact ((hrest.noted _).mono (Nat.le_add_right _ _)).polled

theorem Waits.polls_le (h : Waits w reply? deadline n now r) (hnow : now ≤ deadline) :
    ∀ p ∈ r.polls, p ≤ r.finish := by
  have hfinish := (h.since hnow).finish
  intro p hp
  induction h with
  | uncounted _ => cases hp
  | again _ _ _ _ _ hr ih =>
    rcases List.mem_cons.mp hp with rfl | hp
    · exact hfinish
    · exact ih (Nat.min_le_right _ _) (hr.since (Nat.min_le_right _ _)).finish hp
  | _ =>
    obtain rfl : p = _ := by simpa [polled, noted] using hp
    exact hfinish

theorem Waits.finish_le (h : Waits w reply? deadline n now r) (hnow : now ≤ deadline) :
    r.finish ≤ deadline := by
  induction h with
  | uncounted _ => exact hnow
  | unanswered _ _ | expired _ _ _ _ => exact Nat.le_refl _
  | settled _ _ hle _ => exact hle
  | unwoken _ _ hlt _ _ => exact Nat.le_of_lt hlt
  | again _ _ _ _ _ _ ih => exact ih (Nat.min_le_right _ _)

theorem go_cancelled (h : cancelAt.filter (· ≤ watch.due deadline) = some c) :
    w.go arithmetic reply? cancelAt deadline n watch trail =
      some (trail.before ⟨.ok (.error .cancelled), c, [], []⟩) := by
  rw [go]
  simp only [h, Trail.close_eq_before]

theorem go_resting (hcount : n + 1 < counterEnd) (hr : r.Since now)
    (h : ∀ trail, w.go .checked reply? cancelAt deadline (n + 1) (Watch.poll now (reply? n)) trail =
      some (trail.before (r.cut cancelAt))) :
    w.go .checked reply? cancelAt deadline n (.resting now) trail =
      some (trail.before ((r.polled now).cut cancelAt)) := by
  have hcounts : Arithmetic.checked.counts (n + 1) = true := decide_eq_true hcount
  have hdue : (Watch.resting now).due deadline = now := rfl
  cases hc : cancelAt.filter (· ≤ (Watch.resting now).due deadline) with
  | some c => rw [go_cancelled hc, hr.polled.cut hc]
  | none =>
    rw [go]
    simp only [hc, turn, hcounts, if_true]
    rw [hdue] at hc ⊢
    rw [h, Trail.before_polled, cut_polled hc]

theorem go_ends {ending : Ending} (failure : Option ApiError) (hdue : watch.due deadline = t)
    (hturn : w.turn .checked deadline t n watch = .ends ending failure) :
    w.go .checked reply? cancelAt deadline n watch trail =
      some (trail.before ((noted t failure ⟨ending, t, [], []⟩).cut cancelAt)) := by
  subst hdue
  cases hc : cancelAt.filter (· ≤ watch.due deadline) with
  | some c => rw [go_cancelled hc, ((since_end _ _).noted _).cut hc]
  | none =>
    rw [go, cut_noted hc, cut_of_finish hc]
    simp only [hc, hturn, Trail.close_eq_before, Trail.before_noted]

theorem go_rests {wake : Nat} (hdue : watch.due deadline = t) (hr : r.Since t)
    (hturn : w.turn .checked deadline t n watch = .rests wake failure)
    (h : ∀ trail, w.go .checked reply? cancelAt deadline n (.resting wake) trail =
      some (trail.before (r.cut cancelAt))) :
    w.go .checked reply? cancelAt deadline n watch trail =
      some (trail.before ((r.noted t failure).cut cancelAt)) := by
  subst hdue
  cases hc : cancelAt.filter (· ≤ watch.due deadline) with
  | some c => rw [go_cancelled hc, (hr.noted _).cut hc]
  | none =>
    rw [go, cut_noted hc]
    simp only [hc, hturn, h, Trail.before_noted]

theorem Waits.go (h : Waits w reply? deadline n now r) (hnow : now ≤ deadline) (cancelAt : Option Nat)
    (trail : Trail) :
    w.go .checked reply? cancelAt deadline n (.resting now) trail =
      some (trail.before (r.cut cancelAt)) := by
  -- Nothing depends on the trail, which is longer after each poll.
  induction h generalizing trail with
  | uncounted hcount =>
    refine go_ends none rfl (if_neg ?_)
    simpa [Arithmetic.counts] using hcount
  | @unanswered n now hcount hlate =>
    apply go_resting hcount ((since_end _ _).mono hnow)
    intro trail
    cases ha : reply? n with
    | none => exact go_ends none rfl rfl
    | some a =>
      have hlt := hlate a ha
      have hdue : (Watch.poll now (some a)).due deadline = deadline := Nat.min_eq_right (Nat.le_of_lt hlt)
      exact go_ends none hdue (turn_late hlt)
  | @settled n now a result hcount ha hle hv =>
    have hdue : (Watch.poll now (some a)).due deadline = now + a.delay := Nat.min_eq_left hle
    apply go_resting hcount ((since_end _ _).mono (Nat.le_add_right _ _))
    intro trail
    rw [ha]
    exact go_ends none hdue (turn_settled (Nat.not_lt.mpr hle) hv)
  | @expired n now a hcount ha heq hv =>
    have hdue : (Watch.poll now (some a)).due deadline = deadline := by simp [Watch.poll, Watch.due, heq]
    refine go_resting hcount (((since_end _ _).noted _).mono hnow) ?_
    intro trail
    rw [ha]
    exact go_ends _ hdue (turn_expired (by omega) hv (Nat.le_refl _))
  | @unwoken n now a hcount ha hlt hv hwake =>
    have hdue : (Watch.poll now (some a)).due deadline = now + a.delay :=
      Nat.min_eq_left (Nat.le_of_lt hlt)
    have hnot : Arithmetic.checked.names (now + a.delay + w.interval) = false :=
      decide_eq_false (Nat.not_lt.mpr hwake)
    refine go_resting hcount (((since_end _ _).noted _).mono (Nat.le_add_right _ _)) ?_
    intro trail
    rw [ha]
    refine go_ends _ hdue ((turn_wakes (Nat.not_lt.mpr (Nat.le_of_lt hlt)) hv (by omega)).trans ?_)
    rw [hnot]
    rfl
  | @again n now a r hcount ha hlt hv hwake hr ih =>
    have hdue : (Watch.poll now (some a)).due deadline = now + a.delay :=
      Nat.min_eq_left (Nat.le_of_lt hlt)
    have hnames : Arithmetic.checked.names (now + a.delay + w.interval) = true := decide_eq_true hwake
    have hrest : r.Since (now + a.delay) := (hr.since (Nat.min_le_right _ _)).mono (by omega)
    refine go_resting hcount ((hrest.noted _).mono (Nat.le_add_right _ _)) ?_
    intro trail
    rw [ha]
    refine go_rests hdue hrest ?_ (ih (Nat.min_le_right _ _))
    refine (turn_wakes (Nat.not_lt.mpr (Nat.le_of_lt hlt)) hv (by omega)).trans ?_
    rw [hnames]
    rfl

theorem deadline?_eq_some_iff {d : Nat} :
    w.deadline? start = some d ↔ start + w.timeout < clockEnd ∧ d = start + w.timeout := by
  simp [deadline?, eq_comm]

theorem run?_eq_cut (hclock : (w.deadline? start).isSome)
    (h : Waits w reply? (start + w.timeout) 0 start r) (cancelAt : Option Nat) :
    w.run? .checked reply? cancelAt start = some (r.cut (cancelAt.map (max start))) := by
  obtain ⟨d, hd⟩ := Option.isSome_iff_exists.mp hclock
  obtain ⟨_, rfl⟩ := deadline?_eq_some_iff.mp hd
  have hstart : start ≤ start + w.timeout := Nat.le_add_right _ _
  simp only [run?, hd]
  cases hc : cancelAt.filter (· ≤ start) with
  | some c =>
    obtain ⟨rfl, hle⟩ : cancelAt = some c ∧ c ≤ start := by simpa [Option.filter_eq_some_iff] using hc
    have hmax : (some c).map (max start) = some start := by simp [hle]
    rw [hmax, (h.since hstart).cut (c := start) (by simp)]
  | none =>
    have hmax : cancelAt.map (max start) = cancelAt := by
      cases hcancel : cancelAt with
      | none => rfl
      | some c => simp [Nat.le_of_lt (lt_of_filter hc hcancel)]
    rw [hmax]
    exact h.go hstart cancelAt .empty

theorem exists_run (hinterval : 0 < w.interval) (hclock : (w.deadline? start).isSome)
    (reply? : Nat → Option Reply) :
    ∃ r, Waits w reply? (start + w.timeout) 0 start r ∧ w.run? .checked reply? none start = some r := by
  obtain ⟨r, hr⟩ := exists_waits hinterval reply? 0 (Nat.le_add_right start w.timeout)
  exact ⟨r, hr, run?_eq_cut hclock hr none⟩

def berth : Waiter := ⟨"started", ["error"], 5, 18⟩

def berthScript : PollScript :=
  [some ⟨3, .ok "stopped"⟩, some ⟨4, .error (.transport "")⟩, some ⟨1, .ok "started"⟩]

theorem berth_run :
    berth.run? .checked berthScript.reply? none 0 =
      some ⟨.ok (.ok ()), 18, [0, 8, 17], [(12, .transport "")]⟩ := by
  have hlast : berth.Waits berthScript.reply? 18 2 17 ⟨.ok (.ok ()), 18, [17], []⟩ :=
    .settled (a := ⟨1, .ok "started"⟩) (by decide) rfl (by decide) rfl
  have hfailed : berth.Waits berthScript.reply? 18 1 8
      ⟨.ok (.ok ()), 18, [8, 17], [(12, .transport "")]⟩ :=
    .again (a := ⟨4, .error (.transport "")⟩) (by decide) rfl (by decide : 8 + 4 < 18) rfl (by decide) hlast
  have hfirst : berth.Waits berthScript.reply? 18 0 0
      ⟨.ok (.ok ()), 18, [0, 8, 17], [(12, .transport "")]⟩ :=
    .again (a := ⟨3, .ok "stopped"⟩) (by decide) rfl (by decide : 0 + 3 < 18) rfl (by decide) hfailed
  exact run?_eq_cut (by decide) hfirst none

end FleetControl.Waiter
