import Mathlib.Algebra.BigOperators.Group.Finset.Piecewise
import Mathlib.Algebra.Order.BigOperators.Group.Finset
import FleetControl.Proofs.Alone
import FleetControl.Proofs.Punctuality

/-!
Items that are under way together. Each of them stands on the course that its resource has by itself,
later by the time that it was queued, unless its own wait has been cancelled; so what an item comes to
does not depend on the others.
-/
namespace FleetControl.Batch.Floor

variable {s : Setup} {items : List (String × String)} {start limit time position : Nat}
  {moves : Nat → Nat} {f : Floor} {j : Job}

/-- The job stands on its course, everything in it being later by `d`. If it has ended, its end is the
last thing that happened to it, and no cancellation came before that. -/
structure OnCourse (s : Setup) (start : Nat) (f : Floor) (position : Nat) (j : Job) (n d : Nat) : Prop where
  phase : j.phase = (s.course position j.token j.uuid start n).phase.later d
  polls : f.pollCount j.uuid = (s.course position j.token j.uuid start n).polls
  runs : ∀ k < n, hasEnded (s.course position j.token j.uuid start k).phase = false
  began : (f.times position).head? = some (start + d)
  ended : hasEnded j.phase →
    (f.times position).getLast? = some (s.reachedAt position j.token j.uuid start n + d)
  uncut : hasEnded j.phase → ∀ w record t, s.waiter = some w →
    (s.cloud.change position (s.command.request j.uuid)).fate = .ok record → s.cancelAt position = some t →
    s.reachedAt position j.token j.uuid start n + d < t

structure CutAt (s : Setup) (start : Nat) (f : Floor) (position : Nat) (j : Job) (n d : Nat) : Prop where
  phase : j.phase = .ended (.error (.wait j.token .cancelled))
  watches : (s.course position j.token j.uuid start n).phase.Watches
  began : (f.times position).head? = some (start + d)
  cut : ∃ t, s.cancelAt position = some t ∧ t ≤ s.reachedAt position j.token j.uuid start (n + 1) + d

inductive Follows (s : Setup) (start : Nat) (f : Floor) (position : Nat) (j : Job) : Nat → Prop
  | waiting : j.phase = .queued → f.pollCount j.uuid = 0 → f.times position = [] →
    Follows s start f position j 0
  | moving {n d : Nat} : OnCourse s start f position j n d → Follows s start f position j (n + 1)
  | cut {n d : Nat} : CutAt s start f position j n d → Follows s start f position j (n + 2)

theorem Follows.congr {g : Floor} {m : Nat} (h : Follows s start f position j m)
    (hcount : g.pollCount j.uuid = f.pollCount j.uuid) (htimes : g.times position = f.times position) :
    Follows s start g position j m := by
  cases h with
  | waiting hq hz ht => exact .waiting hq (hcount.trans hz) (htimes.trans ht)
  | moving h =>
    refine .moving ⟨h.phase, hcount.trans h.polls, h.runs, ?_, ?_, h.uncut⟩
    · rw [htimes]
      exact h.began
    · rw [htimes]
      exact h.ended
  | cut h => exact .cut ⟨h.phase, h.watches, htimes ▸ h.began, h.cut⟩

theorem Follows.of_queued {m : Nat} (h : Follows s start f position j m) (hq : isQueued j) :
    m = 0 ∧ f.pollCount j.uuid = 0 ∧ f.times position = [] := by
  cases h with
  | waiting _ hz ht => exact ⟨rfl, hz, ht⟩
  | moving h =>
    have hphase := h.phase
    rw [isQueued_iff.mp hq, eq_comm, Phase.later_eq_queued_iff] at hphase
    exact absurd hphase (Setup.course_not_queued _)
  | cut h => simp [isQueued_of_ended h.phase] at hq

theorem Follows.of_running {m : Nat} (h : Follows s start f position j m) (hr : j.isRunning) :
    ∃ n d, m = n + 1 ∧ OnCourse s start f position j n d := by
  cases h with
  | waiting hq _ _ => simp [isQueued_iff.mpr hq, Job.isRunning] at hr
  | moving h => exact ⟨_, _, rfl, h⟩
  | cut h => simp [h.phase, hasEnded, Job.isRunning] at hr

theorem OnCourse.moved {n d : Nat} (h : OnCourse s start f position j n d)
    (hj : f.jobs[position]? = some j) (hdue : s.steady.due? position j.phase = some (max f.now time))
    (hcancels : j.phase.Watches → ¬ s.cancels (max f.now time) position)
    (hcalm : ∀ text, (s.cloud.change position (s.command.request j.uuid)).fate ≠ .panic text)
    (hfits : s.Represents j.phase) :
    OnCourse s start (moved s f time position j) position
      ⟨j.token, j.uuid, f.stamps, (s.move (max f.now time) position (f.pollCount j.uuid) j).1⟩ (n + 1) d := by
  have hmove := Setup.move_steady (max f.now time) (f.pollCount j.uuid) hcancels
  obtain ⟨⟨now, hstage, hnow⟩, hphase, hpolls⟩ := moved_onward hj h.phase h.polls hmove hdue
    (fun t text ht => hcalm text (Setup.course_sending ht).symm) (.inr hfits)
  have hreached : s.reachedAt position j.token j.uuid start (n + 1) + d = max f.now time := by
    rw [Setup.reachedAt_succ hstage, hnow]
  have hm := moves_move (s := s) (max f.now time) position (f.pollCount j.uuid) (isRunning_of_due hdue)
  have hsending (t : Nat) (fate : Fate) (hp : j.phase = .sending t fate) :
      fate = (s.cloud.change position (s.command.request j.uuid)).fate := by
    obtain ⟨u, hu, _⟩ := Phase.later_eq_sending_iff.mp (h.phase.symm.trans hp)
    exact Setup.course_sending hu
  refine ⟨hphase, hpolls, ?_, ?_, ?_, ?_⟩
  · intro k hk
    rcases Nat.lt_succ_iff_lt_or_eq.mp hk with hk | rfl
    · exact h.runs k hk
    · rw [← Phase.hasEnded_later _ d, ← h.phase]
      exact hasEnded_of_due hdue
  · exact head?_times_put j _ _ h.began
  · intro he
    have hne := hm.ne_nil he (fun t text hp => hcalm text (hsending t _ hp).symm) fun hw => by
      rw [h.phase, Phase.watches_later] at hw
      exact (Setup.course_watches hw).1
    exact (getLast?_times_put _ position j _ hne).trans (congrArg some hreached.symm)
  · intro he w record t hw hfate ht
    have hwatches := hm.watches_of_ended he hdue hfits hw fun t fate hp => (hsending t fate hp).trans hfate
    rw [hreached]
    exact Nat.lt_of_not_le fun hle => hcancels hwatches ⟨t, ht, hle⟩

theorem OnCourse.cut {n d u : Nat} (h : OnCourse s start f position j n d) (hwatches : j.phase.Watches)
    (hcancels : s.cancels (max f.now time) position)
    (hdue : s.steady.due? position j.phase = some u) (hle : max f.now time ≤ u) :
    CutAt s start (Floor.moved s f time position j) position
      ⟨j.token, j.uuid, f.stamps, (s.move (max f.now time) position (f.pollCount j.uuid) j).1⟩ n d := by
  obtain ⟨t, ht, htime⟩ := hcancels
  have hstage := h.phase ▸ hdue
  rw [Setup.due?_later (s := s.steady) rfl, Option.map_eq_some_iff] at hstage
  obtain ⟨now, hstage, rfl⟩ := hstage
  refine ⟨Setup.move_cancelled _ hwatches ⟨t, ht, htime⟩, ?_, ?_, t, ht, ?_⟩
  · exact (Phase.watches_later d).mp (h.phase ▸ hwatches)
  · exact head?_times_put j _ _ h.began
  · rw [Setup.reachedAt_succ hstage]
    exact Nat.le_trans htime hle

structure Separate (s : Setup) (items : List (String × String)) : Prop where
  calm : ∀ p item, items[p]? = some item → ∀ text,
    (s.cloud.change p (s.command.request item.2)).fate ≠ .panic text
  distinct : (items.map (·.2)).Nodup

/-- All jobs are on their courses, but for those whose wait was cancelled. Requests are sent in the order
of the positions. -/
structure Abreast (s : Setup) (items : List (String × String)) (start : Nat) (moves : Nat → Nat)
    (f : Floor) : Prop where
  jobs : f.jobs.map (fun j => (j.token, j.uuid)) = items
  stamps : f.stamps = ∑ p ∈ Finset.range items.length, moves p
  begun : start ≤ f.now
  queue : ∀ p j, f.jobs[p]? = some j → (isQueued j ↔ f.sentCount ≤ p)
  sound : ∀ (p : Nat) (j : Job), f.jobs[p]? = some j → j.phase.Sound
  onTime : ∀ (p : Nat) (j : Job) (t : Nat),
    f.jobs[p]? = some j → s.steady.due? p j.phase = some t → f.now ≤ t
  follows : ∀ p j, f.jobs[p]? = some j → Follows s start f p j (moves p)

theorem sum_update_succ {n p : Nat} (m : Nat → Nat) (hp : p < n) :
    ∑ q ∈ Finset.range n, Function.update m p (m p + 1) q = (∑ q ∈ Finset.range n, m q) + 1 := by
  have hmem := Finset.mem_range.mpr hp
  rw [Finset.sum_update_of_mem hmem, Finset.sdiff_singleton_eq_erase, ← Finset.add_sum_erase _ m hmem]
  omega

theorem Abreast.mem (h : Abreast s items start moves f) (hj : f.jobs[position]? = some j) :
    items[position]? = some (j.token, j.uuid) := by
  rw [← h.jobs, List.getElem?_map, hj]
  rfl

theorem Abreast.uuid_ne {p q : Nat} {k : Job} (h : Abreast s items start moves f)
    (hs : Separate s items) (hj : f.jobs[p]? = some j) (hk : f.jobs[q]? = some k) (hpq : p ≠ q) :
    j.uuid ≠ k.uuid := by
  have hdistinct := hs.distinct
  rw [← h.jobs, List.map_map] at hdistinct
  intro heq
  have hp : (f.jobs.map (·.uuid))[p]? = some j.uuid := by simp [hj]
  have hq : (f.jobs.map (·.uuid))[q]? = some k.uuid := by simp [hk]
  obtain ⟨hlt, _⟩ := List.getElem?_eq_some_iff.mp hp
  exact hpq ((List.getElem?_inj hlt hdistinct).mp (hp.trans (heq ▸ hq.symm)))

theorem Abreast.put {now : Nat} {phase : Phase} {whats : List Happening}
    (h : Abreast s items start moves f) (hs : Separate s items) (hj : f.jobs[position]? = some j)
    (hnow : f.now ≤ now) (hleft : isQueued ⟨j.token, j.uuid, f.stamps, phase⟩ = false)
    (hqueue : ∀ p k, f.jobs[p]? = some k → p ≠ position →
      (isQueued k ↔ (Floor.put { f with now } position j phase whats).sentCount ≤ p))
    (hsent : position < (Floor.put { f with now } position j phase whats).sentCount)
    (hothers : ∀ (p : Nat) (k : Job) (t : Nat),
      f.jobs[p]? = some k → p ≠ position → s.steady.due? p k.phase = some t → now ≤ t)
    (hsound : phase.Sound) (honTime : ∀ t, s.steady.due? position phase = some t → now ≤ t)
    (hfollows : Follows s start (Floor.put { f with now } position j phase whats) position
      ⟨j.token, j.uuid, f.stamps, phase⟩ (moves position + 1)) :
    Abreast s items start (Function.update moves position (moves position + 1))
      (Floor.put { f with now } position j phase whats) := by
  obtain ⟨hlt, _⟩ := List.getElem?_eq_some_iff.mp hj
  have hlen : f.jobs.length = items.length := by rw [← h.jobs, List.length_map]
  constructor
  · exact (map_set_of_eq (b := ⟨j.token, j.uuid, f.stamps, phase⟩) _ hj rfl).trans h.jobs
  · rw [sum_update_succ moves (hlen ▸ hlt), ← h.stamps]
    rfl
  · exact Nat.le_trans h.begun hnow
  · intro p k hk
    obtain ⟨rfl, rfl⟩ | ⟨hp, hk⟩ := getElem?_put hk
    · exact iff_of_false (hleft ▸ Bool.false_ne_true) (Nat.not_le.mpr hsent)
    · exact hqueue p k hk (Ne.symm hp)
  · intro p k hk
    obtain ⟨rfl, rfl⟩ | ⟨_, hk⟩ := getElem?_put hk
    · exact hsound
    · exact h.sound p k hk
  · intro p k t hk ht
    obtain ⟨rfl, rfl⟩ | ⟨hp, hk⟩ := getElem?_put hk
    · exact honTime t ht
    · exact hothers p k t hk (Ne.symm hp) ht
  · intro p k hk
    obtain ⟨rfl, rfl⟩ | ⟨hp, hk⟩ := getElem?_put hk
    · rw [Function.update_self]
      exact hfollows
    · rw [Function.update_of_ne (Ne.symm hp)]
      have hcount : (Floor.put { f with now } position j phase whats).pollCount k.uuid =
          f.pollCount k.uuid := by
        have hput := pollCount_put (f := { f with now }) hj phase whats k.uuid
        rwa [if_neg (h.uuid_ne hs hj hk hp), Nat.add_zero] at hput
      exact (h.follows p k hk).congr hcount (times_put_ne { f with now } j phase whats (Ne.symm hp))

theorem Abreast.free (h : Abreast s items start moves f) (n : Nat) :
    Abreast s items start moves { f with free := n } :=
  ⟨h.jobs, h.stamps, h.begun, h.queue, h.sound, h.onTime, fun p j hj => (h.follows p j hj).congr rfl rfl⟩

theorem Abreast.findIdx_eq (h : Abreast s items start moves f)
    (hj : f.jobs[f.jobs.findIdx isQueued]? = some j) (hq : isQueued j) :
    f.jobs.findIdx isQueued = f.sentCount := by
  apply Nat.le_antisymm _ ((h.queue _ j hj).mp hq)
  by_contra hlt
  have hbefore : f.sentCount < f.jobs.findIdx isQueued := Nat.lt_of_not_le hlt
  have hlen := Nat.lt_trans hbefore (List.getElem?_eq_some_iff.mp hj).1
  have hqueued := (h.queue _ _ (List.getElem?_eq_getElem hlen)).mpr (Nat.le_refl _)
  rw [List.not_of_lt_findIdx hbefore] at hqueued
  exact Bool.false_ne_true hqueued

theorem Abreast.grant (h : Abreast s items start moves f) (hs : Separate s items)
    (hj : f.jobs[position]? = some j) (hq : isQueued j) (hfirst : position = f.sentCount) :
    Abreast s items start (Function.update moves position (moves position + 1))
      (grant s f position j) := by
  have hsent : (Floor.grant s f position j).sentCount = f.sentCount + 1 := by
    simp [sentCount_eq_length, calls_grant]
  apply h.put hs hj (Nat.le_refl _)
  · rfl
  · intro p k hk hp
    have hqueue := h.queue p k hk
    change _ ↔ (Floor.grant s f position j).sentCount ≤ p
    rw [hqueue, hsent]
    omega
  · change position < (Floor.grant s f position j).sentCount
    omega
  · exact fun p k t hk _ ht => h.onTime p k t hk ht
  · trivial
  · intro t ht
    obtain rfl := Option.some.inj ht
    exact Nat.le_add_right _ _
  · obtain ⟨hzero, hcount, htimes⟩ := (h.follows position j hj).of_queued hq
    have hd : start + (f.now - start) = f.now := Nat.add_sub_cancel' h.begun
    rw [hzero]
    refine .moving (n := 0) (d := f.now - start) ⟨?_, ?_, ?_, ?_, ?_, ?_⟩
    · simp only [Setup.course, Phase.later, ← hfirst, Nat.add_right_comm, hd]
    · exact (pollCount_put hj _ _ j.uuid).trans (by rw [hcount, if_pos rfl]; rfl)
    · exact fun k hk => absurd hk (Nat.not_lt_zero k)
    · exact (congrArg List.head? (times_put f position j _ _)).trans (by rw [htimes, hd]; rfl)
    · intro he
      cases he
    · intro he
      cases he

theorem Abreast.moved (h : Abreast s items start moves f) (hs : Separate s items)
    (hj : f.jobs[position]? = some j) (hd : Due s f time position) (hfits : s.Represents j.phase) :
    Abreast s items start (Function.update moves position (moves position + 1))
      (moved s f time position j) := by
  obtain ⟨k, hk, hdue⟩ := timer?_eq_some_iff.mp hd.timer
  obtain rfl : j = k := by simpa [hj] using hk
  have hrunning := isRunning_of_due hdue
  have hcalm := hs.calm position _ (h.mem hj)
  have hsent : (Floor.moved s f time position j).sentCount = f.sentCount := by
    simp only [sentCount_eq_length, calls_moved time hrunning]
  obtain ⟨n, d, hn, hcourse⟩ := (h.follows position j hj).of_running hrunning
  have hown (t : Nat) : s.steady.due? position j.phase = some t → f.now ≤ t := h.onTime position j t hj
  obtain ⟨hsound, honTime⟩ :=
    Setup.move_punctual (f.pollCount j.uuid) hdue (h.sound position j hj) hown
  have hfollows : Follows s start (Floor.moved s f time position j) position
      ⟨j.token, j.uuid, f.stamps, (s.move (max f.now time) position (f.pollCount j.uuid) j).1⟩
      (moves position + 1) := by
    rw [hn]
    obtain ⟨hsteady, hcancels⟩ | ⟨hwatches, hcancels, u, hu, hle⟩ :=
      Setup.moves_steadily_or_cancelled hdue hown
    · exact .moving (hcourse.moved hj hsteady hcancels hcalm hfits)
    · exact .cut (hcourse.cut hwatches hcancels hu hle)
  have hleft := move_leaves_queue (s := s) (max f.now time) position (f.pollCount j.uuid) f.stamps hrunning
  apply h.put hs hj (Nat.le_max_left _ _) hleft
  · intro p k hk _
    change _ ↔ (Floor.moved s f time position j).sentCount ≤ p
    rw [hsent]
    exact h.queue p k hk
  · change position < (Floor.moved s f time position j).sentCount
    rw [hsent, ← Nat.not_le, ← h.queue position j hj, isQueued_of_isRunning hrunning]
    exact Bool.false_ne_true
  · exact fun p k t hk _ ht => hd.le_steady h.onTime p k t hk ht
  · exact hsound
  · exact honTime
  · exact hfollows

theorem Abreast.offer (h : Abreast s items start moves f) (hs : Separate s items) :
    ∃ m, Abreast s items start m (offer s f) := by
  obtain ⟨he, _⟩ | ⟨n, j, _, hj, hq, he⟩ := offer_cases s f
  · rw [he]
    exact ⟨moves, h⟩
  · rw [he]
    exact ⟨_, (h.free n).grant hs hj hq (h.findIdx_eq hj hq)⟩

theorem Abreast.step (h : Abreast s items start moves f) (hs : Separate s items)
    (hd : Due s f time position) (hfits : ∀ j ∈ f.jobs, s.Represents j.phase) :
    ∃ m, Abreast s items start m (step s f time position) := by
  obtain ⟨j, hj, _⟩ := timer?_eq_some_iff.mp hd.timer
  have hm := h.moved hs hj hd (hfits j (List.mem_of_getElem? hj))
  obtain ⟨_, he⟩ | ⟨_, he⟩ := step_cases (s := s) time hj
  · rw [he]
    exact (hm.free _).offer hs
  · rw [he]
    exact ⟨_, hm⟩

theorem Follows.of_ended {m : Nat} (h : Follows s start f position j m) (he : hasEnded j.phase) :
    (∃ n d, OnCourse s start f position j n d) ∨ ∃ n d, CutAt s start f position j n d := by
  cases h with
  | waiting hq _ _ => simp [hq, hasEnded] at he
  | moving h => exact .inl ⟨_, _, h⟩
  | cut h => exact .inr ⟨_, _, h⟩

theorem Follows.onCourse {m : Nat} (h : Follows s start f position j m) (hc : s.cancelAt position = none)
    (he : hasEnded j.phase) : ∃ n d, OnCourse s start f position j n d := by
  obtain hcourse | ⟨_, _, hcut⟩ := h.of_ended he
  · exact hcourse
  · obtain ⟨t, ht, _⟩ := hcut.cut
    simp [hc] at ht

theorem OnCourse.course_ended {n d : Nat} {r : Result} (h : OnCourse s start f position j n d)
    (hr : j.phase = .ended r) : (s.course position j.token j.uuid start n).phase = .ended r :=
  Phase.later_eq_ended_iff.mp (h.phase.symm.trans hr)

variable (hscripted : ∀ call request, s.cloud.change call request = s.cloud.change 0 request)

include hscripted

theorem Abreast.outcome (h : Abreast s items start moves f) (hc : ∀ p, s.cancelAt p = none)
    (hended : ∀ j ∈ f.jobs, hasEnded j.phase) :
    List.Forall₂ (ComesTo s start) items (outcome f).items := by
  rw [← h.jobs, Floor.outcome, List.forall₂_map_left_iff, List.forall₂_map_right_iff, List.forall₂_same]
  intro j hj
  obtain ⟨p, hp⟩ := List.mem_iff_getElem?.mp hj
  obtain ⟨r, hr⟩ := hasEnded_iff.mp (hended j hj)
  obtain ⟨n, d, hcourse⟩ := (h.follows p j hp).onCourse (hc p) (hended j hj)
  have hn := hcourse.course_ended hr
  rw [Setup.course_congr (hscripted p _)] at hn
  exact ⟨rfl, rfl, n, by simpa [Floor.result, hr] using hn⟩

end FleetControl.Batch.Floor
