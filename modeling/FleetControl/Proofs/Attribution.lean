import FleetControl.Proofs.Attendance

namespace FleetControl.Batch

open Floor

variable {s : Setup} {f g : Floor} {position p q n sent start : Nat} {j k : Job} {phase : Phase}
  {whats : List Happening} {token uuid : String} {fate : Fate} {r : Result} {w : Waiter}
  {items : List (String × String)}

namespace Floor

theorem exists_answers (s : Setup) (uuid : String) (polls : List (Nat × Nat)) :
    ∃ reply?, Answers s uuid polls reply? := by
  refine ⟨fun k => (polls[k]?).bind fun poll => s.cloud.poll s.command.kind uuid poll.2, ?_⟩
  intro k poll hpoll
  simp only [hpoll, Option.bind_some]

theorem concludes_unique {a b : Except WaitError Unit} (ha : Concludes s f position uuid start w a)
    (hb : Concludes s f position uuid start w b) : a = b := by
  obtain ⟨reply?, hreply⟩ := exists_answers s uuid (f.asked position uuid)
  obtain ⟨whole, hwhole, rfl, _⟩ := ha reply? hreply
  obtain ⟨other, hother, rfl, _⟩ := hb reply? hreply
  rw [Option.some.inj (hwhole.symm.trans hother)]

theorem deadline?_ne_none_of_concludes {a : Except WaitError Unit}
    (h : Concludes s f position uuid start w a) : w.deadline? start ≠ none := by
  obtain ⟨reply?, hreply⟩ := exists_answers s uuid (f.asked position uuid)
  obtain ⟨whole, hwhole, _⟩ := h reply? hreply
  intro hnone
  cases (Waiter.wait?_of_deadline? hnone).symm.trans hwhole

structure Attributed (s : Setup) (f : Floor) (position : Nat) (token uuid : String) (start : Nat)
    (fate : Fate) (r : Result) : Prop where
  unpolled : (∀ record, fate ≠ .ok record) → ∀ n, ¬ f.Polled position n
  own : ∀ n, f.Polled position n →
    ∃ w result, s.waiter = some w ∧ Concludes s f position uuid start w result
  remote : ∀ t e, r = .error (.remote t e) ↔ t = token ∧ fate = .error e
  wait : ∀ t e, r = .error (.wait t e) ↔ t = token ∧ (∃ record, fate = .ok record) ∧
    ∃ w, s.waiter = some w ∧ Concludes s f position uuid start w (.error e)
  returned : ∀ v, r = .ok v ↔ fate = .ok v ∧
    ∀ w, s.waiter = some w → Concludes s f position uuid start w (.ok ())
  aborted : (∃ t reason, r = .error (.aborted t reason)) ↔ (∃ text, fate = .panic text) ∨
    (∃ record, fate = .ok record) ∧ ∃ w, s.waiter = some w ∧ w.deadline? start = none

namespace Leads

theorem remote_iff (h : Leads s f position token uuid sent start fate r) (t : String) (e : ApiError) :
    r = .error (.remote t e) ↔ t = token ∧ fate = .error e := by
  cases h <;> simp [eq_comm]

theorem wait_iff (h : Leads s f position token uuid sent start fate r) (t : String) (e : WaitError) :
    r = .error (.wait t e) ↔ t = token ∧ (∃ record, fate = .ok record) ∧
      ∃ w, s.waiter = some w ∧ Concludes s f position uuid start w (.error e) := by
  cases h with
  | panicked | refused => simp
  | accepted _ hw => simp [hw]
  | overflowed _ hw hd =>
    have hnone : ¬ Concludes s f position uuid start _ (.error e) :=
      fun hc => deadline?_ne_none_of_concludes hc hd
    simp [hw, hnone]
  | succeeded ha hc =>
    have hnone : ¬ Concludes s f position uuid start _ (.error e) :=
      fun he => by cases concludes_unique hc he
    simp [ha.waiter, hnone]
  | failed ha hc =>
    simp only [ha.waiter, Except.error.injEq, ItemError.wait.injEq, Option.some.injEq]
    constructor
    · rintro ⟨rfl, rfl⟩
      exact ⟨rfl, ⟨_, rfl⟩, _, rfl, hc⟩
    · rintro ⟨rfl, _, _, rfl, he⟩
      exact ⟨rfl, Except.error.inj (concludes_unique hc he)⟩

theorem returned_iff (h : Leads s f position token uuid sent start fate r)
    (v : Option FleetControl.Record) :
    r = .ok v ↔ fate = .ok v ∧
      ∀ w, s.waiter = some w → Concludes s f position uuid start w (.ok ()) := by
  cases h with
  | panicked | refused => simp
  | accepted _ hw => simp [hw]
  | overflowed _ hw hd =>
    have hnone : ¬ Concludes s f position uuid start _ (.ok ()) :=
      fun hc => deadline?_ne_none_of_concludes hc hd
    simp [hw, hnone]
  | succeeded ha hc => simp [ha.waiter, hc]
  | failed ha hc =>
    have hnone : ¬ Concludes s f position uuid start _ (.ok ()) :=
      fun hok => by cases concludes_unique hc hok
    simp [ha.waiter, hnone]

theorem aborted_iff (h : Leads s f position token uuid sent start fate r) :
    (∃ t reason, r = .error (.aborted t reason)) ↔ (∃ text, fate = .panic text) ∨
      (∃ record, fate = .ok record) ∧ ∃ w, s.waiter = some w ∧ w.deadline? start = none := by
  cases h with
  | panicked | refused => simp
  | accepted _ hw => simp [hw]
  | overflowed _ hw hd => simp [hw, hd]
  | succeeded ha hc => simp [ha.waiter, deadline?_ne_none_of_concludes hc]
  | failed ha hc => simp [ha.waiter, deadline?_ne_none_of_concludes hc]

theorem unpolled_or (h : Leads s f position token uuid sent start fate r) :
    (∀ m, ¬ f.Polled position m) ∨ (∃ record, fate = .ok record) ∧
      ∃ w result, Awaited s f position uuid sent start w ∧ Concludes s f position uuid start w result := by
  cases h with
  | panicked hn | refused hn => exact .inl hn
  | accepted hn _ | overflowed hn _ _ => exact .inl hn
  | succeeded ha hc | failed ha hc => exact .inr ⟨⟨_, rfl⟩, _, _, ha, hc⟩

theorem attributed (h : Leads s f position token uuid sent start fate r) :
    Attributed s f position token uuid start fate r where
  unpolled hfate := h.unpolled_or.resolve_right fun ⟨⟨record, hok⟩, _⟩ => hfate record hok
  own n hpolled := by
    obtain hn | ⟨_, w, result, ha, hc⟩ := h.unpolled_or
    · exact absurd hpolled (hn n)
    · exact ⟨w, result, ha.waiter, hc⟩
  remote := h.remote_iff
  wait := h.wait_iff
  returned := h.returned_iff
  aborted := h.aborted_iff

end Leads

theorem Stands.unpolled_or (h : Stands s f position token uuid sent start fate phase) :
    (∀ m, ¬ f.Polled position m) ∨
      (∃ record, fate = .ok record) ∧ ∃ w, Awaited s f position uuid sent start w := by
  cases h with
  | sending hn => exact .inl hn
  | watching hfate ha _ _ => exact .inr ⟨⟨_, hfate⟩, _, ha⟩
  | ended hl =>
    obtain hn | ⟨hok, w, _, ha, _⟩ := hl.unpolled_or
    · exact .inl hn
    · exact .inr ⟨hok, w, ha⟩

inductive Attends (s : Setup) (f : Floor) (position : Nat) (j : Job) : Prop
  | queued : j.phase = .queued → (∀ e ∈ f.events, e.position ≠ position) → Attends s f position j
  | sent {sent call time : Nat} : Requested s f position j.uuid sent call time →
    Stands s f position j.token j.uuid sent
      (time + (s.cloud.change call (s.command.request j.uuid)).delay)
      (s.cloud.change call (s.command.request j.uuid)).fate j.phase → Attends s f position j

theorem Attends.put_ne (h : Attends s f p k) (hj : f.jobs[q]? = some j) (hq : q ≠ p) :
    Attends s (f.put q j phase whats) p k := by
  have hnoted : Noted p f (f.put q j phase whats) := noted_put hj fun he => absurd he hq
  cases h with
  | queued hphase hnone =>
    refine .queued hphase ?_
    intro e he
    obtain he | he := List.mem_append.mp he
    · exact hnone e he
    · obtain ⟨_, _, rfl⟩ := List.mem_map.mp he
      exact hq
  | sent hr hst => exact .sent (hnoted.requested hr) (hnoted.stands hst)

theorem requested_granted (hnone : ∀ e ∈ f.events, e.position ≠ position) :
    (∃ sent, Requested s (grant s f position j) position j.uuid sent f.sentCount f.now) ∧
      ∀ m, ¬ (grant s f position j).Polled position m := by
  let before := f.events ++ [⟨f.now, position, .noted (.start (s.timeOfDay f.now))⟩,
    ⟨f.now, position, s.message j "sending request"⟩]
  have hevents : (grant s f position j).events =
      before ++ [⟨f.now, position, .sent (s.command.request j.uuid)⟩] := by
    rw [List.append_assoc]
    rfl
  have hnote {e : Event} (he : e ∈ before) (hp : e.position = position) : ∃ n, e.what = .noted n := by
    obtain he | he := List.mem_append.mp he
    · exact absurd hp (hnone e he)
    · obtain rfl | rfl : e = _ ∨ e = _ := by simpa using he
      · exact ⟨_, rfl⟩
      · exact ⟨_, rfl⟩
  have hcases {m : Nat} {e : Event} (he : (grant s f position j).events[m]? = some e)
      (hp : e.position = position) : (∃ n, e.what = .noted n) ∨
        m = before.length ∧ e.what = .sent (s.command.request j.uuid) := by
    rw [hevents, List.getElem?_append] at he
    split at he
    next => exact .inl (hnote (List.mem_of_getElem? he) hp)
    next hm =>
      obtain ⟨hlt, rfl⟩ := List.getElem?_eq_some_iff.mp he
      rw [List.length_singleton] at hlt
      exact .inr ⟨by omega, by simp⟩
  have htake : (grant s f position j).events.take before.length = before := by rw [hevents, List.take_left]
  refine ⟨⟨before.length, ?_, ?_, ?_⟩, ?_⟩
  · rw [hevents, List.getElem?_concat_length]
  · simp only [upTo, sentCount, htake]
    simp [before, isSent, Setup.message]
  · intro m e he hp hsent
    obtain ⟨n, hn⟩ | ⟨hm, _⟩ := hcases he hp
    · simp [hn, isSent] at hsent
    · exact hm
  · rintro m ⟨e, he, hp, hpolled⟩
    obtain ⟨n, hn⟩ | ⟨_, hwhat⟩ := hcases he hp
    · simp [hn, isPolled] at hpolled
    · simp [hwhat, isPolled] at hpolled

theorem Attends.granted (h : Attends s f position j) (hq : isQueued j) :
    let change := s.cloud.change f.sentCount (s.command.request j.uuid)
    Attends s (grant s f position j) position
      ⟨j.token, j.uuid, f.stamps, .sending (f.now + change.delay) change.fate⟩ := by
  intro change
  cases h with
  | queued _ hnone =>
    obtain ⟨⟨sent, hrequested⟩, hunpolled⟩ := requested_granted hnone
    exact .sent hrequested (.sending hunpolled)
  | sent _ hst =>
    rw [isQueued_iff.mp hq] at hst
    cases hst

theorem Requested.put {call time : Nat} (h : Requested s f position uuid sent call time)
    (hquiet : whats.filterMap (requestOf? position) = []) :
    Requested s (f.put position j phase whats) position uuid sent call time := by
  apply h.append rfl
  intro e he _
  obtain ⟨what, hwhat, rfl⟩ := List.mem_map.mp he
  have hnone := List.filterMap_eq_nil_iff.mp hquiet what hwhat
  cases what with
  | sent request => cases hnone
  | noted n => rfl
  | polled => rfl

theorem Attends.move (h : Attends s f position j) (hj : f.jobs[position]? = some j) (hr : j.isRunning)
    (honTime : ∀ u, s.steady.due? position j.phase = some u → f.now ≤ u)
    (hdue : (j.phase.Watches → ¬ s.cancels f.now position) → s.steady.due? position j.phase = some f.now) :
    let move := s.move f.now position (f.pollCount j.uuid) j
    Attends s (f.put position j move.1 move.2) position ⟨j.token, j.uuid, f.stamps, move.1⟩ := by
  intro move
  have hm := moves_move (s := s) f.now position (f.pollCount j.uuid) hr
  have hquiet := move_sends_nothing (s := s) f.now position (f.pollCount j.uuid) hr
  cases h with
  | queued hphase => simp [Job.isRunning, isQueued, hphase] at hr
  | sent hrequested hst =>
    have hsent := (List.getElem?_eq_some_iff.mp hrequested.event).1
    refine .sent (hrequested.put hquiet) ?_
    cases hphase : j.phase with
    | queued => simp [Job.isRunning, isQueued, hphase] at hr
    | ended r => simp [Job.isRunning, hasEnded, hphase] at hr
    | sending t known =>
      have hcalm : j.phase.Watches → ¬ s.cancels f.now position := by
        rw [hphase]
        exact False.elim
      exact stands_answered hj hm ⟨t, known, hphase⟩ (hdue hcalm) hsent hst
    | watching deadline watch record =>
      have hwatches : j.phase.Watches := by
        rw [hphase]
        trivial
      exact stands_watched hj hm hwatches honTime (fun hc => hdue fun _ => hc) hst

structure Attending (s : Setup) (f : Floor) : Prop where
  punctual : Punctual s f
  attends : ∀ p j, f.jobs[p]? = some j → Attends s f p j

theorem attending_start (s : Setup) (limit now : Nat) : Attending s (Floor.start limit now items) where
  punctual := punctual_start s limit now
  attends _ _ hj := .queued (phase_start (List.mem_of_getElem? hj)) (List.forall_mem_nil _)

theorem Attends.congr (h : Attends s f position j) (hevents : g.events = f.events) (hjobs : g.jobs = f.jobs) :
    Attends s g position j := by
  have hnoted : Noted position f g := ⟨⟨[], by simp [hevents], List.forall_mem_nil _⟩, by rw [hjobs]⟩
  cases h with
  | queued hphase hnone => exact .queued hphase (hevents ▸ hnone)
  | sent hr hst => exact .sent (hnoted.requested hr) (hnoted.stands hst)

theorem attending_put (hj : f.jobs[position]? = some j) (h : ∀ p k, f.jobs[p]? = some k → Attends s f p k)
    (hnew : Attends s (f.put position j phase whats) position ⟨j.token, j.uuid, f.stamps, phase⟩)
    (hpunctual : Punctual s (f.put position j phase whats)) :
    Attending s (f.put position j phase whats) where
  punctual := hpunctual
  attends p k hk := by
    obtain ⟨rfl, rfl⟩ | ⟨hp, hk⟩ := getElem?_put hk
    · exact hnew
    · exact (h p k hk).put_ne hj hp

theorem attending_kept (s : Setup) : Kept s (Attending s) where
  free f n h :=
    ⟨(punctual_kept s).free f n h.punctual, fun p j hj => (h.attends p j hj).congr rfl rfl⟩
  grant f p j h hj hq :=
    attending_put hj h.attends ((h.attends p j hj).granted hq)
      ((punctual_kept s).grant f p j h.punctual hj hq)
  move f time p j h hj hd := by
    obtain ⟨k, hk, hdue⟩ := timer?_eq_some_iff.mp hd.timer
    obtain rfl : j = k := by simpa [hj] using hk
    have hlater (q : Nat) (k : Job) (hk : f.jobs[q]? = some k) :
        Attends s { f with now := max f.now time } q k := (h.attends q k hk).congr rfl rfl
    have honTime (u : Nat) : s.steady.due? p j.phase = some u → f.now ≤ u := h.punctual.onTime p j u hj
    have hmoves := Setup.moves_steadily_or_cancelled hdue honTime
    apply attending_put (f := { f with now := max f.now time }) hj hlater
    · apply (hlater p j hj).move hj (isRunning_of_due hdue)
      · intro u hu
        obtain ⟨hsteady, _⟩ | ⟨_, _, t, ht, hle⟩ := hmoves
        · exact Nat.le_of_eq (Option.some.inj (hsteady.symm.trans hu))
        · exact Nat.le_trans hle (Nat.le_of_eq (Option.some.inj (ht.symm.trans hu)))
      · intro hcalm
        obtain ⟨hsteady, _⟩ | ⟨hwatches, hcancels, _⟩ := hmoves
        · exact hsteady
        · exact absurd hcancels (hcalm hwatches)
    · exact (punctual_kept s).move f time p j h.punctual hj hd

def AfterSuccess (s : Setup) (f : Floor) (position : Nat) (uuid : String) (n : Nat) : Prop :=
  ∃ sent call time m w e, Requested s f position uuid sent call time ∧
    let change := s.cloud.change call (s.command.request uuid)
    (∃ record, change.fate = .ok record) ∧ s.waiter = some w ∧ sent < m ∧ m < n ∧
      f.events[m]? = some ⟨time + change.delay, position,
        .noted (.message (s.stage uuid s!"waiting for {w.target}"))⟩ ∧
      f.events[n]? = some e ∧ time + change.delay ≤ e.time ∧ (e.time, uuid) ∈ f.polls

def Attended (s : Setup) (f : Floor) (position : Nat) (item : Item (Option FleetControl.Record)) : Prop :=
  ∃ sent call time, Requested s f position item.uuid sent call time ∧
    let change := s.cloud.change call (s.command.request item.uuid)
    Attributed s f position item.token item.uuid (time + change.delay) change.fate item.result

theorem mem_polls {e : Event} (hj : f.jobs[position]? = some j) (he : e ∈ f.events)
    (hp : e.position = position) (hpolled : isPolled e.what) : (e.time, j.uuid) ∈ f.polls := by
  refine List.mem_filterMap.mpr ⟨e, he, ?_⟩
  rw [hp, hj]
  cases hwhat : e.what with
  | polled => rfl
  | noted | sent => simp [hwhat, isPolled] at hpolled

theorem Attends.afterSuccess (h : Attends s f position j) (hj : f.jobs[position]? = some j)
    (hp : Punctual s f) (hpolled : f.Polled position n) : AfterSuccess s f position j.uuid n := by
  cases h with
  | queued _ hnone =>
    obtain ⟨e, he, hposition, _⟩ := hpolled
    exact absurd hposition (hnone e (List.mem_of_getElem? he))
  | sent hr hst =>
    obtain hn | ⟨hok, w, ha⟩ := hst.unpolled_or
    · exact absurd hpolled (hn n)
    · obtain ⟨m, hm, hevent, hpolls⟩ := ha.noted
      have hlt := hpolls n hpolled
      obtain ⟨e, he, hposition, hasks⟩ := hpolled
      have hasked := mem_polls hj (List.mem_of_getElem? he) hposition hasks
      exact ⟨_, _, _, m, w, e, hr, hok, ha.waiter, hm, hlt, hevent, he, hp.time_le hevent he hlt, hasked⟩

theorem Attends.attended (h : Attends s f position j) (hr : j.phase = .ended r) :
    Attended s f position ⟨j.token, j.uuid, r⟩ := by
  cases h with
  | queued hphase => cases hphase.symm.trans hr
  | sent hrequested hst =>
    rw [hr] at hst
    cases hst with
    | ended hl => exact ⟨_, _, _, hrequested, hl.attributed⟩

end Floor

section
variable {cloud : Cloud} {c : Catalog} {tokens : List String} {command : Command} {o : Options}
  {operator : Operator} {clock : Progress.TimeOfDay}

theorem waiter?_eq_none_iff {wait : Option WaitOptions} :
    waiter? command wait = none ↔ wait = none ∨ command.expectation? = none := by
  cases wait <;> cases h : command.expectation? <;> simp [waiter?, h]

theorem attending_of_reached (h : Reached cloud c tokens command o operator clock f) :
    Attending (setup cloud command o clock) f := by
  obtain ⟨items, _, hr⟩ := h
  have hkept := attending_kept (setup cloud command o clock)
  exact hkept.reaches (hkept.letIn _ (attending_start _ _ _)) hr

theorem attended_of_reached (h : Reached cloud c tokens command o operator clock f)
    (hidle : ∀ p, timer? (setup cloud command o clock) f p = none) (i : Nat)
    (item : Item (Option FleetControl.Record)) (hitem : f.outcome.items[i]? = some item) :
    Attended (setup cloud command o clock) f i item := by
  simp only [outcome, List.getElem?_map, Option.map_eq_some_iff] at hitem
  obtain ⟨j, hj, rfl⟩ := hitem
  obtain ⟨r, hr⟩ := hasEnded_iff.mp (ended_of_reached h hidle j (List.mem_of_getElem? hj))
  have hresult : Floor.result j = r := by simp [Floor.result, hr]
  rw [hresult]
  exact ((attending_of_reached h).attends i j hj).attended hr

end

/-- On every floor that a batch comes to, a poll follows the success of the request of its own item. An item
that has ended has asked for its own resource only, and its result is the error of its request, that of the
wait that followed, or what the request returned. -/
theorem polls_follow_success (cloud : Cloud) (c : Catalog) (tokens : List String) (command : Command)
    (o : Options) (operator : Operator) (clock : Progress.TimeOfDay) :
    let s := setup cloud command o clock
    (∀ r outcome, send cloud c tokens command o operator clock = some r → r.result = .ok outcome →
      ∃ f, r.floor = some f ∧ ∀ i item, outcome.items[i]? = some item → Attended s f i item) ∧
      ∀ f, Reached cloud c tokens command o operator clock f →
        (∀ i j, f.jobs[i]? = some j → ∀ n, f.Polled i n → AfterSuccess s f i j.uuid n) ∧
          (o.wait = none ∨ command.expectation? = none →
            ∀ i j, f.jobs[i]? = some j → ∀ n, ¬ f.Polled i n) ∧
          ((∀ p, timer? s f p = none) →
            ∀ i item, f.outcome.items[i]? = some item → Attended s f i item) := by
  intro s
  constructor
  · intro r outcome hsend hok
    obtain ⟨items, f, hitems, hrun, hfloor, rfl⟩ := send_ok hsend hok
    obtain ⟨hr, hidle⟩ := loop_reaches hrun
    exact ⟨f, hfloor, attended_of_reached ⟨items, hitems, hr⟩ hidle⟩
  · intro f hreached
    have hattending := attending_of_reached hreached
    have hafter (i : Nat) (j : Job) (hj : f.jobs[i]? = some j) (n : Nat) (hn : f.Polled i n) :
        AfterSuccess s f i j.uuid n := (hattending.attends i j hj).afterSuccess hj hattending.punctual hn
    refine ⟨hafter, ?_, attended_of_reached hreached⟩
    intro hnone i j hj n hn
    obtain ⟨_, _, _, _, w, _, _, _, hw, _⟩ := hafter i j hj n hn
    have hwaiter : s.waiter = none := waiter?_eq_none_iff.mpr hnone
    cases hwaiter.symm.trans hw

theorem yard_polls_follow_success :
    ∃ r outcome f, send yard.cloud Catalog.empty ["a", "b", "a"] .startServer yardOptions yardOperator ⟨0⟩ =
        some r ∧ r.result = .ok outcome ∧ r.floor = some f ∧
      r.polls = [(20, "a"), (25, "a"), (30, "a")] ∧
      (∀ i item, outcome.items[i]? = some item → Attended yardSetup f i item) ∧
      f.Polled 0 12 ∧ AfterSuccess yardSetup f 0 "a" 12 := by
  have hrun : Floor.run yardSetup 2 0 [("a", "a"), ("b", "b"), ("a", "a")] =
      some (yardFloor ["a", "b", "a"] 9) := loop_eq_some_iff.mpr ⟨9, rfl, rfl⟩
  have hsend : send yard.cloud Catalog.empty ["a", "b", "a"] .startServer yardOptions yardOperator ⟨0⟩ =
      some _ := send_eq_some_iff.mpr (.inr ⟨_, _, rfl, hrun, rfl⟩)
  obtain ⟨hreturned, hreached⟩ := polls_follow_success yard.cloud Catalog.empty ["a", "b", "a"] .startServer
    yardOptions yardOperator ⟨0⟩
  obtain ⟨f, hf, hattended⟩ := hreturned _ _ hsend rfl
  obtain rfl := Option.some.inj hf
  have hpolled : (yardFloor ["a", "b", "a"] 9).Polled 0 12 := ⟨_, rfl, rfl, rfl⟩
  obtain ⟨hafter, _⟩ := hreached _ (send_reached hsend rfl)
  exact ⟨_, _, _, hsend, rfl, rfl, rfl, hattended, hpolled, hafter 0 _ rfl 12 hpolled⟩

end FleetControl.Batch
