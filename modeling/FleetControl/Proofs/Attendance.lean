import FleetControl.Proofs.BatchLog
import FleetControl.Proofs.Punctuality
import FleetControl.Proofs.Resumption

/-!
When the resources of a batch are polled. A poll follows the answer to the request of its item, which has
succeeded, and the wait that the polls belong to decides, after the request, what the item comes to.
-/
namespace FleetControl.Batch.Floor

variable {s : Setup} {f g : Floor} {position q m sent call time start : Nat} {j : Job} {e : Event}
  {phase : Phase} {whats : List Happening} {token uuid : String} {fate : Fate} {r : Result}

def Polled (f : Floor) (position m : Nat) : Prop :=
  ∃ e, f.events[m]? = some e ∧ e.position = position ∧ isPolled e.what

def upTo (f : Floor) (m : Nat) : Floor := { f with events := f.events.take m }

/-- The polls by the item at a position: when, and how many polls of its resource there had been. -/
def asked (f : Floor) (position : Nat) (uuid : String) : List (Nat × Nat) :=
  f.events.zipIdx.filterMap fun (e, m) =>
    if e.position = position ∧ isPolled e.what then some (e.time, (f.upTo m).pollCount uuid) else none

structure Noted (position : Nat) (f g : Floor) : Prop where
  events : ∃ more, g.events = f.events ++ more ∧ ∀ e ∈ more, e.position = position → ∃ n, e.what = .noted n
  uuids : g.jobs.map (·.uuid) = f.jobs.map (·.uuid)

theorem noted_put (hj : f.jobs[q]? = some j) (h : q = position → ∀ what ∈ whats, ∃ n, what = .noted n) :
    Noted position f (f.put q j phase whats) where
  events := by
    refine ⟨_, rfl, ?_⟩
    intro e he hp
    obtain ⟨what, hwhat, rfl⟩ := List.mem_map.mp he
    exact h hp what hwhat
  uuids := map_set_of_eq (b := { j with stamp := f.stamps, phase }) (·.uuid) hj rfl

theorem pollCount_upTo {more : List Event} (hevents : g.events = f.events ++ more)
    (huuids : g.jobs.map (·.uuid) = f.jobs.map (·.uuid)) (hm : m ≤ f.events.length) (uuid : String) :
    (g.upTo m).pollCount uuid = (f.upTo m).pollCount uuid := by
  have huuid (p : Nat) : (g.jobs[p]?).map (·.uuid) = (f.jobs[p]?).map (·.uuid) := by
    rw [← List.getElem?_map, ← List.getElem?_map, huuids]
  simp only [pollCount, upTo, huuid, hevents, List.take_append_of_le_length hm]

theorem asked_append {more : List Event} (hevents : g.events = f.events ++ more)
    (huuids : g.jobs.map (·.uuid) = f.jobs.map (·.uuid)) :
    g.asked position uuid = f.asked position uuid ++ (more.zipIdx f.events.length).filterMap fun (e, m) =>
      if e.position = position ∧ isPolled e.what then some (e.time, (g.upTo m).pollCount uuid) else none := by
  rw [asked, hevents, List.zipIdx_append, List.filterMap_append, Nat.zero_add]
  congr 1
  apply List.filterMap_congr
  rintro ⟨e, m⟩ hmem
  have hm : m < f.events.length := by simpa using (List.mem_zipIdx hmem).2.1
  simp only [pollCount_upTo hevents huuids (Nat.le_of_lt hm)]

namespace Noted

theorem event (h : Noted position f g) (hm : f.events[m]? = some e) : g.events[m]? = some e := by
  obtain ⟨more, hevents, _⟩ := h.events
  rw [hevents, List.getElem?_append_left (List.getElem?_eq_some_iff.mp hm).1, hm]

theorem event_cases (h : Noted position f g) (hm : g.events[m]? = some e) (hp : e.position = position) :
    f.events[m]? = some e ∨ ∃ n, e.what = .noted n := by
  obtain ⟨more, hevents, hmore⟩ := h.events
  by_cases hlt : m < f.events.length
  · rw [hevents, List.getElem?_append_left hlt] at hm
    exact .inl hm
  · rw [hevents, List.getElem?_append_right (Nat.le_of_not_lt hlt)] at hm
    exact .inr (hmore e (List.mem_of_getElem? hm) hp)

theorem polled_iff (h : Noted position f g) : g.Polled position m ↔ f.Polled position m := by
  constructor
  · rintro ⟨e, he, hp, hpolled⟩
    obtain he | ⟨n, hn⟩ := h.event_cases he hp
    · exact ⟨e, he, hp, hpolled⟩
    · simp [hn, isPolled] at hpolled
  · rintro ⟨e, he, hp, hpolled⟩
    exact ⟨e, h.event he, hp, hpolled⟩

theorem asked (h : Noted position f g) (uuid : String) : g.asked position uuid = f.asked position uuid := by
  obtain ⟨more, hevents, hmore⟩ := h.events
  have hnone : (more.zipIdx f.events.length).filterMap (fun (e, m) =>
      if e.position = position ∧ isPolled e.what then some (e.time, (g.upTo m).pollCount uuid) else none) =
        [] := by
    rw [List.filterMap_eq_nil_iff]
    rintro ⟨e, m⟩ hmem
    apply if_neg
    rintro ⟨hp, hpolled⟩
    obtain ⟨n, hn⟩ := hmore e (List.fst_mem_of_mem_zipIdx hmem) hp
    simp [hn, isPolled] at hpolled
  rw [asked_append hevents h.uuids, hnone, List.append_nil]

end Noted

theorem asked_poll (hj : f.jobs[position]? = some j) (uuid : String) :
    (f.put position j phase [.polled]).asked position uuid =
      f.asked position uuid ++ [(f.now, f.pollCount uuid)] := by
  have hevents : (f.put position j phase [.polled]).events = f.events ++ [⟨f.now, position, .polled⟩] := rfl
  have huuids := map_set_of_eq (b := { j with stamp := f.stamps, phase }) (·.uuid) hj rfl
  have hcount := pollCount_upTo (g := f.put position j phase [.polled]) hevents huuids (Nat.le_refl _) uuid
  have hall : f.upTo f.events.length = f := by simp [upTo]
  rw [asked_append hevents huuids]
  simp [isPolled, hcount, hall]

theorem asked_eq_nil (h : ∀ m, ¬ f.Polled position m) : f.asked position uuid = [] := by
  rw [asked, List.filterMap_eq_nil_iff]
  rintro ⟨e, m⟩ hmem
  apply if_neg
  rintro ⟨hp, hpolled⟩
  exact h m ⟨e, List.mem_zipIdx_iff_getElem?.mp hmem, hp, hpolled⟩

structure Requested (s : Setup) (f : Floor) (position : Nat) (uuid : String) (sent call time : Nat) :
    Prop where
  event : f.events[sent]? = some ⟨time, position, .sent (s.command.request uuid)⟩
  call : (f.upTo sent).sentCount = call
  only : ∀ m e, f.events[m]? = some e → e.position = position → isSent e.what → m = sent

structure Awaited (s : Setup) (f : Floor) (position : Nat) (uuid : String) (sent start : Nat) (w : Waiter) :
    Prop where
  waiter : s.waiter = some w
  noted : ∃ m, sent < m ∧ f.events[m]? =
      some ⟨start, position, .noted (.message (s.stage uuid s!"waiting for {w.target}"))⟩ ∧
    ∀ k, f.Polled position k → m < k

def Answers (s : Setup) (uuid : String) (polls : List (Nat × Nat)) (reply? : Nat → Option Reply) : Prop :=
  ∀ k poll, polls[k]? = some poll → reply? k = s.cloud.poll s.command.kind uuid poll.2

/-- A wait that begins at `start` and gets the answers that the polls by the item got. -/
def Concludes (s : Setup) (f : Floor) (position : Nat) (uuid : String) (start : Nat) (w : Waiter)
    (result : Except WaitError Unit) : Prop :=
  ∀ reply?, Answers s uuid (f.asked position uuid) reply? →
    ∃ whole, w.wait? reply? (s.cancelAt position) start = some whole ∧ whole.result = result ∧
      whole.polls = (f.asked position uuid).map (·.1)

inductive Leads (s : Setup) (f : Floor) (position : Nat) (token uuid : String) (sent start : Nat) :
    Fate → Result → Prop
  | panicked {text : String} : (∀ m, ¬ f.Polled position m) →
    Leads s f position token uuid sent start (.panic text)
      (.error (.aborted token (panicText position text)))
  | refused {e : ApiError} : (∀ m, ¬ f.Polled position m) →
    Leads s f position token uuid sent start (.error e) (.error (.remote token e))
  | accepted {record : Option FleetControl.Record} : (∀ m, ¬ f.Polled position m) → s.waiter = none →
    Leads s f position token uuid sent start (.ok record) (.ok record)
  | overflowed {record : Option FleetControl.Record} {w : Waiter} : (∀ m, ¬ f.Polled position m) →
    s.waiter = some w → w.deadline? start = none →
    Leads s f position token uuid sent start (.ok record)
      (.error (.aborted token (panicText position "overflow when adding duration to instant")))
  | succeeded {record : Option FleetControl.Record} {w : Waiter} :
    Awaited s f position uuid sent start w → Concludes s f position uuid start w (.ok ()) →
    Leads s f position token uuid sent start (.ok record) (.ok record)
  | failed {record : Option FleetControl.Record} {w : Waiter} {e : WaitError} :
    Awaited s f position uuid sent start w → Concludes s f position uuid start w (.error e) →
    Leads s f position token uuid sent start (.ok record) (.error (.wait token e))

/-- Where an item stands whose request has been sent. -/
inductive Stands (s : Setup) (f : Floor) (position : Nat) (token uuid : String) (sent start : Nat)
    (fate : Fate) : Phase → Prop
  | sending : (∀ m, ¬ f.Polled position m) →
    Stands s f position token uuid sent start fate (.sending start fate)
  | watching {deadline : Nat} {watch : Watch} {record : Option FleetControl.Record} {w : Waiter} :
    fate = .ok record → Awaited s f position uuid sent start w → w.deadline? start = some deadline →
    (∀ reply?, Answers s uuid (f.asked position uuid) reply? →
      w.Resumes reply? (s.cancelAt position) start deadline ((f.asked position uuid).map (·.1)) watch) →
    Stands s f position token uuid sent start fate (.watching deadline watch record)
  | ended {r : Result} : Leads s f position token uuid sent start fate r →
    Stands s f position token uuid sent start fate (.ended r)

theorem Requested.append {more : List Event} (h : Requested s f position uuid sent call time)
    (hevents : g.events = f.events ++ more)
    (hmore : ∀ e ∈ more, e.position = position → isSent e.what = false) :
    Requested s g position uuid sent call time := by
  obtain ⟨hlt, _⟩ := List.getElem?_eq_some_iff.mp h.event
  have htake : g.events.take sent = f.events.take sent := by
    rw [hevents, List.take_append_of_le_length (Nat.le_of_lt hlt)]
  refine ⟨?_, ?_, ?_⟩
  · rw [hevents, List.getElem?_append_left hlt, h.event]
  · rw [← h.call]
    simp only [sentCount, upTo, htake]
  · intro m e he hp hsent
    rw [hevents] at he
    by_cases hm : m < f.events.length
    · rw [List.getElem?_append_left hm] at he
      exact h.only m e he hp hsent
    · rw [List.getElem?_append_right (Nat.le_of_not_lt hm)] at he
      simp [hmore e (List.mem_of_getElem? he) hp] at hsent

namespace Noted

theorem requested (h : Noted position f g) (hr : Requested s f position uuid sent call time) :
    Requested s g position uuid sent call time := by
  obtain ⟨more, hevents, hmore⟩ := h.events
  apply hr.append hevents
  intro e he hp
  obtain ⟨n, hn⟩ := hmore e he hp
  rw [hn]
  rfl

theorem unpolled (h : Noted position f g) (hn : ∀ m, ¬ f.Polled position m) :
    ∀ m, ¬ g.Polled position m := fun m hm => hn m (h.polled_iff.mp hm)

theorem awaited {w : Waiter} (h : Noted position f g) (ha : Awaited s f position uuid sent start w) :
    Awaited s g position uuid sent start w where
  waiter := ha.waiter
  noted := by
    obtain ⟨m, hm, hevent, hpolls⟩ := ha.noted
    exact ⟨m, hm, h.event hevent, fun k hk => hpolls k (h.polled_iff.mp hk)⟩

theorem concludes {w : Waiter} {result : Except WaitError Unit} (h : Noted position f g)
    (hw : Concludes s f position uuid start w result) : Concludes s g position uuid start w result := by
  unfold Concludes
  rwa [h.asked]

theorem leads (h : Noted position f g) (hl : Leads s f position token uuid sent start fate r) :
    Leads s g position token uuid sent start fate r := by
  cases hl with
  | panicked hn => exact .panicked (h.unpolled hn)
  | refused hn => exact .refused (h.unpolled hn)
  | accepted hn hw => exact .accepted (h.unpolled hn) hw
  | overflowed hn hw hd => exact .overflowed (h.unpolled hn) hw hd
  | succeeded ha hw => exact .succeeded (h.awaited ha) (h.concludes hw)
  | failed ha hw => exact .failed (h.awaited ha) (h.concludes hw)

theorem stands (h : Noted position f g) (hst : Stands s f position token uuid sent start fate phase) :
    Stands s g position token uuid sent start fate phase := by
  cases hst with
  | sending hn => exact .sending (h.unpolled hn)
  | watching hfate ha hd hres => exact .watching hfate (h.awaited ha) hd (by rwa [h.asked])
  | ended hl => exact .ended (h.leads hl)

end Noted

theorem filter_eq_none_of_not_cancels (h : ¬ s.cancels time position) :
    (s.cancelAt position).filter (· ≤ time) = none := by
  rw [filter_le_eq_none_iff]
  intro t ht
  exact Nat.lt_of_not_le fun hle => h ⟨t, ht, hle⟩

theorem pollFailure_notes (failure : Option ApiError) :
    ∀ what ∈ Setup.pollFailure failure, ∃ n, what = .noted n := by
  cases failure <;> simp [Setup.pollFailure]

theorem stands_answered (hj : f.jobs[position]? = some j)
    (hm : Moves s f.now position (f.pollCount j.uuid) j phase whats)
    (hsending : ∃ t known, j.phase = .sending t known)
    (hdue : s.steady.due? position j.phase = some f.now) (hsent : sent < f.events.length)
    (h : Stands s f position j.token j.uuid sent start fate j.phase) :
    Stands s (f.put position j phase whats) position j.token j.uuid sent start fate phase := by
  obtain ⟨t, known, hphase⟩ := hsending
  obtain ⟨rfl, rfl, hn⟩ : t = start ∧ known = fate ∧ ∀ m, ¬ f.Polled position m := by
    rw [hphase] at h
    cases h with
    | sending hn => exact ⟨rfl, rfl, hn⟩
  obtain rfl : t = f.now := by
    rw [hphase] at hdue
    exact Option.some.inj hdue
  have hnoted (hnotes : ∀ what ∈ whats, ∃ n, what = .noted n) :
      Noted position f (f.put position j phase whats) := noted_put hj fun _ => hnotes
  cases hm with
  | panics hp =>
    cases hphase.symm.trans hp
    exact .ended (.panicked ((hnoted (by simp)).unpolled hn))
  | refused hp =>
    cases hphase.symm.trans hp
    exact .ended (.refused ((hnoted (by simp [Setup.message])).unpolled hn))
  | accepted hp hw =>
    cases hphase.symm.trans hp
    exact .ended (.accepted ((hnoted (by simp [Setup.message])).unpolled hn) hw)
  | overflows hp hw hd =>
    cases hphase.symm.trans hp
    exact .ended (.overflowed ((hnoted (by simp [Setup.message])).unpolled hn) hw hd)
  | @waits _ deadline record w hp hw hd =>
    cases hphase.symm.trans hp
    have hunpolled := (hnoted (by simp [Setup.message])).unpolled hn
    have hnote : Awaited s (f.put position j (.watching deadline (.resting f.now) record)
        [s.message j s!"waiting for {w.target}"]) position j.uuid sent f.now w :=
      ⟨hw, f.events.length, hsent, by simp [put, Setup.message, Setup.stage],
        fun k hk => absurd hk (hunpolled k)⟩
    refine .watching rfl hnote hd ?_
    intro reply? _
    rw [asked_eq_nil hunpolled]
    exact Waiter.resumes_start hd
  | cancelled hp | aimless hp | polls hp | rests hp | succeeds hp | fails hp => cases hphase.symm.trans hp

theorem answers_append {polls : List (Nat × Nat)} {poll : Nat × Nat} {reply? : Nat → Option Reply}
    (h : Answers s uuid (polls ++ [poll]) reply?) :
    Answers s uuid polls reply? ∧ reply? polls.length = s.cloud.poll s.command.kind uuid poll.2 := by
  refine ⟨?_, h _ poll (by simp)⟩
  intro k earlier hk
  apply h k earlier
  rw [List.getElem?_append_left (List.getElem?_eq_some_iff.mp hk).1, hk]

theorem awaited_poll {w : Waiter} (j : Job) (phase : Phase)
    (ha : Awaited s f position uuid sent start w) :
    Awaited s (f.put position j phase [.polled]) position uuid sent start w where
  waiter := ha.waiter
  noted := by
    obtain ⟨m, hm, hevent, hpolls⟩ := ha.noted
    have hlt := (List.getElem?_eq_some_iff.mp hevent).1
    refine ⟨m, hm, ?_, ?_⟩
    · rw [put, List.getElem?_append_left hlt, hevent]
    · rintro k ⟨e, he, hp, hpolled⟩
      by_cases hk : k < f.events.length
      · rw [put, List.getElem?_append_left hk] at he
        exact hpolls k ⟨e, he, hp, hpolled⟩
      · omega

theorem stands_watched (hj : f.jobs[position]? = some j)
    (hm : Moves s f.now position (f.pollCount j.uuid) j phase whats) (hwatches : j.phase.Watches)
    (honTime : ∀ u, s.steady.due? position j.phase = some u → f.now ≤ u)
    (hdue : ¬ s.cancels f.now position → s.steady.due? position j.phase = some f.now)
    (h : Stands s f position j.token j.uuid sent start fate j.phase) :
    Stands s (f.put position j phase whats) position j.token j.uuid sent start fate phase := by
  obtain ⟨token, uuid, stamp, before⟩ := j
  simp only at hwatches honTime hdue h ⊢
  cases h with
  | sending | ended => exact hwatches.elim
  | @watching deadline watch record w hfate ha hd hres =>
    subst hfate
    have hnoted (hnotes : ∀ what ∈ whats, ∃ n, what = .noted n) :
        Noted position f (f.put position ⟨token, uuid, stamp, .watching deadline watch record⟩ phase whats) :=
      noted_put hj fun _ => hnotes
    have hwaiter {v : Waiter} (hv : s.waiter = some v) : w = v := Option.some.inj (ha.waiter.symm.trans hv)
    have hmoment (hc : ¬ s.cancels f.now position) : watch.due deadline = f.now := Option.some.inj (hdue hc)
    have hquiet (hc : ¬ s.cancels f.now position) :
        (s.cancelAt position).filter (· ≤ watch.due deadline) = none := by
      rw [hmoment hc]
      exact filter_eq_none_of_not_cancels hc
    cases hm with
    | panics hp | refused hp | accepted hp | overflows hp | waits hp => cases hp
    | cancelled hp hc =>
      -- The watch is not due before now, so the cancellation comes first.
      cases hp
      obtain ⟨t, ht, hle⟩ := hc
      have hlate : t ≤ watch.due deadline := Nat.le_trans hle (honTime _ rfl)
      have hfilter : (s.cancelAt position).filter (· ≤ watch.due deadline) = some t := by
        simp [ht, hlate]
      have hn := hnoted (by simp [Setup.message])
      refine .ended (.failed (hn.awaited ha) (hn.concludes ?_))
      intro reply? hreply
      exact (hres reply? hreply).cancelled hfilter
    | aimless _ _ hw =>
      rw [ha.waiter] at hw
      cases hw
    | polls hp hc hw ht =>
      cases hp
      obtain rfl := hwaiter hw
      obtain ⟨wake, rfl⟩ := Waiter.turn_polls ht
      obtain rfl : wake = f.now := hmoment hc
      refine .watching rfl (awaited_poll _ _ ha) hd ?_
      -- The poll is the last one asked, and its number is the count that the cloud is given.
      rw [asked_poll hj]
      intro reply? hreply
      obtain ⟨hbefore, hlast⟩ := answers_append hreply
      have hresumes := (hres reply? hbefore).poll (filter_eq_none_of_not_cancels hc)
      rw [List.length_map, hlast] at hresumes
      rw [List.map_append]
      exact hresumes
    | rests hp hc hw ht =>
      cases hp
      obtain rfl := hwaiter hw
      have hn := hnoted (pollFailure_notes _)
      refine .watching rfl (hn.awaited ha) hd ?_
      rw [hn.asked]
      intro reply? hreply
      rw [← hmoment hc] at ht
      exact (hres reply? hreply).rest (hquiet hc) ht
    | succeeds hp hc hw ht =>
      cases hp
      obtain rfl := hwaiter hw
      have hn := hnoted (List.forall_mem_append.mpr ⟨pollFailure_notes _, by simp [Setup.message]⟩)
      refine .ended (.succeeded (hn.awaited ha) (hn.concludes ?_))
      intro reply? hreply
      rw [← hmoment hc] at ht
      exact (hres reply? hreply).ends (hquiet hc) ht
    | fails hp hc hw ht =>
      cases hp
      obtain rfl := hwaiter hw
      have hn := hnoted (List.forall_mem_append.mpr ⟨pollFailure_notes _, by simp [Setup.message]⟩)
      refine .ended (.failed (hn.awaited ha) (hn.concludes ?_))
      intro reply? hreply
      rw [← hmoment hc] at ht
      exact (hres reply? hreply).ends (hquiet hc) ht

end FleetControl.Batch.Floor
