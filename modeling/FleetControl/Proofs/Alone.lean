import FleetControl.Proofs.Calls
import FleetControl.Proofs.Course

/-! An item that is sent alone: its run is the course of its resource, stage by stage. -/
namespace FleetControl.Batch.Floor

variable {s : Setup} {f : Floor} {time position d n start : Nat} {j : Job} {a : Stage}
  {token uuid : String}

theorem uuids_put (hj : f.jobs[position]? = some j) (phase : Phase) (whats : List Happening) :
    (f.put position j phase whats).jobs.map (·.uuid) = f.jobs.map (·.uuid) :=
  map_set_of_eq (b := { j with stamp := f.stamps, phase }) (·.uuid) hj rfl

theorem pollCount_put (hj : f.jobs[position]? = some j) (phase : Phase) (whats : List Happening)
    (u : String) :
    (f.put position j phase whats).pollCount u =
      f.pollCount u + if j.uuid = u then whats.countP isPolled else 0 := by
  have huuid (p : Nat) :
      ((f.put position j phase whats).jobs[p]?).map (·.uuid) = (f.jobs[p]?).map (·.uuid) := by
    rw [← List.getElem?_map, ← List.getElem?_map, uuids_put hj]
  have hown : (f.jobs[position]?).map (·.uuid) = some j.uuid := by rw [hj]; rfl
  simp only [pollCount, huuid]
  simp only [put, List.countP_append, List.countP_map, Function.comp_def, hown]
  by_cases hu : j.uuid = u <;> simp [hu]

def times (f : Floor) (position : Nat) : List Nat :=
  (f.events.filter fun e => e.position == position).map (·.time)

theorem times_put (f : Floor) (position : Nat) (j : Job) (phase : Phase) (whats : List Happening) :
    (f.put position j phase whats).times position = f.times position ++ whats.map fun _ => f.now := by
  have hown : whats.filter (fun _ => true) = whats := List.filter_eq_self.mpr fun _ _ => rfl
  simp [times, put, List.filter_map, Function.comp_def, hown]

theorem head?_times_put {first : Nat} (j : Job) (phase : Phase) (whats : List Happening)
    (h : (f.times position).head? = some first) :
    ((f.put position j phase whats).times position).head? = some first := by
  rw [times_put, List.head?_append, h]
  rfl

theorem getLast?_times_put {whats : List Happening} (f : Floor) (position : Nat) (j : Job) (phase : Phase)
    (hne : whats ≠ []) : ((f.put position j phase whats).times position).getLast? = some f.now := by
  obtain ⟨firsts, last, rfl⟩ := (List.eq_nil_or_concat whats).resolve_left hne
  simp [times_put]

theorem times_put_ne {p : Nat} (f : Floor) (j : Job) (phase : Phase) (whats : List Happening)
    (hp : p ≠ position) : (f.put position j phase whats).times p = f.times p := by
  simp [times, put, List.filter_map, Function.comp_def, Ne.symm hp]

theorem moved_onward (hj : f.jobs[position]? = some j) (hphase : j.phase = a.phase.later d)
    (hpolls : f.pollCount j.uuid = a.polls)
    (hmove : s.move (max f.now time) position (f.pollCount j.uuid) j =
      s.steady.move (max f.now time) position (f.pollCount j.uuid) j)
    (hdue : s.steady.due? position j.phase = some (max f.now time))
    (hcalm : ∀ t text, a.phase ≠ .sending t (.panic text))
    (hfits : position = 0 ∧ d = 0 ∨ s.Represents j.phase) :
    (∃ t, s.steady.due? 0 a.phase = some t ∧ max f.now time = t + d) ∧
      (s.move (max f.now time) position (f.pollCount j.uuid) j).1 =
        (s.onward j.token j.uuid a).phase.later d ∧
      (moved s f time position j).pollCount j.uuid = (s.onward j.token j.uuid a).polls := by
  have hcount := pollCount_put (f := { f with now := max f.now time }) hj
    (s.move (max f.now time) position (f.pollCount j.uuid) j).1
    (s.move (max f.now time) position (f.pollCount j.uuid) j).2 j.uuid
  rw [if_pos rfl] at hcount
  change (moved s f time position j).pollCount j.uuid = f.pollCount j.uuid + _ at hcount
  obtain ⟨token, uuid, stamp, phase⟩ := j
  simp only at hphase hpolls hmove hdue hfits hcount ⊢
  subst hphase
  rw [Setup.due?_later (s := s.steady) rfl, Option.map_eq_some_iff] at hdue
  obtain ⟨now, hstage, hnow⟩ := hdue
  refine ⟨⟨now, hstage, hnow.symm⟩, ?_⟩
  rw [hcount, hmove, hpolls, ← hnow,
    Setup.move_later (s := s.steady) stamp rfl hstage hcalm hfits, Setup.onward_of_due (s := s) hstage]
  exact ⟨rfl, rfl⟩

structure Alone (s : Setup) (token uuid : String) (start n : Nat) (f : Floor) : Prop where
  job : ∃ stamp, f.jobs = [⟨token, uuid, stamp, (s.course 0 token uuid start n).phase⟩]
  polls : f.pollCount uuid = (s.course 0 token uuid start n).polls
  onTime : ∀ t, s.due? 0 (s.course 0 token uuid start n).phase = some t → f.now ≤ t

theorem Alone.release (h : Alone s token uuid start n f)
    (he : hasEnded (s.course 0 token uuid start n).phase) : Alone s token uuid start n (release s f) := by
  obtain ⟨hrelease, _⟩ | ⟨_, j, _, hj, hq, _⟩ := offer_cases s { f with free := f.free + 1 }
  · rw [Floor.release, hrelease]
    exact ⟨h.job, h.polls, h.onTime⟩
  · obtain ⟨stamp, hjobs⟩ := h.job
    have hmem := List.mem_of_getElem? hj
    simp only [hjobs, List.mem_singleton] at hmem
    subst hmem
    cases hphase : (s.course 0 token uuid start n).phase <;> simp_all [isQueued, hasEnded]

theorem Alone.timer? (h : Alone s token uuid start n f) :
    timer? s f 0 = s.due? 0 (s.course 0 token uuid start n).phase := by
  obtain ⟨stamp, hjobs⟩ := h.job
  simp [Floor.timer?, hjobs]

theorem Alone.idle_iff (h : Alone s token uuid start n f) :
    next? s f = none ↔ hasEnded (s.course 0 token uuid start n).phase := by
  rw [next?_eq_none_iff]
  constructor
  · intro hidle
    have hdue := hidle 0
    rw [h.timer?, Setup.due?_eq_none_iff] at hdue
    exact hdue.resolve_left (Setup.course_not_queued n)
  · intro he p
    cases p with
    | zero => rw [h.timer?, Setup.due?_eq_none_iff]; exact .inr he
    | succ p =>
      obtain ⟨stamp, hjobs⟩ := h.job
      simp [Floor.timer?, hjobs]

theorem Alone.advance (hc : s.cancelAt 0 = none)
    (hcalm : ∀ text, (s.cloud.change 0 (s.command.request uuid)).fate ≠ .panic text)
    (h : Alone s token uuid start n f) : Alone s token uuid start (n + 1) (advance s f) := by
  cases hnext : next? s f with
  | none =>
    -- The job has ended, and so has the course.
    have hdue : s.steady.due? 0 (s.course 0 token uuid start n).phase = none :=
      Setup.due?_eq_none_iff.mpr (.inr (h.idle_iff.mp hnext))
    simp only [Floor.advance, hnext]
    have hsame : s.course 0 token uuid start (n + 1) = s.course 0 token uuid start n :=
      Setup.onward_of_idle hdue
    exact ⟨hsame ▸ h.job, hsame ▸ h.polls, hsame ▸ h.onTime⟩
  | some next =>
    obtain ⟨time, stamp, position⟩ := next
    obtain ⟨j, hj, hdue⟩ := timer?_eq_some_iff.mp (next?_due hnext).timer
    obtain ⟨set, hjobs⟩ := h.job
    have hzero : position = 0 := by
      have := (List.getElem?_eq_some_iff.mp hj).1
      simpa [hjobs] using this
    subst hzero
    have hjob : ⟨token, uuid, set, (s.course 0 token uuid start n).phase⟩ = j := by simpa [hjobs] using hj
    subst hjob
    have hnow : f.now ≤ time := h.onTime time hdue
    have hsteady : s.steady.due? 0 (s.course 0 token uuid start n).phase = some (max f.now time) := by
      rw [← Setup.due?_eq_steady hc, Nat.max_eq_right hnow]
      exact hdue
    have hmove (now count : Nat) (j : Job) : s.move now 0 count j = s.steady.move now 0 count j := by
      apply Setup.move_steady
      rintro _ ⟨t, ht, _⟩
      simp [hc] at ht
    obtain ⟨_, hphase, hpolls⟩ := moved_onward hj (Phase.later_zero _).symm h.polls (hmove _ _ _) hsteady
      (fun t text ht => hcalm text (Setup.course_sending ht).symm) (.inl ⟨rfl, rfl⟩)
    rw [Phase.later_zero] at hphase
    obtain ⟨_, honTime⟩ := Setup.move_onTime (f.pollCount uuid) hc (Setup.course_sound n) hdue
    rw [← Nat.max_eq_right hnow, hphase] at honTime
    have hmoved : Alone s token uuid start (n + 1)
        (moved s f time 0 ⟨token, uuid, set, (s.course 0 token uuid start n).phase⟩) := by
      refine ⟨⟨f.stamps, ?_⟩, hpolls, honTime⟩
      simp only [moved, put, hjobs, List.set_cons_zero, hphase]
      rfl
    simp only [Floor.advance, hnext]
    obtain ⟨he, hstep⟩ | ⟨_, hstep⟩ := step_cases time hj
    · rw [hstep]
      exact hmoved.release (hphase ▸ he)
    · rw [hstep]
      exact hmoved

def ComesTo (s : Setup) (start : Nat) (item : String × String) (i : Item (Option FleetControl.Record)) :
    Prop :=
  i.token = item.1 ∧ i.uuid = item.2 ∧ ∃ n, (s.course 0 item.1 item.2 start n).phase = .ended i.result

end FleetControl.Batch.Floor
