import FleetControl.Proofs.Calls
import FleetControl.Proofs.Course

/-!
Time on a floor. It does not pass an instant at which a job would move if nothing were cancelled, and
events are dated in the order in which they are noted.
-/
namespace FleetControl.Batch

open Floor

variable {s : Setup} {f : Floor} {now time position : Nat} {j : Job} {phase : Phase}
  {whats : List Happening} {items : List (String × String)}

theorem Setup.move_punctual (count : Nat) (hdue : s.due? position j.phase = some time) (hs : j.phase.Sound)
    (honTime : ∀ t, s.steady.due? position j.phase = some t → now ≤ t) :
    (s.move (max now time) position count j).1.Sound ∧
      ∀ t, s.steady.due? position (s.move (max now time) position count j).1 = some t →
        max now time ≤ t := by
  obtain ⟨hsteady, hcancels⟩ | ⟨hwatches, hcancels, _⟩ := moves_steadily_or_cancelled hdue honTime
  · rw [move_steady _ count hcancels]
    exact move_onTime (s := s.steady) count rfl hs hsteady
  · rw [move_cancelled count hwatches hcancels]
    refine ⟨trivial, ?_⟩
    intro t ht
    cases ht

namespace Floor

theorem Due.le_steady (h : Due s f time position)
    (honTime : ∀ p k t, f.jobs[p]? = some k → s.steady.due? p k.phase = some t → f.now ≤ t) (p : Nat)
    (k : Job) (t : Nat) (hk : f.jobs[p]? = some k) (ht : s.steady.due? p k.phase = some t) :
    max f.now time ≤ t := by
  obtain ⟨u, hu, hle⟩ := Setup.due?_le_steady ht
  have hfirst := h.first p u (timer?_eq_some_iff.mpr ⟨k, hk, hu⟩)
  exact Nat.max_le.mpr ⟨honTime p k t hk ht, Nat.le_trans hfirst hle⟩

structure Punctual (s : Setup) (f : Floor) : Prop where
  sound : ∀ (p : Nat) (j : Job), f.jobs[p]? = some j → j.phase.Sound
  onTime : ∀ (p : Nat) (j : Job) (t : Nat),
    f.jobs[p]? = some j → s.steady.due? p j.phase = some t → f.now ≤ t
  past : ∀ e ∈ f.events, e.time ≤ f.now
  dated : f.events.Pairwise (·.time ≤ ·.time)

theorem Punctual.put (h : Punctual s f) (hnow : f.now ≤ now) (hsound : phase.Sound)
    (honTime : ∀ t, s.steady.due? position phase = some t → now ≤ t)
    (hothers : ∀ p k t, f.jobs[p]? = some k → s.steady.due? p k.phase = some t → now ≤ t) :
    Punctual s (Floor.put { f with now } position j phase whats) where
  sound p k hk := by
    obtain ⟨rfl, rfl⟩ | ⟨_, hk⟩ := getElem?_put hk
    · exact hsound
    · exact h.sound p k hk
  onTime p k t hk ht := by
    obtain ⟨rfl, rfl⟩ | ⟨_, hk⟩ := getElem?_put hk
    · exact honTime t ht
    · exact hothers p k t hk ht
  past e he := by
    obtain he | he := List.mem_append.mp he
    · exact Nat.le_trans (h.past e he) hnow
    · obtain ⟨_, _, rfl⟩ := List.mem_map.mp he
      exact Nat.le_refl now
  dated := by
    refine List.pairwise_append.mpr ⟨h.dated, ?_, ?_⟩
    · rw [List.pairwise_map]
      exact List.pairwise_of_forall fun _ _ => Nat.le_refl now
    · intro e he e' he'
      obtain ⟨_, _, rfl⟩ := List.mem_map.mp he'
      exact Nat.le_trans (h.past e he) hnow

theorem punctual_start (s : Setup) (limit now : Nat) : Punctual s (start limit now items) where
  sound p j hj := by
    rw [phase_start (List.mem_of_getElem? hj)]
    trivial
  onTime p j t hj ht := by
    rw [phase_start (List.mem_of_getElem? hj)] at ht
    cases ht
  past := List.forall_mem_nil _
  dated := List.Pairwise.nil

theorem punctual_kept (s : Setup) : Kept s (Punctual s) where
  free f n h := ⟨h.sound, h.onTime, h.past, h.dated⟩
  grant f p j h hj hq := by
    apply h.put (Nat.le_refl _)
    · trivial
    · intro t ht
      obtain rfl := Option.some.inj ht
      exact Nat.le_add_right _ _
    · exact h.onTime
  move f time p j h hj hd := by
    obtain ⟨k, hk, hdue⟩ := timer?_eq_some_iff.mp hd.timer
    obtain rfl : j = k := by simpa [hj] using hk
    obtain ⟨hsound, honTime⟩ :=
      Setup.move_punctual (f.pollCount j.uuid) hdue (h.sound p j hj) fun t => h.onTime p j t hj
    exact h.put (Nat.le_max_left _ _) hsound honTime (hd.le_steady h.onTime)

theorem Punctual.time_le {m n : Nat} {e e' : Event} (h : Punctual s f) (he : f.events[m]? = some e)
    (he' : f.events[n]? = some e') (hlt : m < n) : e.time ≤ e'.time := by
  obtain ⟨hm, rfl⟩ := List.getElem?_eq_some_iff.mp he
  obtain ⟨hn, rfl⟩ := List.getElem?_eq_some_iff.mp he'
  exact List.pairwise_iff_getElem.mp h.dated m n hm hn hlt

end Floor
end FleetControl.Batch
