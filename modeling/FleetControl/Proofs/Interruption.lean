import FleetControl.Proofs.Timetable

namespace FleetControl

variable {start : Nat} {r : Vigil Ending}

theorem Vigil.Since.filter_polls (h : r.Since start) (c : Nat) :
    r.polls.filter (· < max start c) = r.polls.filter (· < c) := by
  apply List.filter_congr
  intro p hp
  have := h.polls p hp
  rw [decide_eq_decide]
  omega

theorem Vigil.Since.filter_failures (h : r.Since start) (c : Nat) :
    r.failures.filter (·.1 < max start c) = r.failures.filter (·.1 < c) := by
  apply List.filter_congr
  intro f hf
  have := h.failures f hf
  rw [decide_eq_decide]
  omega

theorem Vigil.cut_returns (h : ∃ result, r.result = .ok result) (cancelAt : Option Nat) :
    ∃ result, (r.cut cancelAt).result = .ok result := by
  cases cancelAt with
  | none => exact h
  | some c =>
    by_cases hf : r.finish < c
    · simpa [cut, hf] using h
    · exact ⟨.error .cancelled, by simp [cut, hf]⟩

namespace Waiter

theorem cancelled_wait_is_cut_short (w : Waiter) (reply? : Nat → Option Reply) (start c : Nat)
    (hinterval : 0 < w.interval) (hclock : (w.deadline? start).isSome) :
    ∃ r₀ r, w.run? .checked reply? none start = some r₀ ∧ w.run? .checked reply? (some c) start = some r ∧
      (r₀.finish < c → r = r₀) ∧
      (c ≤ r₀.finish → r.result = .ok (.error .cancelled) ∧ r.finish = max start c ∧
        r.polls = r₀.polls.filter (· < c) ∧ r.failures = r₀.failures.filter (·.1 < c)) ∧
      (c ≤ start → r.polls = []) ∧
      (w.Fits start → (∃ result, r₀.result = .ok result) ∧ ∃ result, r.result = .ok result) := by
  obtain ⟨r₀, hr, hrun⟩ := exists_run hinterval hclock reply?
  have hcut : w.run? .checked reply? (some c) start = some (r₀.cut (some (max start c))) :=
    run?_eq_cut hclock hr (some c)
  have hsince := hr.since (Nat.le_add_right start w.timeout)
  have hfinish := hsince.finish
  refine ⟨r₀, _, hrun, hcut, ?_, ?_, ?_, ?_⟩
  · intro hlt
    exact if_pos (by omega)
  · intro hle
    have hr : r₀.cut (some (max start c)) = ⟨.ok (.error .cancelled), max start c,
        r₀.polls.filter (· < max start c), r₀.failures.filter (·.1 < max start c)⟩ := if_neg (by omega)
    rw [hr]
    exact ⟨rfl, rfl, hsince.filter_polls c, hsince.filter_failures c⟩
  · intro hle
    rw [Nat.max_eq_left hle, hsince.cut (c := start) (by simp)]
  · intro hfits
    have hreturns := hfits.returns hinterval hr
    exact ⟨hreturns, Vigil.cut_returns hreturns _⟩

theorem berth_cut_short :
    0 < berth.interval ∧ (berth.deadline? 0).isSome ∧
      ∃ r₀ r, berth.run? .checked berthScript.reply? none 0 = some r₀ ∧
        berth.run? .checked berthScript.reply? (some 10) 0 = some r ∧ r₀.polls = [0, 8, 17] ∧
        r.result = .ok (.error .cancelled) ∧ r.finish = 10 ∧ r.polls = [0, 8] := by
  obtain ⟨r₀, r, hrun₀, hrun, _, hcut, _⟩ :=
    cancelled_wait_is_cut_short berth berthScript.reply? 0 10 (by decide) (by decide)
  obtain rfl := Option.some.inj (hrun₀.symm.trans berth_run)
  obtain ⟨hresult, hfinish, hpolls, _⟩ := hcut (by decide)
  exact ⟨by decide, by decide, _, r, hrun₀, hrun, rfl, hresult, hfinish, hpolls⟩

end Waiter
end FleetControl
