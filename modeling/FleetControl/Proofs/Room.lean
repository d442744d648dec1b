import FleetControl.Proofs.Interruption
import FleetControl.Proofs.Resumption

/-!
When the arithmetic of a wait stays within its bounds. Polls that are refused at once come as often as the
interval allows, and one that is refused just before the deadline makes the latest wake; a wait that has room
for both comes to its result on every script, and any other one breaks off on some.
-/
namespace FleetControl.Waiter

variable {w : Waiter} {reply? : Nat → Option Reply} {cancelAt : Option Nat} {deadline start now n : Nat}
  {watch : Watch} {trail : Trail} {r : Vigil Ending} {whole : Waited}

theorem turn_exact {t : Turn} (h : w.turn .checked deadline now n watch = t)
    (hfits : ∀ o failure, t ≠ .ends (.error o) failure) : w.turn .exact deadline now n watch = t := by
  subst h
  revert hfits
  fun_cases turn w .checked deadline now n watch with
  | case1 | case3 => exact fun _ => rfl
  | case2 | case8 => exact fun hfits => absurd rfl (hfits _ _)
  | case4 t answer ht => exact fun _ => turn_late ht
  | case5 t answer ht result hv => exact fun _ => turn_settled ht hv
  | case6 t answer ht hv hd => exact fun _ => turn_expired ht hv hd
  | case7 t answer ht hv hd _ => exact fun _ => turn_wakes ht hv hd

theorem go_exact {result : Except WaitError Unit}
    (h : w.go .checked reply? cancelAt deadline n watch trail = some r) (hresult : r.result = .ok result) :
    w.go .exact reply? cancelAt deadline n watch trail = some r := by
  refine go.partial_correctness w .checked reply? cancelAt deadline (fun n watch trail r =>
    r.result = .ok result → w.go .exact reply? cancelAt deadline n watch trail = some r) ?_ n watch trail r h
    hresult
  intro go ih n watch trail r hr hresult
  rw [Waiter.go]
  cases hc : cancelAt.filter (· ≤ watch.due deadline) with
  | some t =>
    simp only [hc] at hr ⊢
    exact hr
  | none =>
    cases hturn : w.turn .checked deadline (watch.due deadline) n watch with
    | polls =>
      simp only [hc, hturn, turn_exact hturn (by simp)] at hr ⊢
      exact ih _ _ _ _ hr hresult
    | rests wake failure =>
      simp only [hc, hturn, turn_exact hturn (by simp)] at hr ⊢
      exact ih _ _ _ _ hr hresult
    | ends ending failure =>
      simp only [hc, hturn] at hr
      obtain rfl := Option.some.inj hr
      obtain rfl : ending = .ok result := hresult
      simp only [turn_exact hturn (by simp)]

theorem run?_of_checked? (h : w.checked? reply? cancelAt start = some (.ok whole)) :
    w.run? .checked reply? cancelAt start =
      some ⟨.ok whole.result, whole.finish, whole.polls, whole.failures⟩ := by
  obtain ⟨r, hr, hreturned⟩ := Option.map_eq_some_iff.mp h
  obtain ⟨ending, finish, polls, failures⟩ := r
  cases ending with
  | error o => cases hreturned
  | ok result =>
    obtain rfl := Except.ok.inj hreturned
    exact hr

theorem checked?_of_run? {result : Except WaitError Unit}
    (h : w.run? .checked reply? cancelAt start = some r) (hresult : r.result = .ok result) :
    w.checked? reply? cancelAt start = some (.ok ⟨result, r.finish, r.polls, r.failures⟩) := by
  rw [checked?, h, Option.map_some, Vigil.returned, hresult]
  rfl

/-- A checked wait that comes to a result comes to it without the checks. -/
theorem wait?_of_checked? (h : w.checked? reply? cancelAt start = some (.ok whole)) :
    w.wait? reply? cancelAt start = some whole := by
  have hrun := run?_of_checked? h
  suffices hexact : w.run? .exact reply? cancelAt start =
      some ⟨.ok whole.result, whole.finish, whole.polls, whole.failures⟩ from wait?_of_run? hexact rfl
  unfold run? at hrun ⊢
  cases hd : w.deadline? start with
  | none => simp [hd] at hrun
  | some d =>
    cases hc : cancelAt.filter (· ≤ start) with
    | some t =>
      simp only [hd, hc] at hrun ⊢
      exact hrun
    | none =>
      simp only [hd, hc] at hrun ⊢
      exact go_exact hrun rfl

theorem Fits.deadline?_isSome (h : w.Fits start) : (w.deadline? start).isSome := by
  simp [deadline?, h.deadline]

theorem Fits.completes (h : w.Fits start) (hinterval : 0 < w.interval) (reply? : Nat → Option Reply)
    (cancelAt : Option Nat) : ∃ r, w.checked? reply? cancelAt start = some (.ok r) := by
  obtain ⟨r, hr, _⟩ := exists_run hinterval h.deadline?_isSome reply?
  obtain ⟨result, hresult⟩ := Vigil.cut_returns (h.returns hinterval hr) (cancelAt.map (max start))
  exact ⟨_, checked?_of_run? (run?_eq_cut h.deadline?_isSome hr cancelAt) hresult⟩

theorem checked?_of_breaks {o : Overflow} (hclock : (w.deadline? start).isSome)
    (h : Waits w reply? (start + w.timeout) 0 start r) (ho : r.result = .error o) :
    w.checked? reply? none start = some (.error o) := by
  rw [checked?, run?_eq_cut hclock h none, Option.map_some]
  exact congrArg some (congrArg (Except.map _) ho)

theorem checked?_endless (htimeout : clockEnd ≤ w.timeout) (reply? : Nat → Option Reply)
    (cancelAt : Option Nat) (start : Nat) : w.checked? reply? cancelAt start = some (.error .deadline) := by
  have hover : ¬ start + w.timeout < clockEnd := by omega
  simp only [checked?, run?, deadline?, if_neg hover]
  rfl

def refusing (delay : Nat) : Nat → Option Reply := fun _ => some ⟨delay, .error (.transport "")⟩

theorem ceilDiv_le_rest {i : Nat} (hi : 0 < i) (d now : Nat) :
    (d - now) ⌈/⌉ i ≤ (d - min (now + i) d) ⌈/⌉ i + 1 := by
  have hcover : d - min (now + i) d ≤ i * ((d - min (now + i) d) ⌈/⌉ i) :=
    (ceilDiv_le_iff_le_mul hi).mp (Nat.le_refl _)
  rw [ceilDiv_le_iff_le_mul hi, Nat.mul_succ]
  omega

theorem Waits.length_polls_lt (h : Waits w reply? deadline n now r) (hn : n < counterEnd) :
    n + r.polls.length < counterEnd := by
  induction h with
  | uncounted _ => exact hn
  | @again n now a r hcount _ _ _ _ _ ih =>
    have hrest := ih hcount
    simp only [Vigil.polled, Vigil.noted, List.length_cons]
    omega
  | unanswered hcount | settled hcount | expired hcount | unwoken hcount => exact hcount

theorem Waits.le_length_polls (hinterval : 0 < w.interval) (h : Waits w (refusing 0) deadline n now r)
    (hnow : now ≤ deadline) (hreturns : ∃ result, r.result = .ok result) :
    (deadline - now) ⌈/⌉ w.interval + 1 ≤ r.polls.length := by
  induction h with
  | uncounted _ | unwoken _ _ _ _ _ =>
    obtain ⟨_, hresult⟩ := hreturns
    cases hresult
  | unanswered _ hlate => exact absurd (hlate _ rfl) (Nat.not_lt.mpr hnow)
  | settled _ ha _ hv =>
    obtain rfl := Option.some.inj ha
    cases hv
  | @expired n now a _ ha heq _ =>
    obtain rfl := Option.some.inj ha
    obtain rfl : now = deadline := heq
    simp [Vigil.polled, Vigil.noted]
  | @again n now a r _ ha _ _ _ _ ih =>
    obtain rfl := Option.some.inj ha
    have hrest := ih (Nat.min_le_right _ _) hreturns
    have hstep := ceilDiv_le_rest hinterval deadline now
    simp only [Nat.add_zero, Vigil.polled, Vigil.noted, List.length_cons] at hrest ⊢
    omega

theorem checked?_late (hclock : start + w.timeout < clockEnd) (htimeout : 0 < w.timeout)
    (hwake : clockEnd < start + w.timeout + w.interval) :
    w.checked? (refusing (w.timeout - 1)) none start = some (.error .wake) := by
  have hisSome : (w.deadline? start).isSome := by simp [deadline?, hclock]
  have hunwoken : Waits w (refusing (w.timeout - 1)) (start + w.timeout) 0 start _ :=
    .unwoken (by decide) rfl (show start + (w.timeout - 1) < start + w.timeout by omega) rfl
      (show clockEnd ≤ start + (w.timeout - 1) + w.interval by omega)
  exact checked?_of_breaks hisSome hunwoken rfl

theorem run?_crowded (hinterval : 0 < w.interval) (hclock : start + w.timeout + w.interval ≤ clockEnd)
    (hcounter : counterEnd ≤ w.timeout ⌈/⌉ w.interval + 1) :
    ∃ r, w.run? .checked (refusing 0) none start = some r ∧ r.result = .error .counter := by
  have hisSome : (w.deadline? start).isSome := by
    have hlt : start + w.timeout < clockEnd := by omega
    simp [deadline?, hlt]
  obtain ⟨r, hr, hrun⟩ := exists_run hinterval hisSome (refusing 0)
  refine ⟨r, hrun, ?_⟩
  cases hresult : r.result with
  | ok result =>
    have hlen := hr.le_length_polls hinterval (Nat.le_add_right start w.timeout) ⟨result, hresult⟩
    have hcount := hr.length_polls_lt (by decide)
    rw [Nat.add_sub_cancel_left] at hlen
    omega
  | error o =>
    obtain ⟨k, p, _, _, a, ha, hlt, _, hnext⟩ := (hr.breaks (by decide) o).mp hresult
    have hwake : p + a.delay + w.interval < clockEnd := by omega
    rw [next, if_pos hwake] at hnext
    split at hnext
    · cases hnext
    · rw [Except.error.inj hnext]

theorem fits_of_completes (hinterval : 0 < w.interval)
    (h : ∀ reply? cancelAt, ∃ r, w.checked? reply? cancelAt start = some (.ok r)) : w.Fits start := by
  -- Polls that are refused at once fill the counter, and one that is refused late wakes late.
  obtain ⟨whole, hwhole⟩ := h (refusing 0) none
  have hrun := run?_of_checked? hwhole
  obtain ⟨d, hd⟩ : ∃ d, w.deadline? start = some d := by
    cases hd : w.deadline? start with
    | none => simp [run?, hd] at hrun
    | some d => exact ⟨d, rfl⟩
  obtain ⟨hdeadline, rfl⟩ := deadline?_eq_some_iff.mp hd
  refine ⟨hdeadline, ?_, ?_⟩
  · intro htimeout
    by_contra hwake
    obtain ⟨s, hs⟩ := h (refusing (w.timeout - 1)) none
    cases (checked?_late hdeadline htimeout (by omega)).symm.trans hs
  · obtain ⟨r, hr, hrun'⟩ := exists_run hinterval (Option.isSome_iff_exists.mpr ⟨_, hd⟩) (refusing 0)
    obtain rfl := Option.some.inj (hrun.symm.trans hrun')
    have hlen := hr.le_length_polls hinterval (Nat.le_add_right start w.timeout) ⟨_, rfl⟩
    have hcount := hr.length_polls_lt (by decide)
    rw [Nat.add_sub_cancel_left] at hlen
    omega

end FleetControl.Waiter
