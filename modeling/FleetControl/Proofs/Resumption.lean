import FleetControl.Proofs.Waiting

/-! Waits that are under way. What is left of a wait, with the polls that were made, makes up the whole. -/
namespace FleetControl.Waiter

variable {w : Waiter} {reply? : Nat → Option Reply} {cancelAt : Option Nat} {start deadline now wake count c : Nat}
  {polls : List Nat} {watch : Watch} {failure : Option ApiError} {result : Except WaitError Unit}

def Resumes (w : Waiter) (reply? : Nat → Option Reply) (cancelAt : Option Nat) (start deadline : Nat)
    (polls : List Nat) (watch : Watch) : Prop :=
  ∃ trail : Trail, trail.polls.reverse = polls ∧ ∀ r,
    w.go .exact reply? cancelAt deadline polls.length watch trail = some r →
      ∃ finish, w.run? .exact reply? cancelAt start = some { r with finish }

theorem resumes_start (h : w.deadline? start = some deadline) :
    w.Resumes reply? cancelAt start deadline [] (.resting start) := by
  refine ⟨.empty, rfl, ?_⟩
  intro r hr
  simp only [run?, h]
  cases hc : cancelAt.filter (· ≤ start) with
  | some c =>
    have hgo : w.go .exact reply? cancelAt deadline 0 (.resting start) .empty =
        some ⟨.ok (.error .cancelled), c, [], []⟩ := go_cancelled hc
    obtain rfl := Option.some.inj (hgo.symm.trans hr)
    exact ⟨start, rfl⟩
  | none => exact ⟨r.finish, hr⟩

theorem Resumes.poll (h : w.Resumes reply? cancelAt start deadline polls (.resting now))
    (hc : cancelAt.filter (· ≤ now) = none) :
    w.Resumes reply? cancelAt start deadline (polls ++ [now]) (Watch.poll now (reply? polls.length)) := by
  obtain ⟨trail, htrail, hrun⟩ := h
  have hdue : (Watch.resting now).due deadline = now := rfl
  refine ⟨trail.polled now, by simp [Trail.polled, htrail], ?_⟩
  intro r hr
  apply hrun
  rw [go, hdue, hc]
  simp only [turn, Arithmetic.counts, if_true]
  rw [List.length_append, List.length_singleton] at hr
  exact hr

theorem turn_exact_count (w : Waiter) (deadline now m n : Nat) (watch : Watch) :
    w.turn .exact deadline now m watch = w.turn .exact deadline now n watch := by
  cases watch <;> rfl

theorem Resumes.rest (h : w.Resumes reply? cancelAt start deadline polls watch)
    (hc : cancelAt.filter (· ≤ watch.due deadline) = none)
    (hturn : w.turn .exact deadline (watch.due deadline) count watch = .rests wake failure) :
    w.Resumes reply? cancelAt start deadline polls (.resting wake) := by
  obtain ⟨trail, htrail, hrun⟩ := h
  refine ⟨trail.noted (watch.due deadline) failure, htrail, ?_⟩
  rw [turn_exact_count w _ _ count polls.length] at hturn
  intro r hr
  apply hrun
  rw [go, hc]
  simp only [hturn]
  exact hr

theorem wait?_of_deadline? (h : w.deadline? start = none) : w.wait? reply? cancelAt start = none := by
  simp [wait?, run?, h, Vigil.returned, Except.map, Except.toOption]

theorem wait?_of_run? {r : Vigil Ending} (h : w.run? .exact reply? cancelAt start = some r)
    (hresult : r.result = .ok result) :
    w.wait? reply? cancelAt start = some ⟨result, r.finish, r.polls, r.failures⟩ := by
  simp [wait?, h, Vigil.returned, hresult, Except.map, Except.toOption]

theorem Resumes.ends (h : w.Resumes reply? cancelAt start deadline polls watch)
    (hc : cancelAt.filter (· ≤ watch.due deadline) = none)
    (hturn : w.turn .exact deadline (watch.due deadline) count watch = .ends (.ok result) failure) :
    ∃ whole, w.wait? reply? cancelAt start = some whole ∧ whole.result = result ∧ whole.polls = polls := by
  obtain ⟨trail, rfl, hrun⟩ := h
  rw [turn_exact_count w _ _ count trail.polls.reverse.length] at hturn
  have hgo : w.go .exact reply? cancelAt deadline trail.polls.reverse.length watch trail =
      some ((trail.noted (watch.due deadline) failure).close (.ok result) (watch.due deadline)) := by
    rw [go, hc]
    simp only [hturn]
  obtain ⟨finish, hwhole⟩ := hrun _ hgo
  exact ⟨_, wait?_of_run? hwhole rfl, rfl, rfl⟩

theorem Resumes.cancelled (h : w.Resumes reply? cancelAt start deadline polls watch)
    (hc : cancelAt.filter (· ≤ watch.due deadline) = some c) :
    ∃ whole, w.wait? reply? cancelAt start = some whole ∧ whole.result = .error .cancelled ∧
      whole.polls = polls := by
  obtain ⟨trail, rfl, hrun⟩ := h
  obtain ⟨finish, hwhole⟩ := hrun _ (go_cancelled hc)
  exact ⟨_, wait?_of_run? hwhole rfl, rfl, List.append_nil _⟩

end FleetControl.Waiter
