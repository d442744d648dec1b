namespace FleetControl

theorem foldl_earliest {α : Type} {time : α → Nat} {pick : α → α → α}
    (hpick : ∀ a b, pick a b = a ∨ pick a b = b)
    (hle : ∀ a b, time (pick a b) ≤ time a ∧ time (pick a b) ≤ time b) (as : List α) (a : α) :
    as.foldl pick a ∈ a :: as ∧ ∀ b ∈ a :: as, time (as.foldl pick a) ≤ time b := by
  induction as generalizing a with
  | nil => simp
  | cons b as ih =>
    obtain ⟨hmem, hfirst⟩ := ih (pick a b)
    have hbest := hfirst _ List.mem_cons_self
    obtain ⟨ha, hb⟩ := hle a b
    simp only [List.foldl_cons]
    constructor
    · rcases List.mem_cons.mp hmem with h | h
      · rw [h]
        rcases hpick a b with ho | ho <;> simp [ho]
      · simp [h]
    · intro c hc
      rcases List.mem_cons.mp hc with rfl | hc
      · omega
      · rcases List.mem_cons.mp hc with rfl | hc
        · omega
        · exact hfirst c (List.mem_cons_of_mem _ hc)

end FleetControl
