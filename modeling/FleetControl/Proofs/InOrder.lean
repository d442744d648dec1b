import FleetControl.Proofs.Calls
import FleetControl.Proofs.Clearance

namespace FleetControl.Batch

open Floor

variable {cloud : Cloud} {c : Catalog} {tokens : List String} {command : Command} {o : Options}
  {operator : Operator} {clock : Progress.TimeOfDay} {f : Floor}

structure InOrder (cloud : Cloud) (c : Catalog) (tokens : List String) (command : Command)
    (outcome : Outcome (Option FleetControl.Record)) (f : Floor) : Prop where
  length : outcome.items.length = tokens.length
  once : (f.calls.map (·.1)).Perm (List.range tokens.length)
  item : ∀ (i : Nat) (token : String), tokens[i]? = some token →
    ∃ item j k, outcome.items[i]? = some item ∧ f.jobs[i]? = some j ∧ j.phase = .ended item.result ∧
      item.token = token ∧ (c.resolveOne cloud command.kind token).2 = .ok item.uuid ∧
      f.calls[k]? = some (i, command.request item.uuid) ∧
      (∀ v, item.result = .ok v → (cloud.change k (command.request item.uuid)).fate = .ok v) ∧
      ∀ e, item.result = .error e → e.token = token

theorem Floor.calls_perm {s : Setup} {items : List (String × String)} (h : Accounted s items f)
    (hended : ∀ j ∈ f.jobs, hasEnded j.phase) : (f.calls.map (·.1)).Perm (List.range items.length) := by
  have hlen : f.jobs.length = items.length := by rw [← h.items, List.length_map]
  rw [List.perm_ext_iff_of_nodup h.once List.nodup_range]
  intro p
  rw [h.started, List.mem_range, ← hlen]
  constructor
  · rintro ⟨j, hj, _⟩
    exact (List.getElem?_eq_some_iff.mp hj).1
  · intro hp
    obtain ⟨r, hr⟩ := hasEnded_iff.mp (hended _ (List.getElem_mem hp))
    exact ⟨f.jobs[p], List.getElem?_eq_getElem hp, isQueued_of_ended hr⟩

theorem inOrder_of_reached (h : Reached cloud c tokens command o operator clock f)
    (hidle : ∀ p, timer? (setup cloud command o clock) f p = none) :
    InOrder cloud c tokens command f.outcome f := by
  have hended := ended_of_reached h hidle
  obtain ⟨items, hitems, hr⟩ := h
  obtain ⟨uuids, rfl, hcleared⟩ := clear_ok_iff.mp hitems
  have hne := ne_nil_of_refusal? hcleared.admissible
  have hlen := length_zip_of_resolve hne hcleared.resolved
  have hresolve := (Catalog.resolve_ok_iff hne).mp hcleared.resolved
  have hacc := (accounted_kept _ _).reaches ((accounted_kept _ _).letIn _ (accounted_start _ _)) hr
  have hjobs : f.jobs.length = tokens.length := by
    rw [← hlen, ← hacc.items, List.length_map]
  refine ⟨by simp [outcome, hjobs], hlen ▸ calls_perm hacc hended, ?_⟩
  intro i token htoken
  obtain ⟨hi, rfl⟩ := List.getElem?_eq_some_iff.mp htoken
  have hj : f.jobs[i]? = some f.jobs[i] := List.getElem?_eq_getElem (hjobs ▸ hi)
  have hitem : (tokens.zip uuids)[i]? = some (f.jobs[i].token, f.jobs[i].uuid) := by
    rw [← hacc.items, List.getElem?_map, hj]
    rfl
  obtain ⟨htok, huuid⟩ := List.getElem?_zip_eq_some.mp hitem
  have htok : tokens[i] = f.jobs[i].token := by simpa [hi] using htok
  obtain ⟨hu, huuid⟩ := List.getElem?_eq_some_iff.mp huuid
  obtain ⟨result, hphase⟩ := hasEnded_iff.mp (hended _ (List.mem_of_getElem? hj))
  have hresult : Floor.result f.jobs[i] = result := by simp [Floor.result, hphase]
  obtain ⟨k, hk, hbacks⟩ := hacc.backed i _ hj (isQueued_of_ended hphase)
  simp only [Backs, hphase] at hbacks
  refine ⟨⟨f.jobs[i].token, f.jobs[i].uuid, result⟩, f.jobs[i], k, ?_, hj, hphase, htok.symm, ?_, hk,
    hbacks.1, ?_⟩
  · simp [outcome, hj, hresult]
  · exact (hresolve.get hi hu).trans (congrArg _ huuid)
  · rw [htok]
    exact hbacks.2

/-- The outcome that is returned is in order, and so is every outcome that the batch comes to when jobs
that are due together move in another order. -/
theorem send_in_order (cloud : Cloud) (c : Catalog) (tokens : List String) (command : Command)
    (o : Options) (operator : Operator) (clock : Progress.TimeOfDay) (r : Sent)
    (outcome : Outcome (Option FleetControl.Record))
    (h : send cloud c tokens command o operator clock = some r) (hok : r.result = .ok outcome) :
    (∃ f, r.floor = some f ∧ InOrder cloud c tokens command outcome f) ∧
      ∀ f, Reached cloud c tokens command o operator clock f →
        (∀ p, timer? (setup cloud command o clock) f p = none) →
          InOrder cloud c tokens command f.outcome f := by
  obtain ⟨items, f, hitems, hrun, hfloor, rfl⟩ := send_ok h hok
  obtain ⟨hr, hidle⟩ := loop_reaches hrun
  exact ⟨⟨f, hfloor, inOrder_of_reached ⟨items, hitems, hr⟩ hidle⟩, fun g => inOrder_of_reached⟩

theorem yard_in_order :
    ∃ r outcome, send yard.cloud Catalog.empty ["a", "b", "a"] .startServer yardOptions yardOperator ⟨0⟩ =
        some r ∧ r.result = .ok outcome ∧
      outcome.items.map (·.token) = ["a", "b", "a"] ∧ outcome.failed = 1 ∧
      ∃ f, r.floor = some f ∧
        InOrder yard.cloud Catalog.empty ["a", "b", "a"] .startServer outcome f := by
  have hrun : Floor.run yardSetup 2 0 [("a", "a"), ("b", "b"), ("a", "a")] =
      some (yardFloor ["a", "b", "a"] 9) := loop_eq_some_iff.mpr ⟨9, rfl, rfl⟩
  have hsend : send yard.cloud Catalog.empty ["a", "b", "a"] .startServer yardOptions yardOperator ⟨0⟩ =
      some _ := send_eq_some_iff.mpr (.inr ⟨_, _, rfl, hrun, rfl⟩)
  exact ⟨_, _, hsend, rfl, rfl, rfl, (send_in_order _ _ _ _ _ _ _ _ _ hsend rfl).1⟩

end FleetControl.Batch
