import FleetControl.Proofs.Resolution
import FleetControl.Proofs.Schedule

namespace FleetControl.Batch

variable {cloud : Cloud} {c : Catalog} {tokens uuids : List String} {command : Command} {o : Options}
  {operator : Operator} {clock : Progress.TimeOfDay} {now : Nat} {items cleared : List (String × String)}
  {kind : Kind} {r : Sent} {f : Floor}

def Agrees (o : Options) (now : Nat) (operator : Operator) : Prop :=
  operator.reply = .answers true ∧ ∀ t, o.cancelAt = some t → now + operator.delay < t

theorem filter_le_eq_none_iff {t : Option Nat} {n : Nat} :
    t.filter (· ≤ n) = none ↔ ∀ u, t = some u → n < u := by
  cases t <;> simp

theorem settle_ok_iff : (settle o now operator).2 = .ok () ↔ Agrees o now operator := by
  simp only [settle, Agrees, ← filter_le_eq_none_iff]
  cases o.cancelAt.filter (· ≤ now + operator.delay) with
  | some t => simp
  | none =>
    cases operator.reply with
    | answers yes => cases yes <;> simp
    | interrupts => simp
    | fails reason => simp

inductive Unconfirmed : BatchError → Prop
  | cancelled : Unconfirmed .cancelled
  | prompt (reason : String) : Unconfirmed (.prompt reason)

theorem unconfirmed_of_settle {e : BatchError} (h : (settle o now operator).2 = .error e) : Unconfirmed e := by
  simp only [settle] at h
  split at h <;> cases h
  case h_5 => exact .prompt _
  all_goals exact .cancelled

theorem confirm_ok_iff :
    (confirm o operator kind c items).items = .ok cleared ↔
      cleared = items ∧ (needsConfirmation o items.length → Agrees o c.now operator) := by
  unfold confirm
  by_cases hn : needsConfirmation o items.length
  · rw [if_pos hn, ← settle_ok_iff]
    cases h : (settle o c.now operator).2 <;> simp [h, hn, Except.map, eq_comm]
  · simp [hn, eq_comm]

theorem unconfirmed_of_confirm {e : BatchError} (h : (confirm o operator kind c items).items = .error e) :
    Unconfirmed e := by
  unfold confirm at h
  by_cases hn : needsConfirmation o items.length
  · cases hv : (settle o c.now operator).2 with
    | ok => simp [hn, hv, Except.map] at h
    | error e' =>
      obtain rfl : e' = e := by simpa [hn, hv, Except.map] using h
      exact unconfirmed_of_settle hv
  · simp [hn] at h

structure Cleared (cloud : Cloud) (c : Catalog) (tokens : List String) (command : Command) (o : Options)
    (operator : Operator) (uuids : List String) : Prop where
  admissible : refusal? tokens o = none
  resolved : (c.resolve cloud command.kind tokens).2 = .ok uuids
  agreed : needsConfirmation o tokens.length → Agrees o (c.ensure cloud command.kind).1.now operator

theorem ne_nil_of_refusal? (h : refusal? tokens o = none) : tokens ≠ [] := by
  rintro rfl
  unfold refusal? at h
  split at h <;> simp at h

theorem length_of_resolve (hne : tokens ≠ []) (h : (c.resolve cloud kind tokens).2 = .ok uuids) :
    uuids.length = tokens.length := ((Catalog.resolve_ok_iff hne).mp h).length_eq.symm

theorem length_zip_of_resolve (hne : tokens ≠ []) (h : (c.resolve cloud kind tokens).2 = .ok uuids) :
    (tokens.zip uuids).length = tokens.length := by
  simp [length_of_resolve hne h]

theorem clear_of_resolve (hadm : refusal? tokens o = none)
    (hres : (c.resolve cloud command.kind tokens).2 = .ok uuids) :
    clear cloud c tokens command o operator =
      confirm o operator command.kind (c.ensure cloud command.kind).1 (tokens.zip uuids) := by
  have hpair : c.resolve cloud command.kind tokens = ((c.ensure cloud command.kind).1, .ok uuids) :=
    Prod.ext Catalog.resolve_fst hres
  simp [clear, hadm, hpair]

theorem clear_of_refused {why : Rejection} (h : refusal? tokens o = some why) :
    clear cloud c tokens command o operator = ⟨c, [], .error (.rejected why)⟩ := by
  simp [clear, h]

theorem clear_of_resolve_error {e : ResolveError} (hadm : refusal? tokens o = none)
    (hres : (c.resolve cloud command.kind tokens).2 = .error e) :
    clear cloud c tokens command o operator =
      ⟨(c.ensure cloud command.kind).1, [], .error (.resolve e)⟩ := by
  have hpair : c.resolve cloud command.kind tokens = ((c.ensure cloud command.kind).1, .error e) :=
    Prod.ext Catalog.resolve_fst hres
  simp [clear, hadm, hpair]

theorem clear_ok_iff :
    (clear cloud c tokens command o operator).items = .ok items ↔
      ∃ uuids, items = tokens.zip uuids ∧ Cleared cloud c tokens command o operator uuids := by
  cases hadm : refusal? tokens o with
  | some why =>
    constructor
    · intro h
      simp [clear_of_refused hadm] at h
    · rintro ⟨_, _, h⟩
      simp [h.admissible] at hadm
  | none =>
    have hne := ne_nil_of_refusal? hadm
    cases hres : (c.resolve cloud command.kind tokens).2 with
    | error e =>
      constructor
      · intro h
        simp [clear_of_resolve_error hadm hres] at h
      · rintro ⟨_, _, h⟩
        simp [h.resolved] at hres
    | ok uuids =>
      rw [clear_of_resolve hadm hres, confirm_ok_iff, length_zip_of_resolve hne hres]
      constructor
      · rintro ⟨rfl, hagreed⟩
        exact ⟨uuids, rfl, hadm, hres, hagreed⟩
      · rintro ⟨uuids', rfl, _, hres', hagreed⟩
        obtain rfl : uuids = uuids' := by simpa [hres] using hres'
        exact ⟨rfl, hagreed⟩

theorem prompts_cases (cloud : Cloud) (c : Catalog) (tokens : List String) (command : Command)
    (o : Options) (operator : Operator) :
    (clear cloud c tokens command o operator).prompts = [] ∨
      (clear cloud c tokens command o operator).prompts = [question tokens.length command.kind] ∧
        refusal? tokens o = none ∧ (∃ uuids, (c.resolve cloud command.kind tokens).2 = .ok uuids) ∧
        needsConfirmation o tokens.length := by
  cases hadm : refusal? tokens o with
  | some why => exact .inl (by rw [clear_of_refused hadm])
  | none =>
    cases hres : (c.resolve cloud command.kind tokens).2 with
    | error e => exact .inl (by rw [clear_of_resolve_error hadm hres])
    | ok uuids =>
      rw [clear_of_resolve hadm hres]
      have hlen := length_zip_of_resolve (ne_nil_of_refusal? hadm) hres
      unfold confirm
      by_cases hn : needsConfirmation o tokens.length
      · rw [hlen, if_pos hn]
        exact .inr ⟨rfl, rfl, ⟨uuids, rfl⟩, hn⟩
      · rw [hlen, if_neg hn]
        exact .inl rfl

theorem send_eq_some_iff :
    send cloud c tokens command o operator clock = some r ↔
      let b := clear cloud c tokens command o operator
      let s := setup cloud command o clock
      (∃ e, b.items = .error e ∧ r = ⟨.error e, b.catalog, b.prompts, none, []⟩) ∨
        ∃ items f, b.items = .ok items ∧
          Floor.run s (permits command.risk o.workers) b.catalog.now items = some f ∧
          r = ⟨.ok f.outcome, { b.catalog with now := f.now }, b.prompts, some f,
            f.logSteps s b.catalog.now⟩ := by
  simp only [send]
  cases hitems : (clear cloud c tokens command o operator).items with
  | error e => simp [eq_comm]
  | ok items =>
    simp only [dispatch, Option.map_eq_some_iff, reduceCtorEq, false_and, exists_false, false_or,
      Except.ok.injEq]
    constructor
    · rintro ⟨f, hf, rfl⟩
      exact ⟨items, f, rfl, hf, rfl⟩
    · rintro ⟨_, f, rfl, hf, rfl⟩
      exact ⟨f, hf, rfl⟩

theorem send_error {e : BatchError} (h : send cloud c tokens command o operator clock = some r)
    (he : r.result = .error e) :
    (clear cloud c tokens command o operator).items = .error e ∧ r.floor = none ∧ r.steps = [] := by
  obtain ⟨e', hitems, rfl⟩ | ⟨items, f, _, _, rfl⟩ := send_eq_some_iff.mp h
  · obtain rfl : e' = e := Except.error.inj he
    exact ⟨hitems, rfl, rfl⟩
  · simp at he

theorem send_ok {outcome : Outcome (Option FleetControl.Record)}
    (h : send cloud c tokens command o operator clock = some r) (hok : r.result = .ok outcome) :
    ∃ items f, (clear cloud c tokens command o operator).items = .ok items ∧
      Floor.run (setup cloud command o clock) (permits command.risk o.workers)
        (clear cloud c tokens command o operator).catalog.now items = some f ∧
      r.floor = some f ∧ outcome = f.outcome := by
  obtain ⟨e, _, rfl⟩ | ⟨items, f, hitems, hf, rfl⟩ := send_eq_some_iff.mp h
  · simp at hok
  · exact ⟨items, f, hitems, hf, rfl, (Except.ok.inj hok).symm⟩

theorem send_prompts (h : send cloud c tokens command o operator clock = some r) :
    r.prompts = (clear cloud c tokens command o operator).prompts := by
  obtain ⟨_, _, rfl⟩ | ⟨_, _, _, _, rfl⟩ := send_eq_some_iff.mp h
  · rfl
  · rfl

theorem send_reached (h : send cloud c tokens command o operator clock = some r)
    (hf : r.floor = some f) : Reached cloud c tokens command o operator clock f := by
  obtain ⟨_, _, rfl⟩ | ⟨items, g, hitems, hg, rfl⟩ := send_eq_some_iff.mp h
  · simp at hf
  · obtain rfl : g = f := Option.some.inj hf
    exact ⟨items, hitems, (Floor.loop_reaches hg).1⟩

theorem reached_cleared (h : Reached cloud c tokens command o operator clock f) :
    ∃ uuids, Cleared cloud c tokens command o operator uuids := by
  obtain ⟨items, hitems, _⟩ := h
  obtain ⟨uuids, _, hcleared⟩ := clear_ok_iff.mp hitems
  exact ⟨uuids, hcleared⟩

/-- A batch that fails has sent, polled and logged nothing. The operator is asked at most once, about a
batch that is larger than allowed and whose tokens are resolved, and only an agreement that precedes
the cancellation lets such a batch come to a floor, on which requests are sent. -/
theorem effects_need_clearance (cloud : Cloud) (c : Catalog) (tokens : List String) (command : Command)
    (o : Options) (operator : Operator) (clock : Progress.TimeOfDay) :
    (∀ r e, send cloud c tokens command o operator clock = some r → r.result = .error e →
      r.requests = [] ∧ r.polls = [] ∧ r.steps = [] ∧
        ∀ f, ¬ Reached cloud c tokens command o operator clock f) ∧
      (∀ r, send cloud c tokens command o operator clock = some r →
        r.prompts = (clear cloud c tokens command o operator).prompts ∧
          ∀ f, r.floor = some f → Reached cloud c tokens command o operator clock f) ∧
      ((clear cloud c tokens command o operator).prompts = [] ∨
        (clear cloud c tokens command o operator).prompts = [question tokens.length command.kind] ∧
          (∀ token ∈ tokens, ∃ uuid, (c.resolveOne cloud command.kind token).2 = .ok uuid) ∧
          o.confirm ∧ o.unconfirmed < tokens.length) ∧
      ∀ f, Reached cloud c tokens command o operator clock f →
        o.confirm → o.unconfirmed < tokens.length →
          operator.reply = .answers true ∧
            ∀ t, o.cancelAt = some t → (c.ensure cloud command.kind).1.now + operator.delay < t := by
  refine ⟨?_, fun r h => ⟨send_prompts h, fun f hf => send_reached h hf⟩, ?_, ?_⟩
  · intro r e h he
    obtain ⟨hitems, hfloor, hsteps⟩ := send_error h he
    refine ⟨by simp [Sent.requests, hfloor], by simp [Sent.polls, hfloor], hsteps, ?_⟩
    rintro f ⟨items, hok, _⟩
    simp [hitems] at hok
  · obtain h | ⟨hp, hadm, hres, hn⟩ := prompts_cases cloud c tokens command o operator
    · exact .inl h
    · rw [Catalog.resolve_isOk_iff (ne_nil_of_refusal? hadm)] at hres
      simp only [needsConfirmation, Bool.and_eq_true, decide_eq_true_eq] at hn
      exact .inr ⟨hp, hres, hn⟩
  · intro f h hconfirm hlt
    obtain ⟨uuids, hcleared⟩ := reached_cleared h
    exact hcleared.agreed (by simp [needsConfirmation, hconfirm, hlt])

theorem yard_untouched_by_unknown :
    ∃ r, send yard.cloud Catalog.empty ["a", "c"] .startServer yardOptions yardOperator ⟨0⟩ = some r ∧
      r.result = .error (.resolve (.notFound "c")) ∧ r.requests = [] ∧ r.polls = [] ∧ r.steps = [] := by
  obtain ⟨herror, _⟩ := effects_need_clearance yard.cloud Catalog.empty ["a", "c"] .startServer
    yardOptions yardOperator ⟨0⟩
  refine ⟨_, rfl, rfl, ?_⟩
  obtain ⟨hrequests, hpolls, hsteps, _⟩ := herror _ _ rfl rfl
  exact ⟨hrequests, hpolls, hsteps⟩

end FleetControl.Batch
