import FleetControl.Proofs.Inspection
import FleetControl.Proofs.Verdict

namespace FleetControl

namespace Batch

variable {cloud : Cloud} {c : Catalog} {tokens : List String} {command : Command} {o : Options}
  {operator : Operator} {clock : Progress.TimeOfDay} {r : Sent} {e : BatchError} {why : Rejection}

theorem send_of_refused (h : refusal? tokens o = some why) :
    send cloud c tokens command o operator clock = some ⟨.error (.rejected why), c, [], none, []⟩ := by
  simp only [send, clear_of_refused h]

theorem send_error_cases (h : send cloud c tokens command o operator clock = some r)
    (he : r.result = .error e) :
    (∃ why, refusal? tokens o = some why ∧ e = .rejected why) ∨
      (∃ why, refusal? tokens o = none ∧ (c.resolve cloud command.kind tokens).2 = .error why ∧
        e = .resolve why) ∨ Unconfirmed e := by
  obtain ⟨hitems, _⟩ := send_error h he
  cases hadm : refusal? tokens o with
  | some why =>
    rw [clear_of_refused hadm] at hitems
    exact .inl ⟨why, rfl, (Except.error.inj hitems).symm⟩
  | none =>
    cases hres : (c.resolve cloud command.kind tokens).2 with
    | error why =>
      rw [clear_of_resolve_error hadm hres] at hitems
      exact .inr (.inl ⟨why, rfl, rfl, (Except.error.inj hitems).symm⟩)
    | ok uuids =>
      rw [clear_of_resolve hadm hres] at hitems
      exact .inr (.inr (unconfirmed_of_confirm hitems))

theorem inspect_error_cases {kind : Kind} (h : (inspect cloud c kind tokens).2 = .error e) :
    tokens = [] ∧ e = .rejected .noIdentifier ∨
      tokens ≠ [] ∧ ∃ why, (c.find cloud kind tokens).2 = .error why ∧ e = .resolve why := by
  by_cases hne : tokens = []
  · rw [inspect, if_pos hne] at h
    exact .inl ⟨hne, (Except.error.inj h).symm⟩
  · rw [Catalog.inspect_eq cloud c kind hne] at h
    refine .inr ⟨hne, ?_⟩
    cases hfind : (c.find cloud kind tokens).2 with
    | error why =>
      rw [hfind] at h
      exact ⟨why, rfl, (Except.error.inj h).symm⟩
    | ok found =>
      rw [hfind] at h
      cases h

end Batch

namespace CommandLine.Invocation

open ProgramError (IsRejection)

variable {i : Invocation} {cloud : Cloud} {o : Batch.Options} {operator : Batch.Operator}
  {clock : Progress.TimeOfDay} {d : Dispatched} {e : ProgramError}

def Misnumbered (i : Invocation) : Prop := i.tokens = [] ∨ i.action.wantsOne ∧ i.tokens.length ≠ 1

def Invalid (i : Invocation) : Prop :=
  (∃ e, i.action.intent = .error e) ∨ i.Misnumbered ∧ ∀ storage, i.action.intent ≠ .ok (.load storage)

/-- The servers of a load are miscounted, which shows only after its medium has been found. -/
inductive Belated (i : Invocation) (cloud : Cloud) : Prop
  | intro {storage uuid : String} : i.Misnumbered → i.action.intent = .ok (.load storage) →
    (Catalog.empty.resolveOne cloud .storage storage).2 = .ok uuid → Belated i cloud

theorem misnumbered_iff : i.Misnumbered ↔ ∃ why, Batch.refusal? i.tokens (i.options o) = some why := by
  unfold Misnumbered Batch.refusal? options
  by_cases hone : i.action.wantsOne ∧ i.tokens.length ≠ 1
  · simp [hone]
  · rw [or_iff_left hone]
    simp only [if_neg hone]
    by_cases hnil : i.tokens = [] <;> simp [hnil]

theorem not_misnumbered_iff : ¬ i.Misnumbered ↔ Batch.refusal? i.tokens (i.options o) = none := by
  rw [misnumbered_iff (o := o), ← Option.ne_none_iff_exists', not_not]

inductive Fails (i : Invocation) (cloud : Cloud) : ProgramError → Dispatched → Prop
  | rejected {e : ProgramError} : i.action.intent = .error e → Fails i cloud e (.refused Catalog.empty e)
  | noMedium {storage : String} {why : ResolveError} {d : Dispatched} : i.action.intent = .ok (.load storage) →
    (Catalog.empty.resolveOne cloud .storage storage).2 = .error why → Fails i cloud (.batch (.resolve why)) d
  | unnamed {kind : Kind} : i.action.intent = .ok (.inspect kind) → i.tokens = [] →
    Fails i cloud (.batch (.rejected .noIdentifier)) (.refused Catalog.empty (.batch (.rejected .noIdentifier)))
  | unfound {kind : Kind} {why : ResolveError} {d : Dispatched} : i.action.intent = .ok (.inspect kind) →
    i.tokens ≠ [] → (Catalog.empty.find cloud kind i.tokens).2 = .error why →
    Fails i cloud (.batch (.resolve why)) d
  | miscounted {c : Catalog} {command : Command} {why : Rejection} : i.Sends cloud c command → i.Misnumbered →
    Fails i cloud (.batch (.rejected why)) (.refused c (.batch (.rejected why)))
  | unresolved {c : Catalog} {command : Command} {why : ResolveError} {d : Dispatched} : i.Sends cloud c command →
    ¬ i.Misnumbered → (c.resolve cloud command.kind i.tokens).2 = .error why →
    Fails i cloud (.batch (.resolve why)) d
  | unconfirmed {e : BatchError} {d : Dispatched} : Batch.Unconfirmed e → Fails i cloud (.batch e) d
  | inPart {failed total : Nat} {d : Dispatched} : Fails i cloud (.partialFailure failed total) d

theorem fails_of_dispatch (h : i.dispatch cloud o operator clock = some d) (hd : d.result = .error e) :
    i.Fails cloud e d := by
  cases takes_of_dispatch h with
  | rejected hintent =>
    cases hd
    exact .rejected hintent
  | noMedium hintent hres =>
    cases hd
    exact .noMedium hintent hres
  | @shown kind hintent =>
    cases hres : (Batch.inspect cloud Catalog.empty kind i.tokens).2 with
    | ok records =>
      rw [hres] at hd
      cases hd
    | error e' =>
      rw [hres] at hd
      cases hd
      obtain ⟨hnil, rfl⟩ | ⟨hne, why, hfind, rfl⟩ := Batch.inspect_error_cases hres
      · rw [hnil]
        exact .unnamed hintent hnil
      · exact .unfound hintent hne hfind
  | @sent c command r hsends hr =>
    cases hres : r.result with
    | ok outcome =>
      simp only [Dispatched.ofSent, hres] at hd
      obtain ⟨_, rfl⟩ := Batch.verdict_eq_error_iff.mp hd
      exact .inPart
    | error e' =>
      obtain rfl : .batch e' = e := by simpa [Dispatched.ofSent, hres] using hd
      obtain ⟨why, hwhy, rfl⟩ | ⟨why, hadm, hresolve, rfl⟩ | hun := Batch.send_error_cases hr hres
      · cases hr.symm.trans (Batch.send_of_refused hwhy)
        exact .miscounted hsends (misnumbered_iff.mpr ⟨why, hwhy⟩)
      · exact .unresolved hsends (not_misnumbered_iff.mpr hadm) hresolve
      · exact .unconfirmed hun

theorem Sends.belated_or_invalid {c : Catalog} {command : Command} (h : i.Sends cloud c command)
    (hi : i.Misnumbered) :
    i.Invalid ∧ c = Catalog.empty ∨ i.Belated cloud ∧ c = (Catalog.empty.ensure cloud .storage).1 := by
  cases h with
  | change hintent => exact .inl ⟨.inr ⟨hi, by simp [hintent]⟩, rfl⟩
  | load hintent hres => exact .inr ⟨⟨hi, hintent, hres⟩, rfl⟩

theorem Fails.rejection_cases (h : i.Fails cloud e d) (he : IsRejection e) :
    i.Invalid ∧ d = .refused Catalog.empty e ∨
      i.Belated cloud ∧ d = .refused (Catalog.empty.ensure cloud .storage).1 e := by
  cases h with
  | rejected hintent => exact .inl ⟨.inl ⟨_, hintent⟩, rfl⟩
  | unnamed hintent hnil => exact .inl ⟨.inr ⟨.inl hnil, by simp [hintent]⟩, rfl⟩
  | miscounted hsends hi =>
    obtain ⟨hinvalid, rfl⟩ | ⟨hbelated, rfl⟩ := hsends.belated_or_invalid hi
    · exact .inl ⟨hinvalid, rfl⟩
    · exact .inr ⟨hbelated, rfl⟩
  | unconfirmed hun => cases hun <;> cases he
  | noMedium | unfound | unresolved | inPart => cases he

theorem exists_rejection_of_sends {c : Catalog} {command : Command} (h : i.Sends cloud c command)
    (hi : i.Misnumbered) :
    ∃ d e, i.dispatch cloud o operator clock = some d ∧ d.result = .error e ∧ IsRejection e := by
  obtain ⟨why, hwhy⟩ := misnumbered_iff.mp hi
  exact ⟨_, _, dispatch_of_takes (.sent h (Batch.send_of_refused hwhy)), rfl, .batch why⟩

theorem exists_rejection (h : i.Invalid ∨ i.Belated cloud) :
    ∃ d e, i.dispatch cloud o operator clock = some d ∧ d.result = .error e ∧ IsRejection e := by
  obtain (⟨e, hintent⟩ | ⟨hi, hload⟩) | ⟨hi, hintent, hres⟩ := h
  · exact ⟨_, e, dispatch_of_takes (.rejected hintent), rfl, isRejection_of_intent hintent⟩
  · cases hintent : i.action.intent with
    | error e => exact ⟨_, e, dispatch_of_takes (.rejected hintent), rfl, isRejection_of_intent hintent⟩
    | ok intent =>
      cases intent with
      | inspect kind =>
        have hdisplay := intent_eq_inspect_iff.mp hintent
        have hnil : i.tokens = [] := by simpa [Misnumbered, hdisplay, Action.wantsOne] using hi
        have hinspect : (Batch.inspect cloud Catalog.empty kind i.tokens).2 =
            .error (.rejected .noIdentifier) := by rw [hnil]; rfl
        refine ⟨_, _, dispatch_of_takes (.shown hintent), ?_, .batch .noIdentifier⟩
        rw [hinspect]
        rfl
      | load storage => exact absurd hintent (hload storage)
      | change command => exact exists_rejection_of_sends (.change hintent) hi
  · exact exists_rejection_of_sends (.load hintent hres) hi

theorem Belated.not_invalid (h : i.Belated cloud) : ¬ i.Invalid := by
  obtain ⟨_, hintent, _⟩ := h
  rintro (⟨e, herror⟩ | ⟨_, hload⟩)
  · cases hintent.symm.trans herror
  · exact hload _ hintent

theorem listed_of_storage (cloud : Cloud) : (Catalog.empty.ensure cloud .storage).1.listed = [.storage] :=
  (Catalog.ensure_of_unset Catalog.labelled_empty rfl cloud).1

/-- Input is refused as it stands before anything is sent, asked or printed. Nothing has been listed by then
either, except by a load: its medium is listed and found first, and only then its servers are counted. -/
theorem rejected_before_calls_but_for_media (i : Invocation) (cloud : Cloud) (o : Batch.Options)
    (operator : Batch.Operator) (clock : Progress.TimeOfDay) :
    ((∃ d e, i.dispatch cloud o operator clock = some d ∧ d.result = .error e ∧ IsRejection e) ↔
      i.Invalid ∨ i.Belated cloud) ∧
    ∀ d e, i.dispatch cloud o operator clock = some d → d.result = .error e → IsRejection e →
      d.floor = none ∧ d.requests = [] ∧ d.prompts = [] ∧ d.printed = .nothing ∧
      (d.catalog.listed = [] ↔ ¬ i.Belated cloud) ∧ (i.Belated cloud → d.catalog.listed = [.storage]) := by
  constructor
  · refine ⟨?_, exists_rejection⟩
    rintro ⟨d, e, h, hd, he⟩
    exact ((fails_of_dispatch h hd).rejection_cases he).imp And.left And.left
  · intro d e h hd he
    obtain ⟨hinvalid, rfl⟩ | ⟨hbelated, rfl⟩ := (fails_of_dispatch h hd).rejection_cases he
    · have hnot : ¬ i.Belated cloud := fun hb => hb.not_invalid hinvalid
      exact ⟨rfl, rfl, rfl, rfl, iff_of_true rfl hnot, fun hb => absurd hb hnot⟩
    · have hlisted := listed_of_storage cloud
      refine ⟨rfl, rfl, rfl, rfl, iff_of_false ?_ (not_not.mpr hbelated), fun _ => hlisted⟩
      simp [Dispatched.refused, hlisted]

def library : Script := { Script.empty with storages := [⟨"1", "Setup", "", "", "", "", 0, ""⟩] }

def plainFlags : Flags := ⟨none, .off, .human, false, false, none, none⟩

theorem nameless_router_lists_nothing :
    ∃ d e, dispatch ⟨plainFlags, .modifyRouters (some " "), ["x"]⟩ library.cloud Batch.yardOptions
        Batch.yardOperator ⟨0⟩ = some d ∧ d.result = .error e ∧ IsRejection e ∧ d.requests = [] ∧
      d.catalog.listed = [] := by
  have hintent : (Action.modifyRouters (some " ")).intent = .error (.batch (.rejected .noName)) := by decide
  obtain ⟨hiff, hrejected⟩ := rejected_before_calls_but_for_media
    ⟨plainFlags, .modifyRouters (some " "), ["x"]⟩ library.cloud Batch.yardOptions Batch.yardOperator ⟨0⟩
  obtain ⟨d, e, h, hd, he⟩ := hiff.mpr (.inl (.inl ⟨_, hintent⟩))
  obtain ⟨_, hrequests, _, _, hlisted, _⟩ := hrejected d e h hd he
  exact ⟨d, e, h, hd, he, hrequests, hlisted.mpr fun hb => hb.not_invalid (.inl ⟨_, hintent⟩)⟩

theorem medium_listed_for_no_server :
    ∃ d, dispatch ⟨plainFlags, .load (some "setup"), []⟩ library.cloud Batch.yardOptions
        Batch.yardOperator ⟨0⟩ = some d ∧ d.result = .error (.batch (.rejected .notOneIdentifier)) ∧
      IsRejection (.batch (.rejected .notOneIdentifier)) ∧ d.catalog.listed = [.storage] := by
  have hfound : (Catalog.empty.resolveOne library.cloud .storage "setup").2 = .ok "1" := by decide +kernel
  have hsends : Sends ⟨plainFlags, .load (some "setup"), []⟩ library.cloud
      (Catalog.empty.resolveOne library.cloud .storage "setup").1 (.loadCdrom "1") := .load (by decide) hfound
  have hsend : Batch.send library.cloud (Catalog.empty.resolveOne library.cloud .storage "setup").1 []
      (.loadCdrom "1") (options ⟨plainFlags, .load (some "setup"), []⟩ Batch.yardOptions) Batch.yardOperator ⟨0⟩ =
      some ⟨.error (.rejected .notOneIdentifier), _, [], none, []⟩ := Batch.send_of_refused rfl
  exact ⟨_, dispatch_of_takes (.sent hsends hsend), rfl, .batch _, listed_of_storage library.cloud⟩

end CommandLine.Invocation
end FleetControl
